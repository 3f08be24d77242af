import CodexQueueBot.Config.Settings
import CodexQueueBot.Go.StringFacts
import Mathlib.Data.List.Nodup
import Mathlib.Tactic.Tauto

/-!
# What validation accepts

`validate` accepts a configuration exactly when each of its sections passes its own checks, every
target is valid, and no two targets have the same name up to case. So a section that was checked
against the defaults passes again in any other configuration, and the only condition that concerns
several parts at once is the one on the names of the targets.
-/

set_option autoImplicit false
set_option relaxedAutoImplicit false

namespace CodexQueueBot

open Go

namespace Config

/-! ### Sequences of checks -/

/-- A check passes exactly when what it looks for is not there. -/
@[simp]
theorem check_eq_ok {violated : Prop} [Decidable violated] {message : Message} {value : Unit} :
    check violated message = .ok value ↔ ¬ violated := by
  unfold check
  split_ifs with h <;> simp [h]

/-- Checks in a row pass exactly when each of them does. -/
@[simp]
theorem checks_eq_ok {first : Except Message Unit} {rest : Unit → Except Message Unit}
    {value : Unit} : (first >>= rest) = .ok value ↔ first = .ok () ∧ rest () = .ok value := by
  cases first with
  | error message => simp [bind, Except.bind]
  | ok => simp [bind, Except.bind]

/-- Overrides that `validateOverrides` accepts. -/
def Overrides (values : List String) : Prop :=
  ∀ value ∈ values, Strings.trimSpace value ≠ "" ∧ '=' ∈ value.toList

/-- `validateOverrides` looks at every value, under any label. -/
theorem validateOverrides_eq_ok {label : Message} {index : Nat} {values : List String} :
    validateOverrides label index values = .ok () ↔ Overrides values := by
  induction values generalizing index with
  | nil => simp [validateOverrides, Overrides]
  | cons value values ih =>
    simp only [validateOverrides, checks_eq_ok, check_eq_ok, not_or, not_not, ih, Overrides,
      List.forall_mem_cons]

section

variable [NetURL]

/-- URLs that `validateHTTPURL` accepts. -/
def HTTPURL (raw : String) : Prop :=
  ∃ url, NetURL.parse raw = some url ∧ url.host ≠ "" ∧
    (url.scheme = "http" ∨ url.scheme = "https") ∧ url.hasUser = false ∧ url.fragment = "" ∧
      url.rawQuery = ""

/-- `validateHTTPURL` accepts the same texts under any label. -/
theorem validateHTTPURL_eq_ok {label : Message} {raw : String} :
    validateHTTPURL label raw = .ok () ↔ HTTPURL raw := by
  unfold validateHTTPURL HTTPURL
  cases NetURL.parse raw with
  | none => simp
  | some url =>
    simp only [checks_eq_ok, check_eq_ok, Option.some.injEq, exists_eq_left', Bool.not_eq_true,
      ne_eq, not_not]
    tauto

omit [NetURL] in
/-- A parser that accepts the scheme `http` with a host, and no more. -/
@[reducible]
def hostOnly : NetURL where
  parse text :=
    match text.toList with
    | 'h' :: 't' :: 't' :: 'p' :: ':' :: '/' :: '/' :: host =>
      if host.all fun c ↦ c.isAlphanum || c = '.' || c = ':' then
        some ⟨"http", String.ofList host, false, "", "", ""⟩
      else none
    | _ => none

/-! ### Targets -/

/-- What validation asks of a target on its own. -/
structure Valid (t : Target) : Prop where
  named : t.name ≠ ""
  unreserved : Strings.toLower t.name ≠ "all" ∧ Strings.toLower t.name ≠ "全部"
  plain : ∀ c ∈ t.name.toList, Strings.isSpace c = false ∧ c ∉ separators
  url : HTTPURL t.apiBaseURL
  key : t.apiKey ≠ ""
  model : t.model ≠ ""
  wireAPI : t.wireAPI = "responses"
  overrides : Overrides t.configOverrides

/-- The body of the loop accepts a valid target whose key was not seen before. -/
theorem validateListed_eq_ok {index : Nat} {seen : List String} {t : Target} :
    validateListed index seen t = .ok () ↔ Valid t ∧ Strings.toLower t.name ∉ seen := by
  simp only [validateListed, checks_eq_ok, check_eq_ok, validateHTTPURL_eq_ok,
    validateOverrides_eq_ok, not_or, List.any_eq_true, Bool.or_eq_true, List.contains_iff_mem,
    not_exists, not_and, not_not]
  constructor
  · rintro ⟨hname, hreserved, hplain, hseen, hurl, hkey, hmodel, hwire, hoverrides⟩
    refine ⟨⟨hname, hreserved, fun c hmem ↦ ?_, hurl, hkey, hmodel, hwire, hoverrides⟩, hseen⟩
    simpa using hplain c hmem
  · rintro ⟨h, hseen⟩
    refine ⟨h.named, h.unreserved, fun c hmem ↦ ?_, hseen, h.url, h.key, h.model, h.wireAPI,
      h.overrides⟩
    simpa using h.plain c hmem

/-- The loop accepts valid targets whose keys are distinct and were not seen before. -/
theorem validateTargets_eq_ok {index : Nat} {seen : List String} {targets : List Target} :
    validateTargets index seen targets = .ok () ↔ (∀ t ∈ targets, Valid t) ∧
      (targets.map fun t ↦ Strings.toLower t.name).Nodup ∧
        ∀ t ∈ targets, Strings.toLower t.name ∉ seen := by
  induction targets generalizing index seen with
  | nil => simp [validateTargets]
  | cons t targets ih =>
    simp only [validateTargets, checks_eq_ok, validateListed_eq_ok, ih, List.forall_mem_cons,
      List.map_cons, List.nodup_cons, List.mem_map, not_exists, not_and]
    constructor
    · rintro ⟨⟨hvalid, hseen⟩, hvalids, hnodup, hfresh⟩
      refine ⟨⟨hvalid, hvalids⟩, ⟨fun other hmem heq ↦ ?_, hnodup⟩, hseen, fun other hmem hold ↦ ?_⟩
      · exact hfresh other hmem (heq ▸ List.mem_cons_self)
      · exact hfresh other hmem (List.mem_cons_of_mem _ hold)
    · rintro ⟨⟨hvalid, hvalids⟩, ⟨hdistinct, hnodup⟩, hseen, hfresh⟩
      refine ⟨⟨hvalid, hseen⟩, hvalids, hnodup, fun other hmem hold ↦ ?_⟩
      exact (List.mem_cons.mp hold).elim (hdistinct other hmem) (hfresh other hmem)

/-- Targets that `validate` accepts as a list. -/
structure ValidTargets (targets : List Target) : Prop where
  valid : ∀ t ∈ targets, Valid t
  distinct : (targets.map fun t ↦ Strings.toLower t.name).Nodup

/-! ### Whole configurations -/

/-- A configuration that `ValidateAllowEmptyTargets` accepts, part by part. -/
structure Accepted (c : Config) : Prop where
  openILink : validateOpenILinkSection c.openILink = .ok ()
  telegram : validateTelegramSection c.telegram = .ok ()
  intervals : validateIntervals c.codex = .ok ()
  activityLimit : 0 ≤ c.web.activityLimit
  overrides : Overrides c.codex.configOverrides
  targets : ValidTargets c.codex.targets

/-- `ValidateAllowEmptyTargets` accepts a configuration part by part. -/
theorem validateAllowEmptyTargets_eq_ok {c : Config} :
    c.validateAllowEmptyTargets = .ok () ↔ c.Accepted := by
  simp only [validateAllowEmptyTargets, validate, checks_eq_ok, check_eq_ok,
    validateOverrides_eq_ok, validateTargets_eq_ok, Int.not_lt]
  constructor
  · rintro ⟨hopen, htelegram, hintervals, -, hlimit, hoverrides, hvalid, hdistinct, -⟩
    exact ⟨hopen, htelegram, hintervals, hlimit, hoverrides, hvalid, hdistinct⟩
  · intro h
    exact ⟨h.openILink, h.telegram, h.intervals, by simp, h.activityLimit, h.overrides,
      h.targets.valid, h.targets.distinct, by simp⟩

/-- The defaults are accepted. -/
theorem accepted_defaultDatabaseConfig : defaultDatabaseConfig.Accepted where
  openILink := rfl
  telegram := rfl
  intervals := by decide
  activityLimit := by decide
  overrides := by simp [Overrides, defaultDatabaseConfig]
  targets := ⟨by simp [defaultDatabaseConfig], by simp [defaultDatabaseConfig]⟩

/-- A single target is accepted as a list when it is valid. -/
theorem validTargets_singleton {t : Target} : ValidTargets [t] ↔ Valid t := by
  constructor
  · intro h
    exact h.valid t (List.mem_singleton_self t)
  · intro h
    exact ⟨by simpa using h, by simp⟩

/-! ### Checks of one part -/

/-- `ValidateTarget` asks for a valid target with an order that is not negative. -/
theorem validateTarget_eq_ok {t : Target} :
    validateTarget t = .ok () ↔ 0 ≤ t.sortOrder ∧ Valid t := by
  have hdefault := accepted_defaultDatabaseConfig
  simp only [validateTarget, checks_eq_ok, check_eq_ok, validateAllowEmptyTargets_eq_ok, Int.not_lt]
  refine and_congr_right fun _ ↦ ?_
  rw [← validTargets_singleton]
  constructor
  · exact fun h ↦ h.targets
  · intro h
    exact ⟨hdefault.openILink, hdefault.telegram, hdefault.intervals, hdefault.activityLimit,
      hdefault.overrides, h⟩

/-- What `ValidateCodex` says about the section. -/
theorem accepted_of_validateCodex {codexConfig : CodexConfig}
    (h : validateCodex codexConfig = .ok ()) :
    { defaultDatabaseConfig with codex := codexConfig }.Accepted := by
  simp only [validateCodex, checks_eq_ok, validateAllowEmptyTargets_eq_ok] at h
  exact h.2.2.2.2.2.2

/-- What `ValidateOpenILink` says about the section. -/
theorem accepted_of_validateOpenILink {openILink : OpenILinkConfig}
    (h : validateOpenILink openILink = .ok ()) :
    validateOpenILinkSection { openILink with enabledSet := true } = .ok () := by
  simp only [validateOpenILink, checks_eq_ok, validateAllowEmptyTargets_eq_ok] at h
  exact h.2.2.openILink

/-- What `ValidateTelegram` says about the section. -/
theorem accepted_of_validateTelegram {telegram : TelegramConfig}
    (h : validateTelegram telegram = .ok ()) :
    validateTelegramSection { telegram with enabledSet := true } = .ok () := by
  simp only [validateTelegram, checks_eq_ok, validateAllowEmptyTargets_eq_ok] at h
  exact h.2.2.2.2.telegram

/-- What `ValidateWeb` says about the section. -/
theorem accepted_of_validateWeb [Net] {web : WebConfig} (h : validateWeb web = .ok ()) :
    0 ≤ web.activityLimit := by
  simp only [validateWeb, checks_eq_ok, validateAllowEmptyTargets_eq_ok] at h
  exact h.2.2.2.activityLimit

end

/-! ### Names -/

variable [NetURL]

/-- The name of a valid target has no white space around it. -/
theorem Valid.trimSpace_name {t : Target} (h : Valid t) : Strings.trimSpace t.name = t.name :=
  Strings.trimSpace_eq_self fun c hmem ↦ (h.plain c hmem).1

end Config

end CodexQueueBot
