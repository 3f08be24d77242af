import CodexQueueBot.Config.Validity
import CodexQueueBot.Jobs.Tables

/-!
# Names of targets in commands

Validation reserves names, and forbids characters in them, so that a command can name every target.
`resolveLocked` decides what a name in a command stands for. The two agree on every accepted list of
targets except for the name `*`: `resolveLocked` takes it for all targets, and validation does not
reserve it. `addresses_iff` says that every other target is what its name stands for, in any
spelling, and that a target named `*` is so only when it is alone (`star_addresses_all`).
-/

set_option autoImplicit false
set_option relaxedAutoImplicit false

namespace CodexQueueBot.Jobs

open Go Lib

/-- A spelling of a name: up to white space around it and to case. -/
def Spells (spelling name : String) : Prop :=
  Strings.toLower (Strings.trimSpace spelling) = Strings.toLower name

instance (spelling name : String) : Decidable (Spells spelling name) :=
  inferInstanceAs (Decidable (_ = _))

namespace Manager

variable {m : Manager} {key : String} {targets : List Target}

/-! ### The targets of a new manager -/

/-- Targets that are added are listed in their order. -/
theorem order_foldl_addTarget (m : Manager) (targets : List Target) :
    (targets.foldl addTarget m).order =
      m.order ++ targets.map fun target ↦ normalizeName target.name := by
  induction targets generalizing m with
  | nil => simp
  | cons target targets ih =>
    rw [List.foldl_cons, ih, List.map_cons, ← List.singleton_append, ← List.append_assoc]
    rfl

/-- The keys of a new manager are the normalised names of its targets, in their order. -/
theorem order_new (settings : Settings) (targets : List Target) :
    (new settings targets).order = targets.map fun target ↦ normalizeName target.name := by
  unfold new
  rw [order_foldl_addTarget]
  rfl

/-! ### Resolving one name -/

/-- One name that is a key and does not stand for all targets is resolved to that key. -/
theorem resolveLocked_singleton {name : String} (hall : containsAll [name] = false)
    (hname : normalizeName name = key) (hne : key ≠ "") (hkey : key ∈ m.targets) :
    m.resolveLocked [name] = ([key], []) := by
  obtain ⟨target, hlookup⟩ := Table.exists_lookup_of_mem hkey
  subst hname
  unfold resolveLocked
  rw [hall]
  simp [resolveName, hne, hlookup]

/-- A name that stands for all targets is resolved to all keys. -/
theorem resolveLocked_of_containsAll {names : List String} (hall : containsAll names = true) :
    m.resolveLocked names = (m.order, []) := by
  unfold resolveLocked
  rw [hall, Bool.or_true]
  rfl

/-! ### Resolving lists of names -/

/-- A list of names that stands for all targets. -/
def MeansAll (names : List String) : Prop :=
  names = [] ∨ containsAll names = true

instance (names : List String) : Decidable (MeansAll names) :=
  inferInstanceAs (Decidable (_ ∨ _))

/-- A key that is not blank and has a spelling among the names. -/
def Mentions (names : List String) (key : String) : Prop :=
  key ≠ "" ∧ ∃ name ∈ names, normalizeName name = key

/-- One more name mentions one more key, unless it is blank. -/
theorem mentions_append {names : List String} {name : String} :
    Mentions (names ++ [name]) key ↔
      Mentions names key ∨ key ≠ "" ∧ key = normalizeName name := by
  unfold Mentions
  rw [← and_or_left]
  refine and_congr_right fun _ ↦ ?_
  simp only [List.mem_append, List.mem_singleton, or_and_right, exists_or, exists_eq_left]
  exact or_congr_right eq_comm

/-- What the loop of `resolveLocked` has found in a list of names: each key that is mentioned, once,
as a key or as an unknown name. -/
structure Resolved (m : Manager) (names : List String)
    (found : List String × List String × List String) : Prop where
  seen : ∀ key, key ∈ found.1 ↔ Mentions names key
  keys : ∀ key, key ∈ found.2.1 ↔ Mentions names key ∧ key ∈ m.targets
  missing : ∀ key, key ∈ found.2.2.map normalizeName ↔ Mentions names key ∧ key ∉ m.targets
  nodup : (found.2.1 ++ found.2.2.map normalizeName).Nodup
  unknown : ∀ name ∈ found.2.2, name ∈ names

/-- A round of the loop that finds nothing new. -/
theorem Resolved.skip {names : List String} {name : String}
    {found : List String × List String × List String} (h : m.Resolved names found)
    (hold : normalizeName name ≠ "" → Mentions names (normalizeName name)) :
    m.Resolved (names ++ [name]) found := by
  have hsame : ∀ key, Mentions (names ++ [name]) key ↔ Mentions names key := by
    intro key
    rw [mentions_append]
    refine or_iff_left_of_imp ?_
    rintro ⟨hne, rfl⟩
    exact hold hne
  refine ⟨fun key ↦ ?_, fun key ↦ ?_, fun key ↦ ?_, h.nodup, fun other hother ↦ ?_⟩
  · rw [hsame, h.seen]
  · rw [hsame, h.keys]
  · rw [hsame, h.missing]
  · exact List.mem_append_left _ (h.unknown other hother)

/-- A round of the loop of `resolveLocked`. -/
theorem Resolved.resolveName {names : List String}
    {found : List String × List String × List String} (h : m.Resolved names found)
    (name : String) : m.Resolved (names ++ [name]) (m.resolveName found name) := by
  obtain ⟨seen, keys, unknown⟩ := found
  unfold Manager.resolveName
  dsimp only
  by_cases hblank : normalizeName name = ""
  · rw [if_pos hblank]
    exact h.skip fun hne ↦ absurd hblank hne
  rw [if_neg hblank]
  by_cases hseen : seen.contains (normalizeName name) = true
  · rw [if_pos hseen]
    exact h.skip fun _ ↦ (h.seen _).mp (List.contains_iff_mem.mp hseen)
  rw [if_neg hseen]
  have hnew : ¬ Mentions names (normalizeName name) := fun hmentions ↦
    hseen (List.contains_iff_mem.mpr ((h.seen _).mpr hmentions))
  have hfresh : normalizeName name ∉ keys ++ unknown.map normalizeName := by
    rw [List.mem_append, h.keys, h.missing]
    rintro (⟨hmentions, -⟩ | ⟨hmentions, -⟩) <;> exact hnew hmentions
  have hmentions : ∀ key, Mentions (names ++ [name]) key ↔
      Mentions names key ∨ key = normalizeName name := by
    intro key
    rw [mentions_append]
    refine or_congr_right (and_iff_right_of_imp ?_)
    rintro rfl
    exact hblank
  have hseen' : ∀ key, key ∈ normalizeName name :: seen ↔ Mentions (names ++ [name]) key := by
    intro key
    rw [List.mem_cons, h.seen, hmentions, or_comm]
  by_cases hmissing : (m.targets.lookup (normalizeName name)).isNone = true
  · have hnone : normalizeName name ∉ m.targets :=
      AList.lookup_eq_none.mp (Option.isNone_iff_eq_none.mp hmissing)
    rw [if_pos hmissing]
    refine ⟨hseen', fun key ↦ ?_, fun key ↦ ?_, ?_, fun other hother ↦ ?_⟩
    · rw [h.keys, hmentions, or_and_right]
      refine (or_iff_left ?_).symm
      rintro ⟨rfl, hmem⟩
      exact hnone hmem
    · rw [List.map_append, List.mem_append, List.map_singleton, List.mem_singleton, h.missing,
        hmentions, or_and_right]
      refine or_congr_right (and_iff_left_of_imp ?_).symm
      rintro rfl
      exact hnone
    · rw [List.map_append, List.map_singleton, ← List.append_assoc]
      exact h.nodup.append (List.nodup_singleton _) (List.disjoint_singleton.mpr hfresh)
    · rw [List.mem_append] at hother ⊢
      exact hother.imp_left (h.unknown other)
  · have hmem : normalizeName name ∈ m.targets := by
      rwa [Option.isNone_iff_eq_none, AList.lookup_eq_none, not_not] at hmissing
    rw [if_neg hmissing]
    refine ⟨hseen', fun key ↦ ?_, fun key ↦ ?_, ?_, fun other hother ↦ ?_⟩
    · rw [List.mem_append, List.mem_singleton, h.keys, hmentions, or_and_right]
      refine or_congr_right (and_iff_left_of_imp ?_).symm
      rintro rfl
      exact hmem
    · rw [h.missing, hmentions, or_and_right]
      refine (or_iff_left ?_).symm
      rintro ⟨rfl, hnone⟩
      exact hnone hmem
    · have hperm : ((keys ++ [normalizeName name]) ++ unknown.map normalizeName).Perm
          (normalizeName name :: (keys ++ unknown.map normalizeName)) := by
        rw [List.append_assoc, List.singleton_append]
        exact List.perm_middle
      exact hperm.nodup_iff.mpr (List.nodup_cons.mpr ⟨hfresh, h.nodup⟩)
    · exact List.mem_append_left _ (h.unknown other hother)

/-- What the loop of `resolveLocked` finds. -/
theorem resolved_foldl (m : Manager) (names : List String) :
    m.Resolved names (names.foldl m.resolveName ([], [], [])) := by
  induction names using List.reverseRecOn with
  | nil =>
    refine ⟨fun key ↦ ?_, fun key ↦ ?_, fun key ↦ ?_, List.nodup_nil, ?_⟩ <;> simp [Mentions]
  | append_singleton names name ih =>
    rw [List.foldl_append, List.foldl_cons, List.foldl_nil]
    exact ih.resolveName name

/-- Names that do not stand for all targets are resolved one by one. -/
theorem resolveLocked_of_not_meansAll {names : List String} (h : ¬ MeansAll names) :
    m.resolveLocked names = (names.foldl m.resolveName ([], [], [])).2 := by
  rw [MeansAll, not_or] at h
  unfold resolveLocked
  rw [if_neg]
  simpa [List.isEmpty_iff, h.1] using h.2

/-- Names that stand for all targets are resolved to all keys. -/
theorem resolveLocked_of_meansAll {names : List String} (h : MeansAll names) :
    m.resolveLocked names = (m.order, []) := by
  rcases h with rfl | hall
  · rfl
  · exact resolveLocked_of_containsAll hall

/-! ### Accepted names -/

variable [NetURL]

/-- The key of a valid target is its name in lower case. -/
theorem normalizeName_of_valid {t : Target} (h : Config.Valid t) :
    normalizeName t.name = Strings.toLower t.name := by
  unfold normalizeName
  rw [h.trimSpace_name]

/-- The name of a valid target stands for all targets exactly when it is `*`. -/
theorem containsAll_of_valid {t : Target} (h : Config.Valid t) {spelling : String}
    (hspells : Spells spelling t.name) : containsAll [spelling] = true ↔ t.name = "*" := by
  unfold containsAll normalizeName
  rw [List.any_cons, List.any_nil, Bool.or_false, show Strings.toLower (Strings.trimSpace spelling)
    = Strings.toLower t.name from hspells]
  simp only [List.contains_iff_mem, List.mem_cons, List.not_mem_nil, or_false, h.unreserved.1,
    h.unreserved.2, false_or]
  constructor
  · intro hstar
    exact Strings.eq_of_toLower_singleton (d := '*') hstar (by decide) (by decide)
  · intro hstar
    rw [hstar]
    decide

/-- Which targets of an accepted list are what their names stand for, in every spelling and nothing
else: all of them but one named `*` among others. -/
theorem addresses_iff (settings : Settings) {c : Config}
    (haccepted : c.validateAllowEmptyTargets = .ok ()) {t : Target} (hmem : t ∈ c.codex.targets) :
    (∀ spelling, Spells spelling t.name →
      (new settings c.codex.targets).resolveLocked [spelling] = ([normalizeName t.name], [])) ↔
    (t.name ≠ "*" ∨ c.codex.targets = [t]) := by
  have htargets := (Config.validateAllowEmptyTargets_eq_ok.mp haccepted).targets
  have hvalid := htargets.valid t hmem
  have hnormal := normalizeName_of_valid hvalid
  have hnames : (c.codex.targets.map fun target ↦ normalizeName target.name).Nodup := by
    rw [List.map_congr_left fun target hmem ↦ normalizeName_of_valid (htargets.valid target hmem)]
    exact htargets.distinct
  have hkey : normalizeName t.name ∈ (new settings c.codex.targets).targets := by
    rw [← (tabled_new settings hnames).order, order_new]
    exact List.mem_map_of_mem hmem
  have hself : Spells t.name t.name := hnormal
  by_cases hstar : t.name = "*"
  · have hall := (containsAll_of_valid hvalid hself).mpr hstar
    rw [iff_comm, or_iff_right (not_not.mpr hstar)]
    constructor
    · intro hlist spelling hspells
      rw [resolveLocked_of_containsAll ((containsAll_of_valid hvalid hspells).mpr hstar), order_new,
        hlist]
      rfl
    · intro hresolved
      have horder := hresolved t.name hself
      rw [resolveLocked_of_containsAll hall, order_new, Prod.mk.injEq,
        List.map_eq_singleton_iff] at horder
      obtain ⟨⟨only, hlist, -⟩, -⟩ := horder
      rw [hlist, List.mem_singleton] at hmem
      rw [hlist, hmem]
  · refine iff_of_true (fun spelling hspells ↦ ?_) (Or.inl hstar)
    refine resolveLocked_singleton ?_ (hspells.trans hnormal.symm) ?_ hkey
    · rw [← Bool.not_eq_true, containsAll_of_valid hvalid hspells]
      exact hstar
    · rw [hnormal, Ne, Strings.toLower_eq_empty_iff]
      exact hvalid.named

omit [NetURL] in
/-- A configuration with targets of given names. -/
def named (names : List String) : Config :=
  { Config.defaultDatabaseConfig with
    codex := { Config.defaultDatabaseConfig.codex with
      targets := names.map fun name ↦
        { Target.zero with
          name
          apiBaseURL := "http://127.0.0.1"
          apiKey := "k"
          model := "m"
          wireAPI := "responses" } } }

omit [NetURL] in
/-- Settings for a manager. -/
def someSettings : Settings :=
  ⟨true, none, 1, 2, 1, "ok"⟩

omit [NetURL] in
/-- A target named `Äb` is what its name stands for in small letters and after a blank. -/
theorem addresses_umlaut :
    (new someSettings (named ["a", "Äb"]).codex.targets).resolveLocked [" äB "] = (["äb"], []) := by
  have hresolved := (@addresses_iff Config.hostOnly someSettings (named ["a", "Äb"])
    (by decide +kernel) _ (List.mem_cons_of_mem _ List.mem_cons_self)).mpr
      (Or.inl (by decide +kernel)) " äB " (by decide +kernel)
  rw [hresolved]
  decide +kernel

omit [NetURL] in
/-- A target named `*` is accepted next to another one, and its name stands for both. -/
theorem star_addresses_all :
    @Config.validateAllowEmptyTargets Config.hostOnly (named ["a", "*"]) = .ok () ∧
      (new someSettings (named ["a", "*"]).codex.targets).resolveLocked ["*"] = (["a", "*"], []) ∧
        normalizeName "*" = "*" := by
  decide +kernel

end Manager

end CodexQueueBot.Jobs
