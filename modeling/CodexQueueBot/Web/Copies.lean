import CodexQueueBot.Config.Normalization
import CodexQueueBot.Jobs.Listing
import CodexQueueBot.Storage.ReadBack
import CodexQueueBot.Web.Server

/-!
# The copies of the targets

The targets are kept three times: in the rows of the database, in the cached snapshot of the server,
and in the tables of the manager. A handler that changes them passes the manager an operation of the
store as persist function, and the manager takes over what the store has normalised and numbered.

What an operation does to the collection of targets is said twice, for the rows and for the
manager's table, in the same words (`Keeps`); both sides list their targets in the order of distinct
ranks, so that the lists agree as well. The store knows less about names than the manager does: a
clash that it would miss does not get past the manager's check (`Stands.not_missesClash`). So an
edit either goes through everywhere or changes nothing (`Server.editWith_copies`).
-/

set_option autoImplicit false
set_option relaxedAutoImplicit false

namespace CodexQueueBot.Web

open Go Storage Lib

/-! ### Operations on targets -/

/-- The operation is one on targets. -/
def editsTargets : Write → Bool
  | .createTarget _ | .updateTarget _ _ _ | .deleteTarget _ => true
  | _ => false

/-- A target that the operation is given refers to no environment variable. -/
def EnvFree : Write → Prop
  | .createTarget target | .updateTarget _ target _ => target.apiKeyEnv = ""
  | _ => True

/-- The targets after an operation, by those before it and the target that it returns. -/
def Keeps (returned : Option Target) (before : List Target) (target : Target) : Write → Prop
  | .createTarget _ => returned = some target ∨ target ∈ before
  | .updateTarget id _ _ => returned = some target ∨ target ∈ before ∧ target.id ≠ id
  | .deleteTarget id => target ∈ before ∧ target.id ≠ id
  | _ => target ∈ before

/-- The target that an operation returns: it is the given one up to normalisation, with a new
identifier or its own. -/
def Returns (returned : Option Target) (before : List Target) : Write → Prop
  | .createTarget given => ∃ created, returned = some created ∧
      Jobs.Manager.normalizeName created.name = Jobs.Manager.normalizeName given.name ∧
      ∀ other ∈ before, other.id ≠ created.id
  | .updateTarget id given _ => ∃ edited, returned = some edited ∧
      Jobs.Manager.normalizeName edited.name = Jobs.Manager.normalizeName given.name ∧
      edited.id = id
  | _ => returned = none

/-- The limits that the codex section of a configuration asks for. -/
def limitsOf (config : Config) : Jobs.Manager.Limits :=
  ⟨config.keepaliveMin, config.keepaliveMax, config.codex.maxParallel⟩

section

variable [GCM String] [Argon2] [NetURL] [Net] {store : Store} {tables new : Tables}
  {config config' : Config} {op : Write} {returned : Option Target}

omit [GCM String] [Argon2] [NetURL] [Net] in
/-- The manager ignores the white space that normalisation removes. -/
theorem normalizeName_trimSpace (name : String) :
    Jobs.Manager.normalizeName (Strings.trimSpace name) = Jobs.Manager.normalizeName name := by
  rw [Jobs.Manager.normalizeName, Jobs.Manager.normalizeName, Strings.trimSpace_trimSpace]

/-- The targets after an operation on targets. -/
theorem mem_targets_of_commits (h : store.Holds tables config) (h' : store.Holds new config')
    (hcommits : Commits store tables op new returned) (henv : EnvFree op) (target : Target) :
    target ∈ config'.codex.targets ↔ Keeps returned config.codex.targets target op := by
  cases hcommits with
  | createTarget given sortOrder id inserted nonce hvalid horder hinsert =>
    rw [setTargetKey_insertTarget hinsert] at h'
    have hblank : (Config.normalizeTarget given).apiKeyEnv = "" := by
      rw [Config.normalizeTarget_eq, henv, Strings.trimSpace_empty]
    generalize Config.normalizeTarget given = normalized at *
    have hperm := @Store.Holds.perm_insert _ _ _ _ _ _ { normalized with sortOrder } _ _ _ h h'
    have hsame : ({ normalized with sortOrder, id, apiKeyEnv := "" } : Target) =
        { normalized with sortOrder, id } :=
      congrArg (fun apiKeyEnv ↦ ({ normalized with sortOrder, id, apiKeyEnv } : Target)) hblank.symm
    rw [hperm.mem_iff, List.mem_cons, hsame, Keeps, Option.some.injEq]
    exact or_congr_left eq_comm
  | updateTarget id given apiKey row plain edited written nonce hrow hplain hedited hvalid
      hupdate =>
    subst hedited
    obtain ⟨previous, hprevious, hid, edited, hedited, hreturned, targets, hperm, hnew⟩ :=
      readsBack_updateTarget h hrow hplain hupdate h'
    have hblank : edited.apiKeyEnv = "" := by
      rw [hedited, Config.normalizeTarget_eq, henv, Strings.trimSpace_empty]
    have hsame : { edited with apiKeyEnv := "" } = edited :=
      congrArg (fun apiKeyEnv ↦ { edited with apiKeyEnv }) hblank.symm
    have htargets : config'.codex.targets = targets :=
      congrArg (fun snapshot : Snapshot ↦ snapshot.config.codex.targets) hnew
    rw [htargets, hperm.mem_iff, List.mem_map, Keeps, hreturned, Option.some.injEq, hsame]
    constructor
    · rintro ⟨other, hother, heq⟩
      split_ifs at heq with hother'
      · exact Or.inl heq
      · exact Or.inr ⟨heq ▸ hother, heq ▸ hother'⟩
    · rintro (rfl | ⟨hother, hne⟩)
      · exact ⟨previous, hprevious, if_pos hid⟩
      · exact ⟨target, hother, if_neg hne⟩
  | deleteTarget id hfound =>
    rw [(h.perm_delete h').mem_iff, List.mem_filter, decide_eq_true_eq]
    rfl
  | _ =>
    rw [h.targets_same h' rfl]
    rfl

/-- The target that an operation on targets returns. -/
theorem returns_of_commits (h : store.Holds tables config)
    (hcommits : Commits store tables op new returned) :
    Returns returned config.codex.targets op := by
  cases hcommits with
  | createTarget given sortOrder id inserted nonce hvalid horder hinsert =>
    refine ⟨_, rfl, normalizeName_trimSpace given.name, fun other hmem ↦ ?_⟩
    obtain ⟨row, hrow, rfl⟩ := List.mem_map.mp (h.perm_targets.mem_iff.mp hmem)
    obtain ⟨-, hid, -⟩ := Tables.insertTarget_eq_ok.mp hinsert
    rw [targetOf_id, hid]
    exact Int.ne_of_lt (lt_nextTargetID hrow)
  | updateTarget id given apiKey row plain edited written nonce hrow hplain hedited hvalid
      hupdate =>
    rw [hedited, editedTarget_eq]
    exact ⟨_, rfl, normalizeName_trimSpace given.name, rfl⟩
  | _ => rfl

/-- Only the codex section sets the limits. -/
theorem limitsOf_of_commits (h : store.Holds tables config) (h' : store.Holds new config')
    (hcommits : Commits store tables op new returned) (hop : ∀ value, op ≠ .updateCodex value) :
    limitsOf config' = limitsOf config := by
  have hcodex : new.codex = tables.codex := by
    cases hcommits with
    | updateCodex value => exact absurd rfl (hop value)
    | createTarget given sortOrder id inserted nonce hvalid horder hinsert =>
      rw [setTargetKey_insertTarget hinsert]
      rfl
    | updateTarget id given apiKey row plain edited written nonce hrow hplain hedited hvalid
        hupdate =>
      obtain ⟨-, rfl⟩ := Tables.updateTarget_eq_ok.mp hupdate
      rfl
    | _ => rfl
  have heq := h'.codex_eq
  rw [hcodex] at heq
  simp only [limitsOf, Config.keepaliveMin, Config.keepaliveMax]
  rw [heq, h.codex_eq]

/-! ### The order of the rows -/

omit [Argon2] [Net] in
/-- A name that is accepted is normalised by the change of its case. -/
theorem normalizeName_of_mem (h : store.Holds tables config) {target : Target}
    (hmem : target ∈ config.codex.targets) :
    Jobs.Manager.normalizeName target.name = Strings.toLower target.name := by
  have hvalid := h.accepted.targets.valid _ hmem
  have htrimmed := Strings.trimSpace_eq_self fun c hc ↦ (hvalid.plain c hc).1
  exact congrArg Strings.toLower htrimmed

/-! ### Sections of the manager -/

/-- The section of the manager in which the persist function of an operation on targets is
called. -/
def sectionOf (m : Jobs.Manager) (op : Write) (persist : Jobs.Persist) :
    Option (Jobs.Manager × Except Jobs.Manager.Error Unit) :=
  match op with
  | .createTarget target => m.createTarget (some target) persist
  | .updateTarget id target _ => m.updateTarget id target persist
  | .deleteTarget id => m.deleteTarget id persist
  | _ => none

/-- A section gets as far as the call of its persist function. -/
def Calls (m : Jobs.Manager) (op : Write) : Prop :=
  ∃ m₁ message, sectionOf m op (.failed "") = some (m₁, .error (.persist message))

/-- What a persist function leaves that has returned no error. -/
def savedAs : Option Target → Jobs.Persist
  | none => .absent
  | some target => .saved target

variable {m m' : Jobs.Manager} {result : Except Jobs.Manager.Error Unit} {persist : Jobs.Persist}

omit [GCM String] [Argon2] [Net] in
/-- A section that fails leaves the manager as it was. -/
theorem section_failed {error : Jobs.Manager.Error}
    (h : sectionOf m op persist = some (m', .error error)) : m' = m := by
  cases op with
  | createTarget target =>
    change m.createTarget (some target) persist = _ at h
    rcases Jobs.Manager.createTarget_cases h with ⟨heq, -⟩ | ⟨-, -, ⟨hok, -⟩, -⟩
    · exact heq
    · cases hok
  | updateTarget id target apiKey =>
    change m.updateTarget id target persist = _ at h
    rcases Jobs.Manager.updateTarget_cases h with ⟨heq, -⟩ | ⟨-, -, -, -, -, -, -, hok, -⟩
    · exact heq
    · cases hok
  | deleteTarget id =>
    change m.deleteTarget id persist = _ at h
    rcases Jobs.Manager.deleteTarget_cases h with ⟨heq, -⟩ | ⟨-, -, -, hok, -⟩
    · exact heq
    · cases hok
  | _ => cases h

omit [GCM String] [Argon2] [Net] in
/-- A section whose persist function was called and has saved the target goes through. -/
theorem section_saves (h : m.Indexed) (hcalls : Calls m op)
    (hreturns : Returns returned m.listed op)
    (hsection : sectionOf m op (savedAs returned) = some (m', result)) :
    Jobs.Manager.Saves m m' result fun target ↦ Keeps returned m.listed target op := by
  obtain ⟨m₁, message, hcalls⟩ := hcalls
  cases op with
  | createTarget given =>
    obtain ⟨created, rfl, hname, hfresh⟩ := hreturns
    simp only [Keeps, Option.some.injEq, @eq_comm _ created]
    exact h.createTarget_saves hcalls hname hfresh hsection
  | updateTarget id given apiKey =>
    obtain ⟨edited, rfl, hname, hid⟩ := hreturns
    simp only [Keeps, Option.some.injEq, @eq_comm _ edited]
    exact h.updateTarget_saves hcalls hname hid hsection
  | deleteTarget id =>
    obtain rfl : returned = none := hreturns
    exact h.deleteTarget_saves hcalls hsection
  | _ => cases hsection

/-! ### Names -/

omit [GCM String] [Argon2] [Net] in
/-- The check of the manager: no target but the one that is updated has the name. -/
theorem name_free (h : m.Indexed) (hcalls : Calls m op) :
    (∀ given, op = .createTarget given → ∀ target ∈ m.listed,
      Jobs.Manager.normalizeName target.name ≠ Jobs.Manager.normalizeName given.name) ∧
    ∀ id given apiKey, op = .updateTarget id given apiKey → ∀ target ∈ m.listed, target.id ≠ id →
      Jobs.Manager.normalizeName target.name ≠ Jobs.Manager.normalizeName given.name := by
  obtain ⟨m₁, message, hcalls⟩ := hcalls
  constructor
  · rintro given rfl target hmem hname
    have hfree := Jobs.Manager.lookup_of_createTarget_failed hcalls
    rw [← hname, h.lookup_of_mem hmem] at hfree
    cases hfree
  · rintro id given apiKey rfl target hmem hid hname
    obtain ⟨key, -, -, hfree⟩ := Jobs.Manager.calls_of_updateTarget_failed hcalls
    rw [← hname, Jobs.Manager.conflicts, h.lookup_of_mem hmem, Option.any_some,
      decide_eq_false_iff_not] at hfree
    exact hfree hid

/-! ### The copies -/

/-- What holds at any time: the tables hold a configuration, and the manager has an index of its
targets. -/
structure Stands (store : Store) (tables : Tables) (m : Jobs.Manager) (config : Config) : Prop where
  holds : store.Holds tables config
  ids : (tables.targets.map (·.id)).Nodup
  indexed : m.Indexed
  listed : ∀ target, target ∈ m.listed ↔ target ∈ config.codex.targets

omit [Argon2] [Net] in
/-- What stands does so as long as the targets of the manager do. -/
theorem Stands.of_domain (h : Stands store tables m config) (hdomain : m'.domain = m.domain) :
    Stands store tables m' config where
  holds := h.holds
  ids := h.ids
  indexed := h.indexed.of_domain hdomain
  listed target := by
    rw [Jobs.Manager.listed_of_domain hdomain]
    exact h.listed target

omit [Argon2] [Net] in
/-- An operation whose persist function is called misses no clash of names. -/
theorem Stands.not_missesClash (h : Stands store tables m config) (hcalls : Calls m op) :
    ¬ store.MissesClash tables op := by
  have hstored : ∀ row ∈ tables.targets, store.targetOf row ∈ m.listed ∧
      Jobs.Manager.normalizeName row.name = Strings.toLower row.name := by
    intro row hmem
    have htarget : store.targetOf row ∈ config.codex.targets :=
      h.holds.perm_targets.mem_iff.mpr (List.mem_map_of_mem hmem)
    have hplain := normalizeName_of_mem h.holds htarget
    rw [targetOf_name] at hplain
    exact ⟨(h.listed _).mpr htarget, hplain⟩
  obtain ⟨hcreate, hupdate⟩ := name_free h.indexed hcalls
  cases op with
  | createTarget given =>
    rintro ⟨-, -, row, hmem, -, hname⟩
    obtain ⟨hlisted, hplain⟩ := hstored row hmem
    exact hcreate given rfl _ hlisted (hplain.trans hname)
  | updateTarget id given apiKey =>
    rintro ⟨_, _, -, -, -, -, row, hmem, hid, hname⟩
    obtain ⟨hlisted, hplain⟩ := hstored row hmem
    exact hupdate id given apiKey rfl _ hlisted hid (hplain.trans hname)
  | _ => exact id

/-- An operation of the store leaves the tables, or commits and returns their new snapshot. -/
theorem Server.perform_outcome {s s₁ : Server} {answers : List (Answer SQLError)}
    {stored : Except StoreError (Snapshot × Option Target)}
    (hholds : s.configStore.Holds s.tables config) (hids : (s.tables.targets.map (·.id)).Nodup)
    (hclash : ¬ s.configStore.MissesClash s.tables op)
    (hperform : s.perform op answers = some (stored, s₁)) :
    (s₁.tables = s.tables ∧ ∃ error, stored = .error error) ∨
    ∃ config' returned, stored = .ok (s₁.tables.snapshotOf config', returned) ∧
      Commits s.configStore s.tables op s₁.tables returned ∧
      s.configStore.Holds s₁.tables config' ∧ (s₁.tables.targets.map (·.id)).Nodup := by
  obtain ⟨⟨result, tables⟩, hrun, hreturn⟩ := Option.bind_eq_some_iff.mp hperform
  cases hreturn
  have houtcome := write_outcome hrun
  have hintact := intact_iff.mpr ⟨⟨config, hholds⟩, hids⟩
  cases stored with
  | error error =>
    refine Or.inl ⟨?_, error, rfl⟩
    rcases houtcome with hsame | ⟨⟨returned, hcommits⟩, hsnapshot⟩
    · exact hsame
    · obtain ⟨⟨config', hholds'⟩, -⟩ := intact_iff.mp (hintact.commits hcommits hclash)
      rw [snapshot_eq_ok.mpr ⟨config', hholds', rfl⟩] at hsnapshot
      cases hsnapshot
  | ok value =>
    obtain ⟨snapshot, returned⟩ := value
    obtain ⟨hcommits, hsnapshot⟩ := houtcome
    obtain ⟨-, hids'⟩ := intact_iff.mp (hintact.commits hcommits hclash)
    obtain ⟨config', hholds', rfl⟩ := snapshot_eq_ok.mp hsnapshot
    exact Or.inr ⟨config', returned, rfl, hcommits, hholds', hids'⟩

end

/-- The copies of the configuration with the store. -/
structure Copies where
  configStore : Store
  tables : Tables
  jobs : Jobs.System
  configSnapshot : Snapshot

/-- The copies of a server. -/
def Server.copies (s : Server) : Copies where
  configStore := s.configStore
  tables := s.tables
  jobs := s.jobs
  configSnapshot := s.configSnapshot

namespace Copies

variable [GCM String] [NetURL]

/-- The snapshot is that of the tables, and the targets of the manager are in it. -/
def Saved (c : Copies) (snapshot : Snapshot) : Prop :=
  ∃ config, Stands c.configStore c.tables c.jobs.manager config ∧
    snapshot = c.tables.snapshotOf config

/-- The limits of the manager are those of the snapshot as well. -/
def Applied (c : Copies) (snapshot : Snapshot) : Prop :=
  ∃ config, Stands c.configStore c.tables c.jobs.manager config ∧
    snapshot = c.tables.snapshotOf config ∧ c.jobs.manager.limits = limitsOf config

/-- The cached snapshot is that of the tables, and the manager keeps to it. -/
def Settled (c : Copies) : Prop :=
  c.Applied c.configSnapshot

variable {c : Copies} {snapshot : Snapshot}

/-- What the manager keeps to does not depend on more than targets and limits. -/
theorem Applied.of_frame (h : c.Applied snapshot) {jobs : Jobs.System}
    (hframe : jobs.manager.frame = c.jobs.manager.frame) :
    Copies.Applied { c with jobs } snapshot := by
  obtain ⟨config, hstands, hsnapshot, hlimits⟩ := h
  exact ⟨config, hstands.of_domain (Jobs.Manager.domain_of_frame hframe), hsnapshot,
    (Jobs.Manager.limits_of_frame hframe).trans hlimits⟩

end Copies

section

variable [GCM String] [Argon2] [NetURL] [Net] {s s' s₁ : Server} {op : Write}
  {answers : List (Answer SQLError)}

omit [GCM String] [Argon2] [NetURL] [Net] in
/-- Collections of targets are the same after an operation if they were before it. -/
theorem keeps_congr {returned : Option Target} {before before' : List Target} (target : Target)
    (h : ∀ target, target ∈ before ↔ target ∈ before') :
    Keeps returned before target op ↔ Keeps returned before' target op := by
  cases op <;> simp only [Keeps, h]

omit [GCM String] [Argon2] [NetURL] [Net] in
/-- What an operation returns depends on the collection of targets alone. -/
theorem returns_congr {returned : Option Target} {before before' : List Target}
    (h : ∀ target, target ∈ before ↔ target ∈ before') :
    Returns returned before op ↔ Returns returned before' op := by
  cases op <;> simp only [Returns, h]

/-- An operation of the store changes the tables alone. -/
theorem Server.perform_copies {stored : Except StoreError (Snapshot × Option Target)}
    (hperform : s.perform op answers = some (stored, s₁)) :
    s₁.copies = { s.copies with tables := s₁.tables } := by
  obtain ⟨_, -, hreturn⟩ := Option.bind_eq_some_iff.mp hperform
  cases hreturn
  rfl

/-- A section of the manager with an operation on targets as persist function: it is rejected and
all is as before, or the snapshot it returns is the new one of all copies. -/
theorem Server.editWith_copies
    {run : Jobs.Persist → Option (Jobs.System × Except Jobs.Manager.Error Unit)}
    {outcome : Except Rejection Snapshot} (hsettled : s.copies.Settled) (henv : EnvFree op)
    (hedits : editsTargets op = true)
    (hrun : ∀ persist jobs result, run persist = some (jobs, result) →
      sectionOf s.jobs.manager op persist = some (jobs.manager, result))
    (h : s.editWith run op answers = some (s', outcome)) :
    (s'.copies.Settled ∧ ∃ rejection, outcome = .error rejection) ∨
      ∃ snapshot, s'.copies.Applied snapshot ∧ outcome = .ok snapshot := by
  have hkept : ∀ (jobs : Jobs.System) (persist : Jobs.Persist) (error : Jobs.Manager.Error),
      run persist = some (jobs, .error error) → ({ s with jobs } : Server).copies.Settled := by
    intro jobs persist error hfailed
    have hsame : jobs.manager = s.jobs.manager := section_failed (hrun _ _ _ hfailed)
    exact hsettled.of_frame (congrArg Jobs.Manager.frame hsame)
  unfold Server.editWith at h
  split_ifs at h with hcalls
  · obtain ⟨⟨stored, s₁⟩, hperform, h⟩ := Option.bind_eq_some_iff.mp h
    obtain ⟨⟨jobs, result⟩, hsection, h⟩ := Option.bind_eq_some_iff.mp h
    unfold callsPersist at hcalls
    split at hcalls
    · next jobs₀ message hfailed =>
      obtain ⟨config, hstands, hsnapshot, hlimits⟩ := id hsettled
      have hpersist : Calls s.jobs.manager op := ⟨_, _, hrun _ _ _ hfailed⟩
      rcases Server.perform_outcome hstands.holds hstands.ids (hstands.not_missesClash hpersist)
        hperform with ⟨htables, error, rfl⟩ |
          ⟨config', returned, rfl, hcommits, hholds, hids⟩
      · have hsection : run (.failed "") = some (jobs, result) := hsection
        obtain ⟨rfl, rfl⟩ := Prod.mk.inj (Option.some.inj (hsection.symm.trans hfailed))
        cases h
        refine Or.inl ⟨?_, _, rfl⟩
        have hcopies : ({ s₁ with jobs } : Server).copies = ({ s with jobs } : Server).copies := by
          have hsame := Server.perform_copies hperform
          rw [htables] at hsame
          exact congrArg (fun c : Copies ↦ { c with jobs }) hsame
        rw [hcopies]
        exact hkept jobs _ _ hfailed
      · have hstore : s₁.configStore = s.configStore :=
          congrArg Copies.configStore (Server.perform_copies hperform)
        have hreturns := (returns_congr hstands.listed).mpr (returns_of_commits hstands.holds
          hcommits)
        have hsection : run (savedAs returned) = some (jobs, result) := by
          cases returned <;> exact hsection
        obtain ⟨rfl, hindexed, hsame, hlisted⟩ :=
          section_saves hstands.indexed hpersist hreturns (hrun _ _ _ hsection)
        cases h
        refine Or.inr ⟨_, ⟨config', ⟨?_, hids, hindexed, fun target ↦ ?_⟩, rfl, ?_⟩, rfl⟩
        · show s₁.configStore.Holds s₁.tables config'
          rwa [hstore]
        · rw [mem_targets_of_commits hstands.holds hholds hcommits henv,
            ← keeps_congr target hstands.listed]
          exact hlisted target
        · rw [limitsOf_of_commits hstands.holds hholds hcommits ?_, ← hlimits]
          · exact hsame
          · rintro value rfl
            cases hedits
    · cases hcalls
  · obtain ⟨⟨jobs, result⟩, hsection, h⟩ := Option.bind_eq_some_iff.mp h
    cases result with
    | error error =>
      cases h
      exact Or.inl ⟨hkept jobs _ error hsection, _, rfl⟩
    | ok _ => cases h

/-- An operation that is not one on targets: it fails and all is as before, or the snapshot it
returns is the new one, and the limits are still right unless it was for the codex section. -/
theorem Server.perform_settled {stored : Except StoreError (Snapshot × Option Target)}
    (hsettled : s.copies.Settled) (hedits : editsTargets op = false)
    (hperform : s.perform op answers = some (stored, s₁)) :
    (s₁.copies = s.copies ∧ ∃ error, stored = .error error) ∨
      ∃ snapshot returned, stored = .ok (snapshot, returned) ∧ s₁.copies.Saved snapshot ∧
        ((∀ value, op ≠ .updateCodex value) → s₁.copies.Applied snapshot) := by
  obtain ⟨config, hstands, -, hlimits⟩ := hsettled
  have hcopies := Server.perform_copies hperform
  have hclash : ¬ s.configStore.MissesClash s.tables op := by
    cases op <;> first | exact id | cases hedits
  rcases Server.perform_outcome hstands.holds hstands.ids hclash hperform with
    ⟨htables, error, rfl⟩ | ⟨config', returned, rfl, hcommits, hholds, hids⟩
  · rw [htables] at hcopies
    exact Or.inl ⟨hcopies, error, rfl⟩
  · have hstands' : Stands s.configStore s₁.tables s.jobs.manager config' := by
      refine ⟨hholds, hids, hstands.indexed, fun target ↦ ?_⟩
      have henv : EnvFree op := by
        cases op <;> trivial
      rw [mem_targets_of_commits hstands.holds hholds hcommits henv,
        ← keeps_congr target hstands.listed]
      cases op <;> first | exact Iff.rfl | cases hedits
    refine Or.inr ⟨_, returned, rfl, ?_, fun hop ↦ ?_⟩
    · rw [hcopies]
      exact ⟨config', hstands', rfl⟩
    · rw [hcopies]
      exact ⟨config', hstands', rfl, hlimits.trans
        (limitsOf_of_commits hstands.holds hholds hcommits hop).symm⟩

/-! ### Sections of calls -/

omit [GCM String] [Argon2] [Net] in
/-- The section of `CreateTarget`. -/
theorem Server.createSection_section {target : Target} {persist : Jobs.Persist}
    {jobs : Jobs.System} {result : Except Jobs.Manager.Error Unit}
    (h : s.createSection target persist = some (jobs, result)) :
    sectionOf s.jobs.manager (.createTarget target) persist = some (jobs.manager, result) := by
  obtain ⟨⟨m, result⟩, hsection, heq⟩ := Option.map_eq_some_iff.mp h
  cases heq
  exact hsection

/-- The call of the manager for an operation on a target that is there. -/
def kindOf : Write → Option Jobs.EditKind
  | .updateTarget id target _ => some (.update id target)
  | .deleteTarget id => some (.delete id)
  | _ => none

omit [GCM String] [Argon2] [Net] in
/-- The last section of a call of `UpdateTarget` or `DeleteTarget`. -/
theorem Server.editSection_section {proc : ℕ} {kind : Jobs.EditKind} {persist : Jobs.Persist}
    {jobs : Jobs.System} {result : Except Jobs.Manager.Error Unit} (hkind : kindOf op = some kind)
    (hproc : s.jobs.procs[proc]? = some (.edit ⟨kind, .commit⟩))
    (h : s.editSection proc persist = some (jobs, result)) :
    sectionOf s.jobs.manager op persist = some (jobs.manager, result) := by
  obtain ⟨jobs', hstep, h⟩ := Option.bind_eq_some_iff.mp h
  obtain ⟨proc', hproc', rfl | ⟨input, effect, hlabel, heffect, rfl, rfl⟩⟩ :=
    Jobs.System.step_getElem? hstep hproc
  · rw [hproc'] at h
    cases h
  · cases hlabel
    rw [hproc'] at h
    simp only [Jobs.Proc.step, Jobs.EditCall.step, Option.bind_eq_bind] at heffect
    obtain ⟨⟨m, returned⟩, hsection, heffect⟩ := Option.bind_eq_some_iff.mp heffect
    cases heffect
    cases h
    cases op with
    | updateTarget id target apiKey =>
      cases hkind
      exact hsection
    | deleteTarget id =>
      cases hkind
      exact hsection
    | _ => cases hkind

end

end CodexQueueBot.Web
