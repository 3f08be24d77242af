import CodexQueueBot.Jobs.Index
import Mathlib.Data.List.Sort

/-!
# The list of targets

The manager keeps its targets in a table and their keys in an order; `listed` is the list of targets
that this makes. Of an indexed manager the list is determined by the targets that are in it, since
ranks are distinct (`Ranked.eq_of_mem_iff`). So it is enough to know which targets an edit adds and
which it removes, and this module says so for each edit whose persist function has succeeded.

A handler passes a persist function that saves the target it was given, under the same name up to
normalisation. What the section has checked before it calls the function it finds again afterwards:
the edit goes through. That a section gets as far as the call is said by what it returns for a
persist function that fails.
-/

set_option autoImplicit false
set_option relaxedAutoImplicit false

namespace CodexQueueBot.Jobs

open Lib

namespace Manager

/-! ### The list -/

/-- The targets in their order. -/
def listed (m : Manager) : List Target :=
  m.order.map m.target

variable {m m' : Manager} {target : Target}

/-- A target is listed if it is in the table. -/
theorem Tabled.mem_listed (h : m.Tabled) :
    target ∈ m.listed ↔ ∃ key, m.targets.lookup key = some target := by
  constructor
  · intro hmem
    obtain ⟨key, hkey, rfl⟩ := List.mem_map.mp hmem
    obtain ⟨target, hlookup⟩ := Table.exists_lookup_of_mem ((h.order key).mp hkey)
    exact ⟨key, by rw [target_of_lookup hlookup, hlookup]⟩
  · rintro ⟨key, hlookup⟩
    have hkey := (h.order key).mpr (Table.mem_of_lookup hlookup)
    exact List.mem_map.mpr ⟨key, hkey, target_of_lookup hlookup⟩

/-- Managers with the same domain list the same targets. -/
theorem listed_of_domain (hdomain : m'.domain = m.domain) : m'.listed = m.listed := by
  have htargets : m'.targets = m.targets := congrArg Domain.targets hdomain
  have horder : m'.order = m.order := congrArg Domain.order hdomain
  have htarget : m'.target = m.target := by
    funext key
    rw [Manager.target, htargets, ← Manager.target]
  rw [listed, horder, htarget, ← listed]

/-- A key is that of the target in its place. -/
theorem Indexed.lookup_of_mem (h : m.Indexed) (hmem : target ∈ m.listed) :
    m.targets.lookup (normalizeName target.name) = some target := by
  obtain ⟨key, hlookup⟩ := h.tabled.mem_listed.mp hmem
  rwa [← h.labelled.named key target hlookup]

/-! ### Construction -/

/-- `New` takes the limits from its settings. -/
theorem limits_new (settings : Settings) (targets : List Target) :
    (new settings targets).limits =
      ⟨settings.keepaliveMin, settings.keepaliveMax, settings.maxParallel⟩ := by
  have hadd : ∀ (targets : List Target) (m : Manager),
      (targets.foldl addTarget m).limits = m.limits := by
    intro targets
    induction targets with
    | nil => exact fun _ ↦ rfl
    | cons target targets ih => exact fun m ↦ ih _
  exact hadd targets _

/-! ### Edits that are saved -/

/-- The targets that are found elsewhere than under the key of an identifier are those that do not
have it. -/
theorem Indexed.mem_others (h : m.Indexed) {id : Int} {key : String}
    (hkey : m.targetKeyByIDLocked id = some key) :
    (∃ other, other ≠ key ∧ m.targets.lookup other = some target) ↔
      target ∈ m.listed ∧ target.id ≠ id := by
  obtain ⟨current, hcurrent, rfl⟩ := target_of_targetKeyByIDLocked h.tabled hkey
  rw [h.tabled.mem_listed]
  constructor
  · rintro ⟨other, hne, hlookup⟩
    refine ⟨⟨other, hlookup⟩, fun hid ↦ hne ?_⟩
    exact h.labelled.distinct other key target current hlookup hcurrent hid
  · rintro ⟨⟨other, hlookup⟩, hid⟩
    refine ⟨other, ?_, hlookup⟩
    rintro rfl
    rw [hcurrent] at hlookup
    cases hlookup
    exact hid rfl

/-- What an edit leaves that has gone through: the index, the limits, and the targets that it is
about. -/
structure Saves (m m' : Manager) (result : Except Error Unit) (kept : Target → Prop) : Prop where
  ok : result = .ok ()
  indexed : m'.Indexed
  limits : m'.limits = m.limits
  listed : ∀ target, target ∈ m'.listed ↔ kept target

section

variable [Go.NetURL] {given saved : Target} {message message' : String} {result : Except Error Unit}
  {m₁ : Manager} {id : Int}

/-- `CreateTarget` calls its persist function for a name that is free. -/
theorem lookup_of_createTarget_failed
    (hcalls : m.createTarget (some given) (.failed message) =
      some (m₁, .error (.persist message'))) :
    m.targets.lookup (normalizeName given.name) = none := by
  simp only [createTarget] at hcalls
  split_ifs at hcalls with hexists
  · cases hcalls
  · simpa using hexists

/-- A `CreateTarget` that saves the target under its name and a new identifier goes through. -/
theorem Indexed.createTarget_saves (h : m.Indexed)
    (hcalls : m.createTarget (some given) (.failed message) = some (m₁, .error (.persist message')))
    (hname : normalizeName saved.name = normalizeName given.name)
    (hfresh : ∀ target ∈ m.listed, target.id ≠ saved.id)
    (hsection : m.createTarget (some given) (.saved saved) = some (m', result)) :
    Saves m m' result fun target ↦ target = saved ∨ target ∈ m.listed := by
  have hfree := lookup_of_createTarget_failed hcalls
  have hindexed : m'.Indexed := by
    refine h.createTarget ?_ hsection
    intro _ _ hgiven hsaved key existing hlookup
    cases hgiven
    cases hsaved
    exact hfresh existing (h.tabled.mem_listed.mpr ⟨key, hlookup⟩)
  rcases createTarget_cases hsection with ⟨-, error, rfl⟩ |
    ⟨new, -, ⟨rfl, _, hgiven, hsaved⟩, hshown⟩
  · have hopen : ¬ (m.targets.lookup (normalizeName given.name)).isSome = true := by simp [hfree]
    simp only [Manager.createTarget, runPersist, if_neg hopen] at hsection
    rw [← hname] at hopen
    rw [if_neg hopen] at hsection
    obtain ⟨_, -, hsection⟩ := Option.bind_eq_some_iff.mp hsection
    cases hsection
  · cases hgiven
    cases hsaved
    refine ⟨rfl, hindexed, congrArg Prod.snd hshown.frame, fun target ↦ ?_⟩
    have htargets : m'.targets = (m.addTarget saved).targets :=
      congrArg Domain.targets hshown.domain
    have hnew : normalizeName saved.name ∉ m.targets := by
      rw [hname]
      exact AList.lookup_eq_none.mp hfree
    rw [hindexed.tabled.mem_listed, htargets, h.tabled.mem_listed, Manager.addTarget, addRecords,
      Table.exists_lookup_insert, Table.exists_lookup_ne hnew]

/-- `UpdateTarget` calls its persist function for an idle target and a name without conflict. -/
theorem calls_of_updateTarget_failed
    (hcalls : m.updateTarget id given (.failed message) =
      some (m₁, .error (.persist message'))) :
    ∃ key, m.targetKeyByIDLocked id = some key ∧ m.targetBusyLocked key = some false ∧
      m.conflicts (normalizeName given.name) id = false := by
  unfold updateTarget at hcalls
  cases hkey : m.targetKeyByIDLocked id with
  | none =>
    simp only [hkey] at hcalls
    cases hcalls
  | some key =>
    simp only [hkey, Option.bind_eq_bind, Option.bind_eq_some_iff, Option.pure_def] at hcalls
    obtain ⟨busy, hbusy, hcalls⟩ := hcalls
    split_ifs at hcalls with hidle hconflict
    · cases hcalls
    · cases hcalls
    · rw [Bool.not_eq_true] at hidle hconflict
      exact ⟨key, rfl, hidle ▸ hbusy, hconflict⟩

/-- The last section of an `UpdateTarget` that saves the target under its name and identifier goes
through. -/
theorem Indexed.updateTarget_saves (h : m.Indexed)
    (hcalls : m.updateTarget id given (.failed message) = some (m₁, .error (.persist message')))
    (hname : normalizeName saved.name = normalizeName given.name) (hid : saved.id = id)
    (hsection : m.updateTarget id given (.saved saved) = some (m', result)) :
    Saves m m' result fun target ↦ target = saved ∨ target ∈ m.listed ∧ target.id ≠ id := by
  obtain ⟨key, hkey, hidle, hfree⟩ := calls_of_updateTarget_failed hcalls
  have hindexed : m'.Indexed := by
    refine h.updateTarget ?_ hsection
    intro _ hsaved
    cases hsaved
    exact hid
  rcases updateTarget_cases hsection with ⟨-, error, rfl⟩ |
    ⟨oldKey, _, moved, hold, -, hconflict, hsaved, rfl, hmove, hshown⟩
  · simp only [Manager.updateTarget, hkey, hidle, runPersist, hname, hfree, Bool.false_eq_true,
      if_false, Option.bind_eq_bind, Option.bind_some, Option.pure_def] at hsection
    obtain ⟨_, -, hsection⟩ := Option.bind_eq_some_iff.mp hsection
    obtain ⟨_, -, hsection⟩ := Option.bind_eq_some_iff.mp hsection
    cases hsection
  · cases hsaved
    obtain rfl : key = oldKey := Option.some.inj (hkey.symm.trans hold)
    have hothers := h.tabled.eq_or_free (h.labelled.identifies id) hkey hconflict
    have htargets : m'.targets = moved.targets.insert (normalizeName saved.name) saved :=
      congrArg Domain.targets hshown.domain
    have hlimits : m'.limits = moved.limits := congrArg Prod.snd hshown.frame
    rcases hmove with ⟨hsame, rfl⟩ | ⟨hne, hrename⟩
    · refine ⟨rfl, hindexed, hlimits, fun target ↦ ?_⟩
      rw [hindexed.tabled.mem_listed, htargets, Table.exists_lookup_insert, hsame,
        h.mem_others hkey]
    · obtain ⟨_, _, _, -, -, -, rfl⟩ := renameTarget_cases hrename
      refine ⟨rfl, hindexed, hlimits, fun target ↦ ?_⟩
      have hfree : normalizeName saved.name ∉ m.targets.erase key := by
        rw [AList.mem_erase]
        exact fun hmem ↦ hothers.resolve_left hne hmem.2
      rw [hindexed.tabled.mem_listed, htargets, Table.exists_lookup_insert,
        Table.exists_lookup_ne hfree, Table.exists_lookup_erase, h.mem_others hkey]

/-- The last section of a `DeleteTarget` whose persist function succeeds goes through. -/
theorem Indexed.deleteTarget_saves (h : m.Indexed)
    (hcalls : m.deleteTarget id (.failed message) = some (m₁, .error (.persist message')))
    (hsection : m.deleteTarget id .absent = some (m', result)) :
    Saves m m' result fun target ↦ target ∈ m.listed ∧ target.id ≠ id := by
  have hindexed := h.deleteTarget hsection
  rcases deleteTarget_cases hsection with ⟨-, error, rfl⟩ | ⟨key, hkey, -, rfl, hshown⟩
  · unfold Manager.deleteTarget at hcalls hsection
    cases hkey : m.targetKeyByIDLocked id with
    | none =>
      rw [hkey] at hcalls
      cases hcalls
    | some key =>
      simp only [hkey, Option.bind_eq_bind, Option.pure_def] at hcalls hsection
      obtain ⟨busy, hbusy, hcalls⟩ := Option.bind_eq_some_iff.mp hcalls
      obtain ⟨_, hagain, hsection⟩ := Option.bind_eq_some_iff.mp hsection
      obtain rfl := Option.some.inj (hbusy.symm.trans hagain)
      split_ifs at hcalls hsection
      · cases hcalls
      · obtain ⟨_, -, hsection⟩ := Option.bind_eq_some_iff.mp hsection
        cases hsection
  · have htargets : m'.targets = m.targets.erase key := congrArg Domain.targets hshown.domain
    refine ⟨rfl, hindexed, congrArg Prod.snd hshown.frame, fun target ↦ ?_⟩
    rw [hindexed.tabled.mem_listed, htargets, Table.exists_lookup_erase, h.mem_others hkey]

end

end Manager

end CodexQueueBot.Jobs
