import CodexQueueBot.Jobs.Quiescence
import Mathlib.Data.Prod.Lex
import Mathlib.Data.String.Basic

/-!
# The index of targets

The key of a target is its normalised name, identifiers are distinct, and the order of the manager
is the order by `SortOrder` and identifier: `Indexed` adds these facts to the shape of the tables.
The manager checks names itself; for identifiers it relies on the persist functions, which give a
created target a new identifier and an updated one its own. `Promised` states that, and under it
every run from `New` on an ordered list of targets keeps the index. It also keeps the records of
every target on which a worker or an ad-hoc request is alive, so that none of their lookups fails.
-/

set_option autoImplicit false
set_option relaxedAutoImplicit false

namespace CodexQueueBot

/-- What targets are ordered by. -/
def Target.rank (target : Target) : ℤ ×ₗ ℤ :=
  toLex (target.sortOrder, target.id)

end CodexQueueBot

namespace CodexQueueBot.Jobs

open Lib

namespace Manager

/-! ### The sort -/

/-- What `sortTargetsLocked` compares: the rank, and then the name. -/
def sortKey (target : Target) : ℤ ×ₗ ℤ ×ₗ String :=
  toLex (target.sortOrder, toLex (target.id, Go.Strings.toLower target.name))

/-- The comparison of `sortTargetsLocked` is that of the sort keys. -/
theorem targetLess_iff (left right : Target) :
    targetLess left right ↔ sortKey left < sortKey right := by
  simp only [targetLess, sortKey, Prod.Lex.toLex_lt_toLex]
  split_ifs with horder hid
  · tauto
  · rw [not_not] at horder
    simp [horder, hid]
  · rw [not_not] at horder hid
    simp [horder, hid]

/-- Sort keys in order have ranks in order. -/
theorem rank_le_of_sortKey_le {left right : Target} (h : sortKey left ≤ sortKey right) :
    left.rank ≤ right.rank := by
  simp only [Target.rank, sortKey, Prod.Lex.toLex_le_toLex] at h ⊢
  rcases h with horder | ⟨horder, hid | ⟨hid, -⟩⟩
  · exact Or.inl horder
  · exact Or.inr ⟨horder, hid.le⟩
  · exact Or.inr ⟨horder, hid.le⟩

/-- The order after `sortTargetsLocked` is that of the ranks. -/
theorem pairwise_sortTargetsLocked (m : Manager) :
    m.sortTargetsLocked.order.Pairwise fun left right ↦
      (m.target left).rank ≤ (m.target right).rank := by
  have hiff : ∀ left right : String, ¬ targetLess (m.target right) (m.target left) ↔
      sortKey (m.target left) ≤ sortKey (m.target right) := by
    intro left right
    rw [targetLess_iff, not_lt]
  have : Std.Total fun left right : String ↦ ¬ targetLess (m.target right) (m.target left) :=
    ⟨fun left right ↦ by simpa only [hiff] using le_total _ _⟩
  have : IsTrans String fun left right ↦ ¬ targetLess (m.target right) (m.target left) :=
    ⟨fun left middle right ↦ by simpa only [hiff] using le_trans⟩
  refine (List.pairwise_insertionSort _ m.order).imp ?_
  intro left right hle
  exact rank_le_of_sortKey_le ((hiff left right).mp hle)

/-! ### Labels -/

/-- Keys are normalised names, and identifiers are distinct. -/
structure Labelled (targets : Table String Target) : Prop where
  named : ∀ (key : String) (target : Target), targets.lookup key = some target →
    key = normalizeName target.name
  distinct : ∀ (key other : String) (target otherTarget : Target),
    targets.lookup key = some target → targets.lookup other = some otherTarget →
    target.id = otherTarget.id → key = other

/-- A target whose identifier no other key has is labelled. -/
theorem Labelled.insert {targets : Table String Target} (h : Labelled targets) {key : String}
    {target : Target} (hname : key = normalizeName target.name)
    (hfresh : ∀ (other : String) (existing : Target), other ≠ key →
      targets.lookup other = some existing → existing.id ≠ target.id) :
    Labelled (targets.insert key target) where
  named := by
    intro other existing hlookup
    rw [Table.lookup_insert_apply] at hlookup
    split_ifs at hlookup with heq
    · cases hlookup
      exact heq.trans hname
    · exact h.named other existing hlookup
  distinct := by
    intro first second left right hleft hright hid
    rw [Table.lookup_insert_apply] at hleft hright
    split_ifs at hleft hright with hfirst hsecond hsecond
    · exact hfirst.trans hsecond.symm
    · cases hleft
      exact absurd hid.symm (hfresh second right hsecond hright)
    · cases hright
      exact absurd hid (hfresh first left hfirst hleft)
    · exact h.distinct first second left right hleft hright hid

/-- A removed target takes its label along. -/
theorem Labelled.erase {targets : Table String Target} (h : Labelled targets) (key : String) :
    Labelled (targets.erase key) where
  named := by
    intro other existing hlookup
    rw [Table.lookup_erase_apply] at hlookup
    split_ifs at hlookup
    exact h.named other existing hlookup
  distinct := by
    intro first second left right hleft hright hid
    rw [Table.lookup_erase_apply] at hleft hright
    split_ifs at hleft hright
    exact h.distinct first second left right hleft hright hid

/-! ### The index -/

/-- The tables are in shape, keys are normalised names, identifiers are distinct, and the order is
that of the ranks. -/
structure Indexed (m : Manager) : Prop where
  tabled : m.Tabled
  labelled : Labelled m.targets
  sorted : m.order.Pairwise fun left right ↦ (m.target left).rank ≤ (m.target right).rank

variable {m m' : Manager} {key : String}

/-- Managers with the same domain have the same index. -/
theorem Indexed.of_domain (h : m.Indexed) (hdomain : m'.domain = m.domain) : m'.Indexed := by
  have htargets : m'.targets = m.targets := congrArg Domain.targets hdomain
  have horder : m'.order = m.order := congrArg Domain.order hdomain
  refine ⟨h.tabled.of_domain hdomain, ?_, ?_⟩
  · rw [htargets]
    exact h.labelled
  · simp only [horder, Manager.target, htargets]
    exact h.sorted

/-- Identifiers that are distinct are those of one target each. -/
theorem Labelled.identifies (h : Labelled m.targets) (id : Int) : m.Identifies id := by
  intro first second left right hleft hright hfirst hsecond
  exact h.distinct first second left right hleft hright (hfirst.trans hsecond.symm)

/-- Tables in shape are indexed after a sort, if they are labelled. -/
theorem Tabled.indexed (h : m.Tabled) (hlabelled : Labelled m.targets) :
    m.sortTargetsLocked.Indexed :=
  ⟨h.sortTargetsLocked, hlabelled, pairwise_sortTargetsLocked m⟩

/-! ### Construction -/

/-- The data of a target whose key is found. -/
theorem target_of_lookup {target : Target} (h : m.targets.lookup key = some target) :
    m.target key = target := by
  rw [Manager.target, h]
  rfl

/-- A target that is last in rank extends the index. -/
theorem Indexed.addTarget (h : m.Indexed) {target : Target}
    (hfree : normalizeName target.name ∉ m.targets)
    (hfresh : ∀ (other : String) (existing : Target), m.targets.lookup other = some existing →
      existing.id ≠ target.id ∧ existing.rank ≤ target.rank) : (m.addTarget target).Indexed := by
  unfold Manager.addTarget
  have hlabelled : Labelled (m.targets.insert (normalizeName target.name) target) :=
    h.labelled.insert rfl fun other existing _ hlookup ↦ (hfresh other existing hlookup).1
  generalize normalizeName target.name = key at hfree hlabelled ⊢
  refine ⟨h.tabled.addRecords hfree target, hlabelled, ?_⟩
  have hkept : ∀ other ∈ m.order, (m.addRecords key target).target other = m.target other := by
    intro other hmem
    have hne : other ≠ key := by
      rintro rfl
      exact hfree ((h.tabled.order _).mp hmem)
    simp only [Manager.target, addRecords, AList.lookup_insert_ne hne]
  have hlast : (m.addRecords key target).target key = target :=
    target_of_lookup (AList.lookup_insert _)
  refine List.pairwise_append.mpr ⟨?_, List.pairwise_singleton _ _, ?_⟩
  · refine h.sorted.imp_of_mem ?_
    intro left right hleft hright hle
    rwa [hkept left hleft, hkept right hright]
  · intro other hmem new hnew
    rw [List.mem_singleton.mp hnew, hkept other hmem, hlast]
    obtain ⟨existing, hexisting⟩ := Table.exists_lookup_of_mem ((h.tabled.order other).mp hmem)
    rw [target_of_lookup hexisting]
    exact (hfresh other existing hexisting).2

/-- Targets added in order extend the index. -/
theorem indexed_foldl_addTarget {targets : List Target} (h : m.Indexed)
    (hnames : (targets.map fun target ↦ normalizeName target.name).Nodup)
    (hids : (targets.map (·.id)).Nodup)
    (hsorted : targets.Pairwise fun left right ↦ left.rank ≤ right.rank)
    (hfree : ∀ target ∈ targets, normalizeName target.name ∉ m.targets)
    (hfresh : ∀ target ∈ targets, ∀ (other : String) (existing : Target),
      m.targets.lookup other = some existing →
      existing.id ≠ target.id ∧ existing.rank ≤ target.rank) :
    (targets.foldl Manager.addTarget m).Indexed := by
  induction targets generalizing m with
  | nil => exact h
  | cons target targets ih =>
    rw [List.map_cons, List.nodup_cons] at hnames hids
    rw [List.pairwise_cons] at hsorted
    refine ih (h.addTarget (hfree target List.mem_cons_self) (hfresh target List.mem_cons_self))
      hnames.2 hids.2 hsorted.2 ?_ ?_
    · intro other hother
      rw [Manager.addTarget, addRecords, AList.mem_insert, not_or]
      refine ⟨?_, hfree other (List.mem_cons_of_mem _ hother)⟩
      intro heq
      exact hnames.1 (heq ▸ List.mem_map_of_mem hother)
    · intro other hother key existing hlookup
      rw [Manager.addTarget, addRecords, Table.lookup_insert_apply] at hlookup
      split_ifs at hlookup
      · cases hlookup
        refine ⟨?_, hsorted.1 other hother⟩
        intro heq
        exact hids.1 (heq ▸ List.mem_map_of_mem hother)
      · exact hfresh other (List.mem_cons_of_mem _ hother) key existing hlookup

/-- `New` makes an index of an ordered list of targets with distinct names and identifiers. -/
theorem indexed_new (settings : Settings) {targets : List Target}
    (hnames : (targets.map fun target ↦ normalizeName target.name).Nodup)
    (hids : (targets.map (·.id)).Nodup)
    (hsorted : targets.Pairwise fun left right ↦ left.rank ≤ right.rank) :
    (new settings targets).Indexed := by
  have hempty : (new settings []).Indexed := by
    refine ⟨tabled_new settings List.nodup_nil, ⟨?_, ?_⟩, List.Pairwise.nil⟩
    · intro key target hlookup
      cases hlookup
    · intro first second left right hlookup
      cases hlookup
  refine indexed_foldl_addTarget hempty hnames hids hsorted (fun _ _ ↦ AList.notMem_empty _) ?_
  intro target _ other existing hlookup
  cases hlookup

/-! ### Edits -/

section

variable [Go.NetURL]

/-- Assumes: a created target has a new identifier. `CreateTarget` keeps the index. -/
theorem Indexed.createTarget (h : m.Indexed) {target : Option Target} {persist : Persist}
    {result : Except Error Unit}
    (hfresh : ∀ given saved, target = some given → runPersist given persist = .ok saved →
      ∀ (key : String) (existing : Target), m.targets.lookup key = some existing →
        existing.id ≠ saved.id)
    (hsection : m.createTarget target persist = some (m', result)) : m'.Indexed := by
  rcases createTarget_cases hsection with ⟨rfl, -⟩ |
    ⟨saved, hfree, ⟨-, given, hgiven, hpersist⟩, hshown⟩
  · exact h
  · have hlabelled : Labelled (m.targets.insert (normalizeName saved.name) saved) :=
      h.labelled.insert rfl fun other existing _ hlookup ↦
        hfresh given saved hgiven hpersist other existing hlookup
    have htabled := h.tabled.addRecords (AList.lookup_eq_none.mp hfree) saved
    exact (htabled.indexed hlabelled).of_domain hshown.domain

/-- Assumes: an updated target keeps its identifier. The last section of `UpdateTarget` keeps the
index. -/
theorem Indexed.updateTarget (h : m.Indexed) {id : Int} {target : Target} {persist : Persist}
    {result : Except Error Unit}
    (hsame : ∀ saved, runPersist target persist = .ok saved → saved.id = id)
    (hsection : m.updateTarget id target persist = some (m', result)) : m'.Indexed := by
  rcases updateTarget_cases hsection with ⟨rfl, -⟩ |
    ⟨oldKey, saved, m₁, hkey, -, hconflict, hpersist, -, hmove, hshown⟩
  · exact h
  · obtain ⟨old, hold, holdID⟩ := target_of_targetKeyByIDLocked h.tabled hkey
    have hfree := h.tabled.eq_or_free (h.labelled.identifies id) hkey hconflict
    have hothers : ∀ (other : String) (existing : Target), other ≠ oldKey →
        m.targets.lookup other = some existing → existing.id ≠ saved.id := by
      intro other existing hne hlookup heq
      refine hne (h.labelled.distinct other oldKey existing old hlookup hold ?_)
      rw [heq, hsame saved hpersist, holdID]
    have hmem := Table.mem_of_lookup hold
    rcases hmove with ⟨hnewKey, rfl⟩ | ⟨hnewKey, hrename⟩
    · have hlabelled : Labelled (m₁.targets.insert (normalizeName saved.name) saved) :=
        h.labelled.insert rfl fun other existing hne ↦ hothers other existing (hnewKey ▸ hne)
      generalize normalizeName saved.name = newKey at hnewKey hlabelled hshown
      subst hnewKey
      exact ((h.tabled.insertTarget hmem saved).indexed hlabelled).of_domain hshown.domain
    · have hlabelled : Labelled ((m.targets.erase oldKey).insert (normalizeName saved.name)
          saved) := by
        refine (h.labelled.erase oldKey).insert rfl ?_
        intro other existing _ hlookup
        rw [Table.lookup_erase_apply] at hlookup
        split_ifs at hlookup with hne
        exact hothers other existing hne hlookup
      generalize normalizeName saved.name = newKey at hnewKey hlabelled hshown hfree hrename
      have htabled := h.tabled.renameTarget hmem (hfree.resolve_left hnewKey) hrename saved
      obtain ⟨job, keepalive, arbiter, -, -, -, rfl⟩ := renameTarget_cases hrename
      exact (htabled.indexed hlabelled).of_domain hshown.domain

/-- The last section of `DeleteTarget` keeps the index. -/
theorem Indexed.deleteTarget (h : m.Indexed) {id : Int} {persist : Persist}
    {result : Except Error Unit} (hsection : m.deleteTarget id persist = some (m', result)) :
    m'.Indexed := by
  rcases deleteTarget_cases hsection with ⟨rfl, -⟩ | ⟨key, -, -, -, hshown⟩
  · exact h
  · refine Indexed.of_domain ?_ hshown.domain
    refine ⟨h.tabled.eraseTarget key, h.labelled.erase key, ?_⟩
    refine (h.sorted.sublist List.erase_sublist).imp_of_mem ?_
    intro left right hleft hright hle
    rw [h.tabled.nodup.mem_erase_iff] at hleft hright
    simpa only [Manager.target, AList.lookup_erase_ne hleft.1, AList.lookup_erase_ne hright.1]
      using hle

end

end Manager

namespace System

variable [Go.NetURL] {s : System}

/-! ### Runs -/

/-- What the persist functions promise: a created target has an identifier that no target has, and
an updated target keeps its own. -/
def Promised (s : System) : Label → Prop
  | .createTarget target persist => ∀ given saved, target = some given →
      Manager.runPersist given persist = .ok saved →
      ∀ (key : String) (existing : Target), s.manager.targets.lookup key = some existing →
        existing.id ≠ saved.id
  | .advance self input => ∀ id target, s.procs[self]? =
      some (.edit { kind := .update id target, pc := .commit }) →
      ∀ saved, Manager.runPersist target input.persist = .ok saved → saved.id = id
  | _ => True

/-- A promised step keeps the index. -/
theorem step_indexed {s s' : System} {label : Label} (h : s.manager.Indexed)
    (hpromised : s.Promised label) (hstep : s.step label = some s') : s'.manager.Indexed := by
  rcases step_domain hstep with hdomain | hedits
  · exact h.of_domain hdomain
  · cases hedits with
    | create hsection => exact h.createTarget hpromised hsection
    | update hproc hsection => exact h.updateTarget (hpromised _ _ hproc) hsection
    | delete _ hsection => exact h.deleteTarget hsection

omit [Go.NetURL] in
/-- Every step from an indexed state is lawful. -/
theorem lawful_of_indexed (h : s.manager.Indexed) (label : Label) : s.Lawful label := by
  cases label
  case advance self input => exact fun id _ _ ↦ h.labelled.identifies id
  all_goals trivial

/-- A run in which the persist functions keep their promises, from `New` on an ordered list of
targets with distinct names and identifiers, keeps the index, and its states are reachable. -/
theorem indexed_of_steps (settings : Manager.Settings) {targets : List Target}
    (hnames : (targets.map fun target ↦ Manager.normalizeName target.name).Nodup)
    (hids : (targets.map (·.id)).Nodup)
    (hsorted : targets.Pairwise fun left right ↦ left.rank ≤ right.rank)
    (hrun : Steps step Promised (init settings targets) s) :
    s.manager.Indexed ∧ s.Reachable := by
  refine hrun.invariant (P := fun s ↦ s.manager.Indexed ∧ s.Reachable) ?_ ?_
  · intro s s' label hs hpromised hstep
    exact ⟨step_indexed hs.1 hpromised hstep, hs.2.step (lawful_of_indexed hs.1 label) hstep⟩
  · exact ⟨Manager.indexed_new settings hnames hids hsorted, settings, targets, hnames, .refl⟩

/-- In every such run the tables are an index of the targets, and every key on which a worker or an
ad-hoc request is alive is in all of them. -/
theorem index_kept (settings : Manager.Settings) (targets : List Target)
    (hnames : (targets.map fun target ↦ Manager.normalizeName target.name).Nodup)
    (hids : (targets.map (·.id)).Nodup)
    (hsorted : targets.Pairwise fun left right ↦ left.rank ≤ right.rank)
    (hrun : Steps step Promised (init settings targets) s) :
    s.manager.Indexed ∧ ∀ proc ∈ s.procs, proc.view.live = true →
      proc.view.key ∈ s.manager.targets ∧ proc.view.key ∈ s.manager.jobs ∧
        proc.view.key ∈ s.manager.keepalives ∧ proc.view.key ∈ s.manager.arbiters := by
  obtain ⟨hindexed, hreach⟩ := indexed_of_steps settings hnames hids hsorted hrun
  refine ⟨hindexed, fun proc hmem hlive ↦ ?_⟩
  obtain ⟨i, hproc⟩ := List.mem_iff_getElem?.mp hmem
  have hkey := Table.mem_of_lookup (lookup_target hreach hproc hlive)
  exact ⟨hkey, (hindexed.tabled.jobs _).mpr hkey, (hindexed.tabled.keepalives _).mpr hkey,
    (hindexed.tabled.arbiters _).mpr hkey⟩

/-- A guard that steps pass when the persist functions keep their promises. -/
def keepsPromise (s : System) : Label → Bool
  | .createTarget (some given) persist =>
    match Manager.runPersist given persist with
    | .ok saved => s.manager.targets.entries.all fun entry ↦ entry.2.id ≠ saved.id
    | .error _ => true
  | .advance self input =>
    match s.procs[self]? with
    | some (.edit ⟨.update id target, .commit⟩) =>
      match Manager.runPersist target input.persist with
      | .ok saved => saved.id = id
      | .error _ => true
    | _ => true
  | _ => true

omit [Go.NetURL] in
/-- Steps that pass the guard are promised. -/
theorem promised_of_keepsPromise (s : System) (label : Label) (h : s.keepsPromise label = true) :
    s.Promised label := by
  cases label
  case createTarget target persist =>
    rintro given saved rfl hpersist key existing hlookup
    simp only [keepsPromise, hpersist, List.all_eq_true, decide_eq_true_eq] at h
    exact h ⟨key, existing⟩ (AList.mem_lookup_iff.mp hlookup)
  case advance self input =>
    intro id target hproc saved hpersist
    simpa only [keepsPromise, hproc, hpersist, decide_eq_true_eq] using h
  all_goals trivial

/-- The labels by which `c` is created and `b` is renamed to `d` during a queue attempt on `a`. -/
def renamed : List Label :=
  queueAttempt ++ [
    .createTarget (some { Target.zero with name := "C" })
      (.saved { Target.zero with id := 3, name := "c" }),
    .updateTarget 2 (some { Target.zero with id := 2, name := "d" }) 0,
    .advance 2 {},
    .advance 2 { persist := .saved { Target.zero with id := 2, sortOrder := 1, name := "d" } }]

omit [Go.NetURL] in
/-- After a creation and a renaming during a queue attempt on `a`, the order lists `a`, `c` and the
renamed target, and the records of `a` are there. -/
theorem index_kept_renamed :
    ∃ (s : System) (proc : Proc), Steps (@step Go.NetURL.emptyOnly) Promised sample s ∧
      s.manager.order = ["a", "c", "d"] ∧ s.manager.Indexed ∧ s.procs[1]? = some proc ∧
      proc.view.live = true ∧ proc.view.key = "a" ∧ "a" ∈ s.manager.jobs := by
  let _ := Go.NetURL.emptyOnly
  have heval : (runLabels step keepsPromise sample renamed).any (fun s ↦
      s.manager.order == ["a", "c", "d"] &&
      s.procs[1]?.any fun proc ↦ proc.view.live && proc.view.key == "a") = true := by
    decide +kernel
  obtain ⟨s, hrun, htest⟩ := Steps.exists_of_runLabels promised_of_keepsPromise heval
  simp only [Bool.and_eq_true, Option.any_eq_true, beq_iff_eq] at htest
  obtain ⟨horder, proc, hproc, hlive, hkey⟩ := htest
  obtain ⟨hindexed, hpresent⟩ := index_kept _ _ (by decide) (by decide) (by decide) hrun
  obtain ⟨-, hjob, -⟩ := hpresent proc (List.mem_of_getElem? hproc) hlive
  exact ⟨s, proc, hrun, horder, hindexed, hproc, hlive, hkey, hkey ▸ hjob⟩

end System

end CodexQueueBot.Jobs
