import CodexQueueBot.Jobs.View

/-!
# What the edits of targets leave alone

Creating, updating and deleting a target are the only operations that add, move or remove records.
They do so for idle targets: the records of a target on which anything is going on stay where they
are (`Edited.untouched`), every record comes from the target that had it before or is new, and
neither slots nor channels nor contexts change.
-/

set_option autoImplicit false
set_option relaxedAutoImplicit false

namespace CodexQueueBot.Jobs

open Lib

namespace Manager

/-- What an edit leaves alone. -/
structure Edited (m m' : Manager) : Prop where
  slots : m'.slotsInUse = m.slotsInUse
  limit : m'.maxParallel = m.maxParallel
  parallel : m'.parallelChanged = m.parallelChanged
  closed : m'.closed = m.closed
  next : m.nextChannel ≤ m'.nextChannel
  jobs : ∀ (key : String) (job : Job), m'.jobs.lookup key = some job →
    m.jobs.lookup key = some job ∨
      (job.state ≠ .running ∧ ((∃ old, m.jobs.lookup old = some job) ∨ job = {}))
  keepalives : ∀ (key : String) (keepalive : KeepaliveJob),
    m'.keepalives.lookup key = some keepalive →
    (∃ old, m.keepalives.lookup old = some keepalive) ∨
      (m.nextChannel ≤ keepalive.scheduleChanged ∧ keepalive.scheduleChanged < m'.nextChannel)
  arbiters : ∀ (key : String) (arbiter : TargetArbiter), m'.arbiters.lookup key = some arbiter →
    (∃ old, m.arbiters.lookup old = some arbiter) ∨
      (m.nextChannel ≤ arbiter.changed ∧ arbiter.changed < m'.nextChannel)
  untouched : ∀ (key : String) (cell : Cell Mode), m.cell key = some cell → ¬ cell.Idle →
    m'.jobs.lookup key = m.jobs.lookup key ∧
      m'.keepalives.lookup key = m.keepalives.lookup key ∧
      m'.arbiters.lookup key = m.arbiters.lookup key

variable {m m' m'' : Manager} {key : String} {cell : Cell Mode}

namespace Edited

/-- Nothing is edited. -/
theorem refl (m : Manager) : m.Edited m where
  slots := rfl
  limit := rfl
  parallel := rfl
  closed := rfl
  next := le_rfl
  jobs _ _ hjob := Or.inl hjob
  keepalives key _ hkeepalive := Or.inl ⟨key, hkeepalive⟩
  arbiters key _ harbiter := Or.inl ⟨key, harbiter⟩
  untouched _ _ _ _ := ⟨rfl, rfl, rfl⟩

/-- An edit is followed by a broadcast. -/
theorem shown (h : m.Edited m') (hshown : m'.Shown m'') : m.Edited m'' := by
  obtain ⟨_, _, rfl⟩ := hshown
  exact ⟨h.slots, h.limit, h.parallel, h.closed, h.next, h.jobs, h.keepalives, h.arbiters,
    h.untouched⟩

/-- The data of targets and their order do not matter. -/
theorem withTargets (h : m.Edited m') (targets : Table String Target) (order : List String) :
    m.Edited { m' with targets, order } :=
  ⟨h.slots, h.limit, h.parallel, h.closed, h.next, h.jobs, h.keepalives, h.arbiters, h.untouched⟩

/-- The records of a new target. -/
theorem addRecords (hvacant : m.cell key = none) (target : Target) :
    m.Edited (m.addRecords key target) where
  slots := rfl
  limit := rfl
  parallel := rfl
  closed := rfl
  next := Nat.le_add_right _ 2
  jobs := by
    intro other job hjob
    rw [Manager.addRecords, Table.lookup_insert_apply] at hjob
    split_ifs at hjob
    · cases hjob
      exact Or.inr ⟨by simp, Or.inr rfl⟩
    · exact Or.inl hjob
  keepalives := by
    intro other keepalive hkeepalive
    rw [Manager.addRecords, Table.lookup_insert_apply] at hkeepalive
    split_ifs at hkeepalive
    · cases hkeepalive
      exact Or.inr ⟨le_rfl, Nat.lt_add_of_pos_right (by decide)⟩
    · exact Or.inl ⟨other, hkeepalive⟩
  arbiters := by
    intro other arbiter harbiter
    rw [Manager.addRecords, Table.lookup_insert_apply] at harbiter
    split_ifs at harbiter
    · cases harbiter
      exact Or.inr ⟨Nat.le_succ _, Nat.lt_succ_self _⟩
    · exact Or.inl ⟨other, harbiter⟩
  untouched := by
    intro other cell hcell _
    have hne : other ≠ key := by
      rintro rfl
      rw [hvacant] at hcell
      cases hcell
    simp [Manager.addRecords, AList.lookup_insert_ne hne]

/-- The records of an idle target are removed. -/
theorem eraseRecords (hcell : m.cell key = some cell) (hidle : cell.Idle) :
    m.Edited { m with
      jobs := m.jobs.erase key
      keepalives := m.keepalives.erase key
      arbiters := m.arbiters.erase key } where
  slots := rfl
  limit := rfl
  parallel := rfl
  closed := rfl
  next := le_rfl
  jobs := by
    intro other job hjob
    rw [Table.lookup_erase_apply] at hjob
    split_ifs at hjob
    exact Or.inl hjob
  keepalives := by
    intro other keepalive hkeepalive
    rw [Table.lookup_erase_apply] at hkeepalive
    split_ifs at hkeepalive
    exact Or.inl ⟨other, hkeepalive⟩
  arbiters := by
    intro other arbiter harbiter
    rw [Table.lookup_erase_apply] at harbiter
    split_ifs at harbiter
    exact Or.inl ⟨other, harbiter⟩
  untouched := by
    intro other cell' hcell' hbusy
    have hne : other ≠ key := by
      rintro rfl
      rw [hcell] at hcell'
      cases hcell'
      exact hbusy hidle
    simp [AList.lookup_erase_ne hne]

/-- The records of an idle target are moved to a key without records. -/
theorem renameTarget {oldKey newKey : String} (hcell : m.cell oldKey = some cell)
    (hidle : cell.Idle) (hvacant : m.cell newKey = none)
    (h : m.renameTarget oldKey newKey = some m') : m.Edited m' := by
  obtain ⟨job, keepalive, arbiter, hjob, hkeepalive, harbiter, rfl⟩ := renameTarget_cases h
  refine ⟨rfl, rfl, rfl, rfl, le_rfl, ?_, ?_, ?_, ?_⟩
  · intro other job' hjob'
    simp only [Table.lookup_insert_apply, Table.lookup_erase_apply] at hjob'
    split_ifs at hjob'
    · cases hjob'
      have hquiet := hidle.quiet .queue
      rw [track_queue_of_cell hcell hjob, Job.track_busy] at hquiet
      exact Or.inr ⟨fun hrunning ↦ hquiet (Or.inl hrunning), Or.inl ⟨oldKey, hjob⟩⟩
    · exact Or.inl hjob'
  · intro other keepalive' hkeepalive'
    simp only [Table.lookup_insert_apply, Table.lookup_erase_apply] at hkeepalive'
    split_ifs at hkeepalive'
    · cases hkeepalive'
      exact Or.inl ⟨oldKey, hkeepalive⟩
    · exact Or.inl ⟨other, hkeepalive'⟩
  · intro other arbiter' harbiter'
    simp only [Table.lookup_insert_apply, Table.lookup_erase_apply] at harbiter'
    split_ifs at harbiter'
    · cases harbiter'
      exact Or.inl ⟨oldKey, harbiter⟩
    · exact Or.inl ⟨other, harbiter'⟩
  · intro other cell' hcell' hbusy
    have hold : other ≠ oldKey := by
      rintro rfl
      rw [hcell] at hcell'
      cases hcell'
      exact hbusy hidle
    have hnew : other ≠ newKey := by
      rintro rfl
      rw [hvacant] at hcell'
      cases hcell'
    simp [AList.lookup_insert_ne hnew, AList.lookup_erase_ne hold]

variable [Go.NetURL]

/-- `CreateTarget`. -/
theorem createTarget (htabled : m.Tabled) {target : Option Target} {persist : Persist}
    {result : Except Error Unit} (h : m.createTarget target persist = some (m', result)) :
    m.Edited m' := by
  rcases createTarget_cases h with ⟨rfl, -⟩ | ⟨saved, hfree, -, hshown⟩
  · exact .refl _
  · have hvacant := htabled.cell_eq_none (AList.lookup_eq_none.mp hfree)
    exact ((addRecords hvacant saved).withTargets _ _).shown hshown

/-- Assumes: the identifier is that of one target only. The last section of `UpdateTarget`. -/
theorem updateTarget (htabled : m.Tabled) {id : Int} {target : Target} {persist : Persist}
    {result : Except Error Unit} (hid : m.Identifies id)
    (h : m.updateTarget id target persist = some (m', result)) : m.Edited m' := by
  rcases updateTarget_cases h with ⟨rfl, -⟩ |
    ⟨oldKey, saved, m₁, hkey, hbusy, hconflict, -, -, hmove, hshown⟩
  · exact .refl _
  · have hfree := htabled.eq_or_free hid hkey hconflict
    generalize normalizeName saved.name = newKey at hconflict hmove hshown hfree
    obtain ⟨job, keepalive, arbiter, hjob, hkeepalive, harbiter, hbusy⟩ :=
      targetBusyLocked_cases hbusy
    have hmoved : m.Edited m₁ := by
      rcases hmove with ⟨-, rfl⟩ | ⟨hne, hrename⟩
      · exact .refl _
      · exact renameTarget (cell_of hjob hkeepalive harbiter) (idle_of_not_busy hbusy.symm)
          (htabled.cell_eq_none (hfree.resolve_left hne)) hrename
    exact (hmoved.withTargets _ _).shown hshown

/-- The last section of `DeleteTarget`. -/
theorem deleteTarget {id : Int} {persist : Persist} {result : Except Error Unit}
    (h : m.deleteTarget id persist = some (m', result)) : m.Edited m' := by
  rcases deleteTarget_cases h with ⟨rfl, -⟩ | ⟨key, -, hbusy, -, hshown⟩
  · exact .refl _
  · obtain ⟨job, keepalive, arbiter, hjob, hkeepalive, harbiter, hbusy⟩ :=
      targetBusyLocked_cases hbusy
    have herased := eraseRecords (cell_of hjob hkeepalive harbiter) (idle_of_not_busy hbusy.symm)
    exact (herased.withTargets _ _).shown hshown

/-- Assumes: an update is under an identifier of one target only. A step of an edit. -/
theorem editCall_step (htabled : m.Tabled) {call : EditCall} {input : Input} {effect : Effect}
    (hid : ∀ id target, call = { kind := .update id target, pc := .commit } → m.Identifies id)
    (hstep : call.step m input = some effect) : m.Edited effect.manager := by
  cases EditCall.step_takes hstep with
  | waited => exact .refl _
  | updated id target m₁ result hsection =>
    exact updateTarget htabled (hid id target rfl) hsection
  | deleted id m₁ result hsection => exact deleteTarget hsection

end Edited

end Manager

end CodexQueueBot.Jobs
