import CodexQueueBot.Lib.LedgerPreservation

/-!
# Fences in a ledger

The run numbers of a track only grow while the resource exists, and a worker keeps its run. So once
the number of a track has passed that of a worker, the worker is fenced for good: its run is not the
one that is on, and never will be again.
-/

set_option autoImplicit false
set_option relaxedAutoImplicit false

namespace CodexQueueBot.Lib

variable {K M : Type*} [DecidableEq K] [DecidableEq M] {courteous : Bool} {L L' : Ledger K M}

/-- The track of a worker has moved past its run. -/
def Ledger.Fenced (L : Ledger K M) (i : ℕ) : Prop :=
  ∀ (worker : Worker K M) (cell : Cell M) (m : M), L.workers[i]? = some worker →
    worker.live = true → L.cells worker.key = some cell → worker.claimant = .mode m →
    worker.runID < (cell.track m).runID

/-- A live worker was there before, alive and with the same run, or is new. -/
theorem Act.worker_cases (hact : Act courteous L L') {i : ℕ} {worker' : Worker K M}
    (hworker' : L'.workers[i]? = some worker') (hlive : worker'.live = true) :
    (∃ worker, L.workers[i]? = some worker ∧ worker.live = true ∧ worker.Same worker') ∨
      L.workers.length ≤ i := by
  have hsame : ∀ {worker : Worker K M}, L.workers[i]? = some worker → worker.live = true →
      worker.key = worker'.key → worker.claimant = worker'.claimant →
      worker.runID = worker'.runID →
      (∃ worker, L.workers[i]? = some worker ∧ worker.live = true ∧ worker.Same worker') ∨
        L.workers.length ≤ i :=
    fun hworker hlive hkey hclaimant hrun ↦ Or.inl ⟨_, hworker, hlive, hkey, hclaimant, hrun⟩
  cases hact with
  | openCell | closeCell | halt | cancel => exact hsame hworker' hlive rfl rfl rfl
  | start | receive | join =>
    rcases Pool.getElem?_concat_cases hworker' with ⟨heq, -⟩ | hworker
    · exact Or.inr heq.ge
    · exact hsame hworker hlive rfl rfl rfl
  | leaveCurrent hworker | leaveStale hworker | take hworker | drop hworker | enter hworker
  | yield hworker | launch hworker | finish hworker =>
    rcases Pool.getElem?_set_cases hworker' with ⟨rfl, rfl⟩ | ⟨-, hother⟩
    · exact hsame hworker hlive rfl rfl rfl
    · exact hsame hother hlive rfl rfl rfl
  | retire hworker | dismiss hworker =>
    rcases Pool.getElem?_set_cases hworker' with ⟨rfl, rfl⟩ | ⟨-, hother⟩
    · cases hlive
    · exact hsame hother hlive rfl rfl rfl

/-- A resource was there before, with no greater run numbers, or is new. -/
theorem Act.cell_cases (hact : Act courteous L L') {key : K} {cell' : Cell M}
    (hcell' : L'.cells key = some cell') :
    (∃ cell, L.cells key = some cell ∧ ∀ m, (cell.track m).runID ≤ (cell'.track m).runID) ∨
      L.cells key = none := by
  have hkept : ∀ {cell' : Cell M}, L.cells key = some cell' →
      (∃ cell, L.cells key = some cell ∧ ∀ m, (cell.track m).runID ≤ (cell'.track m).runID) ∨
        L.cells key = none :=
    fun hcell ↦ Or.inl ⟨_, hcell, fun _ ↦ le_rfl⟩
  have htrack : ∀ {cell : Cell M} {m : M} {track : Track}, (cell.track m).runID ≤ track.runID →
      ∀ other, (cell.track other).runID ≤ ((cell.setTrack m track).track other).runID := by
    intro cell m track hle other
    show _ ≤ (Function.update cell.track m track other).runID
    rw [Function.update_apply]
    split_ifs with heq
    · rw [heq]
      exact hle
    · exact le_rfl
  cases hact with
  | openCell hvacant =>
    rcases Ledger.Valid.update_cases hcell' with ⟨rfl, -⟩ | ⟨-, hcell⟩
    · exact Or.inr hvacant
    · exact hkept hcell
  | closeCell =>
    rcases Ledger.Valid.update_cases hcell' with ⟨-, heq⟩ | ⟨-, hcell⟩
    · cases heq
    · exact hkept hcell
  | start hcell | halt hcell =>
    rcases Ledger.Valid.update_cases hcell' with ⟨rfl, heq⟩ | ⟨-, hother⟩
    · cases heq
      exact Or.inl ⟨_, hcell, htrack (Nat.le_succ _)⟩
    · exact hkept hother
  | leaveCurrent hworker hcell | retire hworker hcell =>
    rcases Ledger.Valid.update_cases hcell' with ⟨rfl, heq⟩ | ⟨-, hother⟩
    · cases heq
      exact Or.inl ⟨_, hcell, htrack le_rfl⟩
    · exact hkept hother
  | take hworker hcell | drop hworker hcell | dismiss hworker hcell | receive hcell =>
    rcases Ledger.Valid.update_cases hcell' with ⟨rfl, heq⟩ | ⟨-, hother⟩
    · cases heq
      exact Or.inl ⟨_, hcell, fun _ ↦ le_rfl⟩
    · exact hkept hother
  | leaveStale | enter | yield | launch | finish | cancel | join => exact hkept hcell'

/-- Acts keep the workers in place. -/
theorem Act.length_le (hact : Act courteous L L') : L.workers.length ≤ L'.workers.length := by
  cases hact <;> simp [Ledger.setCell, Ledger.setWorker, Ledger.addWorker, Ledger.setCounts,
    Ledger.setGuests, Ledger.cancel]

/-- A sequence of acts keeps the workers in place. -/
theorem Act.length_le_of_reflTransGen (hacts : Relation.ReflTransGen (Act courteous) L L') :
    L.workers.length ≤ L'.workers.length := by
  induction hacts with
  | refl => exact le_rfl
  | tail _ hact ih => exact ih.trans hact.length_le

/-- A fenced worker stays fenced. -/
theorem Act.fenced (hact : Act courteous L L') (hvalid : L.Valid) {i : ℕ}
    (hi : i < L.workers.length) (h : L.Fenced i) : L'.Fenced i := by
  intro worker' cell' m hworker' hlive' hcell' hmode
  rcases hact.worker_cases hworker' hlive' with ⟨worker, hworker, hlive, hkey, hclaimant, hrun⟩ |
    hnew
  · rw [← hrun]
    rw [← hkey] at hcell'
    obtain ⟨present, hpresent⟩ := hvalid.present i worker hworker hlive
    rcases hact.cell_cases hcell' with ⟨cell, hcell, hle⟩ | hnone
    · exact (h worker cell m hworker hlive hcell (hclaimant.trans hmode)).trans_le (hle m)
    · rw [hpresent] at hnone
      cases hnone
  · exact absurd hi (Nat.not_lt.mpr hnew)

/-- A fenced worker stays fenced through a sequence of acts. -/
theorem Act.fenced_of_reflTransGen (hacts : Relation.ReflTransGen (Act courteous) L L')
    (hvalid : L.Valid) {i : ℕ} (hi : i < L.workers.length) (h : L.Fenced i) : L'.Fenced i := by
  induction hacts with
  | refl => exact h
  | tail hrun hact ih =>
    exact hact.fenced (Act.valid_of_reflTransGen hrun hvalid)
      (hi.trans_le (Act.length_le_of_reflTransGen hrun)) ih

/-! ### Tokens -/

/-- Cancelled tokens stay cancelled. -/
theorem Act.cancelled_subset (hact : Act courteous L L') : L.cancelled ⊆ L'.cancelled := by
  cases hact with
  | cancel tokens => exact Set.subset_union_left
  | openCell | closeCell | start | halt | leaveCurrent | leaveStale | take | drop | enter | yield
  | launch | finish | retire | receive | dismiss | join => exact subset_rfl

/-- Cancelled tokens stay cancelled through a sequence of acts. -/
theorem Act.cancelled_subset_of_reflTransGen
    (hacts : Relation.ReflTransGen (Act courteous) L L') : L.cancelled ⊆ L'.cancelled := by
  induction hacts with
  | refl => exact subset_rfl
  | tail _ hact ih => exact ih.trans hact.cancelled_subset

/-- A worker that has not given up its run was there before, with the same token, or is new. -/
theorem Act.active_cases (hact : Act courteous L L') {i : ℕ} {worker' : Worker K M}
    (hworker' : L'.workers[i]? = some worker') (hactive : worker'.active = true) :
    (∃ worker, L.workers[i]? = some worker ∧ worker.active = true ∧
      worker.token = worker'.token) ∨ L.workers.length ≤ i := by
  cases hact with
  | openCell | closeCell | halt | cancel => exact Or.inl ⟨_, hworker', hactive, rfl⟩
  | start | receive | join =>
    rcases Pool.getElem?_concat_cases hworker' with ⟨heq, -⟩ | hworker
    · exact Or.inr heq.ge
    · exact Or.inl ⟨_, hworker, hactive, rfl⟩
  | take hworker | drop hworker | enter hworker | yield hworker | launch hworker | finish hworker
  | retire hworker | dismiss hworker =>
    rcases Pool.getElem?_set_cases hworker' with ⟨rfl, rfl⟩ | ⟨-, hother⟩
    · exact Or.inl ⟨_, hworker, hactive, rfl⟩
    · exact Or.inl ⟨_, hother, hactive, rfl⟩
  | leaveCurrent hworker | leaveStale hworker =>
    rcases Pool.getElem?_set_cases hworker' with ⟨rfl, rfl⟩ | ⟨-, hother⟩
    · cases hactive
    · exact Or.inl ⟨_, hother, hactive, rfl⟩

/-- A worker that has not given up its run after a sequence of acts was there before, with the same
token, or is new. -/
theorem Act.active_cases_of_reflTransGen (hacts : Relation.ReflTransGen (Act courteous) L L')
    {i : ℕ} {worker' : Worker K M} (hworker' : L'.workers[i]? = some worker')
    (hactive : worker'.active = true) :
    (∃ worker, L.workers[i]? = some worker ∧ worker.active = true ∧
      worker.token = worker'.token) ∨ L.workers.length ≤ i := by
  induction hacts generalizing worker' with
  | refl => exact Or.inl ⟨_, hworker', hactive, rfl⟩
  | tail hrun hact ih =>
    rcases hact.active_cases hworker' hactive with ⟨worker, hworker, hstill, htoken⟩ | hnew
    · rcases ih hworker hstill with ⟨first, hfirst, hfirstActive, hfirstToken⟩ | hnew
      · exact Or.inl ⟨first, hfirst, hfirstActive, hfirstToken.trans htoken⟩
      · exact Or.inr hnew
    · exact Or.inr ((Act.length_le_of_reflTransGen hrun).trans hnew)

end CodexQueueBot.Lib
