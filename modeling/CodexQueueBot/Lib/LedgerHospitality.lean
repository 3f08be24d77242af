import CodexQueueBot.Lib.LedgerPreservation

/-!
# Guests of a ledger

Where runs are started only on resources that are not used by a guest, a resource used by a guest is
quiet: no mode of it is busy. A guest is received on an idle resource, and every other act that
keeps the owner makes no mode busy.
-/

set_option autoImplicit false
set_option relaxedAutoImplicit false

namespace CodexQueueBot.Lib

variable {K M : Type*} [DecidableEq K] [DecidableEq M]

/-- A resource used by a guest is quiet. -/
def Ledger.Hospitable (L : Ledger K M) : Prop :=
  ∀ (key : K) (cell : Cell M) (runID : ℕ), L.cells key = some cell →
    cell.owner = some (.guest, runID) → ∀ m, ¬ (cell.track m).Busy

namespace Ledger.Hospitable

variable {L : Ledger K M} {key : K} {cell after : Cell M}

omit [DecidableEq M] in
/-- Replacing a resource keeps guests on quiet resources, if the new one is quiet under a guest. -/
theorem setCell (h : L.Hospitable)
    (hafter : ∀ runID, after.owner = some (.guest, runID) → ∀ m, ¬ (after.track m).Busy) :
    (L.setCell key (some after)).Hospitable := by
  intro other cell' runID hcell howner
  rcases Ledger.Valid.update_cases hcell with ⟨-, heq⟩ | ⟨-, hcell⟩
  · cases heq
    exact hafter runID howner
  · exact h other cell' runID hcell howner

/-- Replacing the track of a mode by one that is busy only if it was keeps guests on quiet
resources. -/
theorem setTrack (h : L.Hospitable) (hcell : L.cells key = some cell) {m : M} {track : Track}
    (hbusy : track.Busy → (cell.track m).Busy) :
    (L.setCell key (some (cell.setTrack m track))).Hospitable := by
  refine h.setCell ?_
  intro runID howner other hother
  by_cases heq : other = m
  · subst heq
    change (Function.update cell.track other track other).Busy at hother
    rw [Function.update_self] at hother
    exact h key cell runID hcell howner other (hbusy hother)
  · change (Function.update cell.track m track other).Busy at hother
    rw [Function.update_of_ne heq] at hother
    exact h key cell runID hcell howner other hother

omit [DecidableEq M] in
/-- Starting a run on a resource that is not used by a guest keeps guests on quiet resources. -/
theorem of_owner_ne (h : L.Hospitable)
    (howner : ∀ runID, after.owner ≠ some (.guest, runID)) :
    (L.setCell key (some after)).Hospitable :=
  h.setCell fun runID hguest ↦ absurd hguest (howner runID)

end Ledger.Hospitable

/-- Courteous acts keep guests on quiet resources. -/
theorem Act.hospitable {L L' : Ledger K M} (hact : Act true L L') (hvalid : L.Valid)
    (h : L.Hospitable) : L'.Hospitable := by
  cases hact with
  | openCell hvacant hidle =>
    exact h.setCell fun _ _ m ↦ hidle.quiet m
  | @closeCell key cell hcell hidle =>
    intro other cell' runID hcell' howner
    rcases Ledger.Valid.update_cases hcell' with ⟨-, heq⟩ | ⟨-, hcell'⟩
    · cases heq
    · exact h other cell' runID hcell' howner
  | start hcell hoff hothers hcourteous =>
    exact h.of_owner_ne (hcourteous rfl)
  | halt hcell hcancelled =>
    refine h.setTrack hcell ?_
    rintro (hon | hworkers)
    · cases hon
    · exact Or.inr hworkers
  | leaveCurrent hworker hcell hmode hlive hcurrent =>
    exact h.setTrack hcell fun _ ↦ Or.inl hcurrent.1
  | take hworker hcell hlive hfree =>
    refine h.of_owner_ne ?_
    rintro runID hguest
    have hclaimant := (Prod.mk.inj (Option.some.inj hguest)).1
    have hholds := (hvalid.invited _ _ hworker hlive hclaimant).2
    have howner := hvalid.holding _ _ _ hworker hholds hcell
    rw [hfree] at howner
    cases howner
  | drop hworker hcell hmode hholds hprocess =>
    exact h.of_owner_ne fun _ hnone ↦ by cases hnone
  | retire hworker hcell hmode hlive hactive hholds hslot hprocess =>
    refine h.setTrack hcell ?_
    rintro (hon | hworkers)
    · exact Or.inl hon
    · exact Or.inr (Nat.lt_of_lt_of_le hworkers (Nat.sub_le _ 1))
  | receive hcell hidle =>
    exact h.setCell fun _ _ m ↦ hidle.quiet m
  | dismiss hworker hcell hguest hholds hactive hslot hprocess =>
    exact h.of_owner_ne fun _ hnone ↦ by cases hnone
  | leaveStale | enter | yield | launch | finish | cancel | join => exact h

/-- Sequences of courteous acts keep guests on quiet resources. -/
theorem Act.hospitable_of_reflTransGen {L L' : Ledger K M}
    (hacts : Relation.ReflTransGen (Act true) L L') (hvalid : L.Valid) (h : L.Hospitable) :
    L'.Hospitable := by
  induction hacts with
  | refl => exact h
  | tail hrun hact ih => exact hact.hospitable (Act.valid_of_reflTransGen hrun hvalid) ih

end CodexQueueBot.Lib
