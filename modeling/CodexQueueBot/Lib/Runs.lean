import Mathlib.Tactic.SplitIfs

/-!
# Runs of a transition function

A system is given by a partial transition function on labels. `Steps step allowed s s'` says that
`s'` is reached from `s` by steps whose labels are allowed in the states where they are taken. The
rules below are what proofs about whole runs use: an invariant of one allowed step is one of every
run, a property that steps keep is kept by runs, and a run with more conditions on its steps is a
run with fewer. `Traces` is a run together with what its steps put out.
-/

set_option autoImplicit false
set_option relaxedAutoImplicit false

namespace CodexQueueBot.Lib

variable {S L : Type*}

/-- The states that are reached from a state by allowed steps. -/
inductive Steps (step : S → L → Option S) (allowed : S → L → Prop) (s : S) : S → Prop
  | refl : Steps step allowed s s
  | tail {s₁ s₂ : S} {label : L} (hrun : Steps step allowed s s₁) (hallowed : allowed s₁ label)
      (hstep : step s₁ label = some s₂) : Steps step allowed s s₂

namespace Steps

variable {step : S → L → Option S} {allowed : S → L → Prop} {s s₁ s₂ : S}

/-- A run of one step. -/
theorem single {label : L} (hallowed : allowed s label) (hstep : step s label = some s₁) :
    Steps step allowed s s₁ :=
  .tail .refl hallowed hstep

/-- Runs compose. -/
theorem trans (hfirst : Steps step allowed s s₁) (hsecond : Steps step allowed s₁ s₂) :
    Steps step allowed s s₂ := by
  induction hsecond with
  | refl => exact hfirst
  | tail _ hallowed hstep ih => exact .tail ih hallowed hstep

/-- What every allowed step keeps, every run keeps. -/
theorem invariant {P : S → Prop}
    (hkeep : ∀ (s s' : S) (label : L), P s → allowed s label → step s label = some s' → P s')
    (hrun : Steps step allowed s s₁) (hs : P s) : P s₁ := by
  induction hrun with
  | refl => exact hs
  | tail _ hallowed hstep ih => exact hkeep _ _ _ ih hallowed hstep

/-- A run stays a run under weaker conditions on its steps. -/
theorem mono {allowed' : S → L → Prop} (himp : ∀ (s : S) (label : L), allowed s label →
    allowed' s label) (hrun : Steps step allowed s s₁) : Steps step allowed' s s₁ := by
  induction hrun with
  | refl => exact .refl
  | tail _ hallowed hstep ih => exact .tail ih (himp _ _ hallowed) hstep

end Steps

/-! ### Runs with an output -/

/-- The states that are reached from a state by allowed steps, with the output of these steps. -/
inductive Traces {O : Type*} (step : S → L → Option S) (allowed : S → L → Prop)
    (output : S → L → List O) (s : S) : S → List O → Prop
  | refl : Traces step allowed output s s []
  | tail {s₁ s₂ : S} {label : L} {outputs : List O}
      (hrun : Traces step allowed output s s₁ outputs) (hallowed : allowed s₁ label)
      (hstep : step s₁ label = some s₂) :
      Traces step allowed output s s₂ (outputs ++ output s₁ label)

/-- What every allowed step keeps, every run with an output keeps. -/
theorem Traces.invariant {O : Type*} {step : S → L → Option S} {allowed : S → L → Prop}
    {output : S → L → List O} {s s₁ : S} {outputs : List O} {P : S → List O → Prop}
    (hkeep : ∀ (s s' : S) (label : L) (outputs : List O), P s outputs → allowed s label →
      step s label = some s' → P s' (outputs ++ output s label))
    (hrun : Traces step allowed output s s₁ outputs) (hs : P s []) : P s₁ outputs := by
  induction hrun with
  | refl => exact hs
  | tail _ hallowed hstep ih => exact hkeep _ _ _ _ ih hallowed hstep

/-- A run puts something out. -/
theorem Steps.exists_traces {O : Type*} {step : S → L → Option S} {allowed : S → L → Prop}
    {s s₁ : S} (output : S → L → List O) (hrun : Steps step allowed s s₁) :
    ∃ outputs, Traces step allowed output s s₁ outputs := by
  induction hrun with
  | refl => exact ⟨[], .refl⟩
  | tail _ hallowed hstep ih =>
    obtain ⟨outputs, htraces⟩ := ih
    exact ⟨_, .tail htraces hallowed hstep⟩

/-! ### Runs of given labels -/

/-- The state after given labels, if each of them passes the guard where it is taken. -/
def runLabels (step : S → L → Option S) (guard : S → L → Bool) (s : S) : List L → Option S
  | [] => some s
  | label :: labels =>
    if guard s label then (step s label).bind fun s' ↦ runLabels step guard s' labels else none

/-- Where the guard implies the conditions, given labels make a run. -/
theorem Steps.of_runLabels {step : S → L → Option S} {allowed : S → L → Prop}
    {guard : S → L → Bool} (hguard : ∀ (s : S) (label : L), guard s label = true →
      allowed s label) {labels : List L} {s s' : S}
    (h : runLabels step guard s labels = some s') : Steps step allowed s s' := by
  induction labels generalizing s with
  | nil =>
    cases h
    exact .refl
  | cons label labels ih =>
    rw [runLabels] at h
    split_ifs at h with hpass
    obtain ⟨s₁, hstep, hrest⟩ := Option.bind_eq_some_iff.mp h
    exact (Steps.single (hguard s label hpass) hstep).trans (ih hrest)

/-- A test that the state after given labels passes is passed by a state that is reached. -/
theorem Steps.exists_of_runLabels {step : S → L → Option S} {allowed : S → L → Prop}
    {guard : S → L → Bool} (hguard : ∀ (s : S) (label : L), guard s label = true →
      allowed s label) {labels : List L} {s : S} {test : S → Bool}
    (h : (runLabels step guard s labels).any test = true) :
    ∃ s', Steps step allowed s s' ∧ test s' = true := by
  obtain ⟨s', hrun, htest⟩ := Option.any_eq_true _ _ |>.mp h
  exact ⟨s', of_runLabels hguard hrun, htest⟩

end CodexQueueBot.Lib
