import Mathlib.Algebra.Ring.Nat
import Mathlib.Data.List.Basic
import Mathlib.Tactic.SplitIfs

/-!
# Retries with growing delays

A loop that retries doubles its delay after every wait, up to a cap: after a number of waits it is
`delayAfter`. Times at which a loop has tried something are `Spaced` if there is a gap between any
two of them, and then a window of time has no more of them than it has room for
(`Spaced.length_mul_le`). Times are listed with the latest one first, in nanoseconds.
-/

set_option autoImplicit false
set_option relaxedAutoImplicit false

namespace CodexQueueBot.Lib.Backoff

/-- A second. -/
def second : ℕ := 1000000000

/-! ### Delays -/

/-- The delay after a number of waits. -/
def delayAfter (initial cap waits : ℕ) : ℕ :=
  min (initial * 2 ^ waits) cap

variable {initial cap waits : ℕ}

theorem delayAfter_zero (h : initial ≤ cap) : delayAfter initial cap 0 = initial := by
  rw [delayAfter, Nat.pow_zero, Nat.mul_one, Nat.min_eq_left h]

/-- A wait doubles the delay, up to the cap. -/
theorem delayAfter_succ :
    delayAfter initial cap (waits + 1) = min (delayAfter initial cap waits * 2) cap := by
  have hdouble : initial * 2 ^ (waits + 1) = initial * 2 ^ waits * 2 := by
    rw [Nat.pow_succ, Nat.mul_assoc]
  rw [delayAfter, delayAfter, hdouble]
  omega

theorem le_delayAfter (h : initial ≤ cap) : initial ≤ delayAfter initial cap waits :=
  Nat.le_min.mpr ⟨Nat.le_mul_of_pos_right initial (Nat.two_pow_pos waits), h⟩

/-! ### Times with gaps -/

/-- Between any two of the times there is a gap. -/
def Spaced (gap : ℕ) (times : List ℕ) : Prop :=
  times.Pairwise fun later earlier ↦ earlier + gap ≤ later

variable {gap : ℕ} {times : List ℕ}

/-- The times within a window, multiplied by the gap, fit into the window and one more gap. -/
theorem Spaced.length_mul_le (h : Spaced gap times) {first last : ℕ} (hwindow : first ≤ last) :
    (times.filter fun time ↦ first ≤ time ∧ time ≤ last).length * gap ≤ last - first + gap := by
  induction h generalizing last with
  | nil => simp
  | @cons time times hlater htimes ih =>
    by_cases hinside : first ≤ time ∧ time ≤ last
    · rw [List.filter_cons_of_pos (by simpa using hinside), List.length_cons]
      by_cases hroom : first + gap ≤ time
      · -- The earlier times in the window end a gap before this one.
        have hearlier : (times.filter fun time ↦ first ≤ time ∧ time ≤ last) =
            times.filter fun other ↦ first ≤ other ∧ other ≤ time - gap := by
          refine List.filter_congr fun other hother ↦ ?_
          have hgap := hlater other hother
          simp only [decide_eq_decide]
          omega
        have hrest := @ih (time - gap) (by omega)
        rw [hearlier, Nat.succ_mul]
        omega
      · have hnone : (times.filter fun time ↦ first ≤ time ∧ time ≤ last) = [] := by
          refine List.filter_eq_nil_iff.mpr fun other hother ↦ ?_
          have hgap := hlater other hother
          simp only [decide_eq_true_eq]
          omega
        rw [hnone, List.length_nil]
        omega
    · rw [List.filter_cons_of_neg (by simpa using hinside)]
      exact ih hwindow

end CodexQueueBot.Lib.Backoff
