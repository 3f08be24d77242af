import Mathlib.Data.List.DropRight
import Mathlib.Data.Finset.Basic

/-!
# The most recent elements of a history

A history is a list to whose end elements are added, and its window of size `n` is `rtake n`. A
queue that takes a new element at its end and gives up its first one when it has grown beyond `n` is
the window of its history. `mem_rtake_iff` says which positions of a history its window covers.
-/

set_option autoImplicit false
set_option relaxedAutoImplicit false

namespace CodexQueueBot.Lib

variable {α : Type*}

/-- A queue of at most `n` elements after a new one. -/
def slide (n : ℕ) (queue : List α) (new : α) : List α :=
  let queue := queue ++ [new]
  if n < queue.length then queue.tail else queue

/-- The window of a history has the size of the history at most. -/
theorem length_rtake (n : ℕ) (history : List α) :
    (history.rtake n).length = min n history.length := by
  rw [List.rtake, List.length_drop]
  omega

/-- The window of a history is the end of it. -/
theorem rtake_suffix (n : ℕ) (history : List α) : history.rtake n <:+ history :=
  List.drop_suffix _ _

/-- A list that fits into the window is its own window. -/
theorem rtake_eq_self {n : ℕ} {history : List α} (h : history.length ≤ n) :
    history.rtake n = history := by
  rw [List.rtake, Nat.sub_eq_zero_of_le h, List.drop_zero]

/-- The window of a longer history depends on the window of the history alone. -/
theorem rtake_append (n : ℕ) (history added : List α) :
    (history.rtake n ++ added).rtake n = (history ++ added).rtake n := by
  have hqueue : history.rtake n ++ added = (history ++ added).drop (history.length - n) := by
    rw [List.drop_append_of_le_length (Nat.sub_le _ _), List.rtake]
  rw [hqueue, List.rtake, List.rtake, List.drop_drop, List.length_drop, List.length_append]
  congr 1
  omega

/-- The window of a longer history is that of the added elements if they fill it. -/
theorem rtake_append_of_le {n : ℕ} (history : List α) {added : List α} (h : n ≤ added.length) :
    (history ++ added).rtake n = added.rtake n := by
  have hsize : (history ++ added).length - n = history.length + (added.length - n) := by
    rw [List.length_append]
    omega
  rw [List.rtake, List.rtake, hsize, List.drop_length_add_append]

/-- A queue that has slid is a window. -/
theorem slide_eq_rtake {n : ℕ} {queue : List α} (hqueue : queue.length ≤ n) (new : α) :
    slide n queue new = (queue ++ [new]).rtake n := by
  have hlength : (queue ++ [new]).length = queue.length + 1 := by
    rw [List.length_append, List.length_singleton]
  rw [slide]
  split_ifs with hfull
  · have hone : (queue ++ [new]).length - n = 1 := by omega
    rw [List.rtake, hone, List.drop_one]
  · exact (rtake_eq_self (Nat.not_lt.mp hfull)).symm

/-- The window of a history slides along with it. -/
theorem slide_rtake (n : ℕ) (history : List α) (new : α) :
    slide n (history.rtake n) new = (history ++ [new]).rtake n := by
  have hlength : (history.rtake n).length ≤ n := (length_rtake n history).trans_le (min_le_left _ _)
  rw [slide_eq_rtake hlength, rtake_append]

/-- The window covers the last `n` positions of a history. -/
theorem mem_rtake_iff {n : ℕ} {history : List α} {x : α} :
    x ∈ history.rtake n ↔ ∃ i : ℕ, history[i]? = some x ∧ history.length ≤ i + n := by
  rw [List.rtake, List.mem_iff_getElem?]
  constructor
  · rintro ⟨i, hi⟩
    rw [List.getElem?_drop] at hi
    exact ⟨_, hi, by omega⟩
  · rintro ⟨i, hi, hle⟩
    refine ⟨i - (history.length - n), ?_⟩
    rw [List.getElem?_drop]
    convert hi using 2
    omega

/-- A queue without duplicates has none after an element that is not in it. -/
theorem nodup_concat {queue : List α} {new : α} (hnodup : queue.Nodup) (hnew : new ∉ queue) :
    (queue ++ [new]).Nodup := by
  rw [← List.concat_eq_append]
  exact hnodup.concat hnew

/-- Nor has it when it has given up an element. -/
theorem nodup_slide {n : ℕ} {queue : List α} {new : α} (hnodup : queue.Nodup)
    (hnew : new ∉ queue) : (slide n queue new).Nodup := by
  rw [slide]
  split_ifs
  · exact (nodup_concat hnodup hnew).tail
  · exact nodup_concat hnodup hnew

/-- The elements of a queue after a new one. -/
theorem toFinset_concat [DecidableEq α] (queue : List α) (new : α) :
    (queue ++ [new]).toFinset = insert new queue.toFinset := by
  ext x
  rw [List.mem_toFinset, List.mem_append, List.mem_singleton, Finset.mem_insert, List.mem_toFinset,
    or_comm]

/-- The elements of a queue without duplicates that has given up its first one. -/
theorem toFinset_tail [DecidableEq α] {queue : List α} (hnodup : queue.Nodup)
    (hne : queue ≠ []) : queue.tail.toFinset = queue.toFinset.erase (queue.head hne) := by
  cases queue with
  | nil => exact absurd rfl hne
  | cons first rest =>
    have hfirst : first ∉ rest := (List.nodup_cons.mp hnodup).1
    ext x
    simp only [List.tail_cons, List.mem_toFinset, List.head_cons, Finset.mem_erase, List.mem_cons]
    constructor
    · intro hmem
      exact ⟨fun heq ↦ hfirst (heq ▸ hmem), Or.inr hmem⟩
    · rintro ⟨hne, heq | hmem⟩
      · exact absurd heq hne
      · exact hmem

end CodexQueueBot.Lib
