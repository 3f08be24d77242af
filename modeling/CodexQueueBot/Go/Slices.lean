import Mathlib.Algebra.Group.Int.Defs
import Mathlib.Algebra.Group.Nat.Defs
import Mathlib.Data.List.Basic
import Mathlib.Order.MinMax

/-!
# Slices

A slice is a window on an array: where it begins in the array, and how long it is. A slice
expression moves the window and panics beyond the end of the array, `copy` and `append` write to the
array through the window, and `append` takes a new array when the window would outgrow the old one.
A panic is `none`. What a slice shows is its `content`, and the lemmas say what the operations do to
that and to the capacity.

An operation returns its slice with the array that it leaves. Of several slices of one array only
that one is up to date then, so that the others must not be used any more.
-/

set_option autoImplicit false
set_option relaxedAutoImplicit false

namespace CodexQueueBot.Go

/-- A window on an array. -/
structure Slice (α : Type*) where
  array : List α
  low : ℕ
  length : ℕ
  fits : low + length ≤ array.length

namespace Slice

variable {α : Type*} {s : Slice α}

/-- `cap`: the window can be extended to the end of the array. -/
def capacity (s : Slice α) : ℕ :=
  s.array.length - s.low

/-- The elements in the window. -/
def content (s : Slice α) : List α :=
  (s.array.drop s.low).take s.length

/-- The slice of a whole array. -/
def whole (array : List α) : Slice α where
  array := array
  low := 0
  length := array.length
  fits := (Nat.zero_add _).le

/-- `make`, for elements of one byte: it panics if the sizes are out of range. No allocation is
larger than `maxAlloc`, which is 2⁴⁸ bytes. -/
def make (zero : α) (length capacity : Int) : Option (Slice α) :=
  if h : 0 ≤ length ∧ length ≤ capacity ∧ capacity ≤ 2 ^ 48 then
    some {
      array := List.replicate capacity.toNat zero
      low := 0
      length := length.toNat
      fits := by
        rw [List.length_replicate]
        omega }
  else none

/-- The slice expression `s[first:last]`. -/
def slice (s : Slice α) (first last : Int) : Option (Slice α) :=
  if h : 0 ≤ first ∧ first ≤ last ∧ last ≤ s.capacity then
    some {
      array := s.array
      low := s.low + first.toNat
      length := (last - first).toNat
      fits := by
        have hfits := s.fits
        unfold capacity at h
        omega }
  else none

/-- `copy`: as many elements as there are on both sides, which are read before any is written. -/
def copy (s : Slice α) (values : List α) : Slice α where
  array := s.array.take s.low ++ values.take s.length ++
    s.array.drop (s.low + min s.length values.length)
  low := s.low
  length := s.length
  fits := by
    have hfits := s.fits
    simp only [List.length_append, List.length_take, List.length_drop]
    omega

/-- `append`. The spare capacity of a new array is left out. -/
def append (s : Slice α) (values : List α) : Slice α :=
  if h : s.length + values.length ≤ s.capacity then
    { array := s.array.take (s.low + s.length) ++ values ++
        s.array.drop (s.low + s.length + values.length)
      low := s.low
      length := s.length + values.length
      fits := by
        have hfits := s.fits
        unfold capacity at h
        simp only [List.length_append, List.length_take, List.length_drop]
        omega }
  else whole (s.content ++ values)

/-! ### What the operations do -/

/-- The number of elements in the window. -/
@[simp] theorem length_content (s : Slice α) : s.content.length = s.length := by
  have hfits := s.fits
  rw [content, List.length_take, List.length_drop]
  omega

/-- The window fits into the capacity. -/
theorem length_le_capacity (s : Slice α) : s.length ≤ s.capacity := by
  have hfits := s.fits
  unfold capacity
  omega

/-- The slice of a whole array shows it. -/
@[simp] theorem content_whole (array : List α) : (whole array).content = array :=
  List.take_length

/-- `make` returns a slice of zeros with the given capacity, if the sizes are in range. -/
theorem make_eq_some {zero : α} {length capacity : Int} (h : make zero length capacity = some s) :
    (0 ≤ length ∧ length ≤ capacity ∧ capacity ≤ 2 ^ 48) ∧
      s.content = List.replicate length.toNat zero ∧ (s.capacity : Int) = capacity := by
  unfold make at h
  split_ifs at h with hrange
  cases h
  have hle : length.toNat ≤ capacity.toNat := by omega
  refine ⟨hrange, ?_, ?_⟩
  · rw [content, List.drop_zero, List.take_replicate, min_eq_left hle]
  · simp only [Slice.capacity, List.length_replicate]
    omega

/-- A slice expression within the window. -/
theorem exists_slice (s : Slice α) {first last : Int} (hfirst : 0 ≤ first) (hle : first ≤ last)
    (hlast : last ≤ s.length) :
    ∃ s', s.slice first last = some s' ∧
      s'.content = (s.content.take last.toNat).drop first.toNat ∧
      s'.capacity = s.capacity - first.toNat := by
  have hcapacity := s.length_le_capacity
  unfold slice
  rw [dif_pos ⟨hfirst, hle, by omega⟩]
  refine ⟨_, rfl, ?_, ?_⟩
  · simp only [content]
    rw [List.take_take, List.drop_take, List.drop_drop, min_eq_left (by omega)]
    congr 1
    omega
  · simp only [capacity]
    omega

/-- The content after `copy`. -/
theorem content_copy (s : Slice α) (values : List α) :
    (s.copy values).content = values.take s.length ++ s.content.drop values.length := by
  have hfits := s.fits
  have hlow : (s.array.take s.low).length = s.low := by
    rw [List.length_take]
    omega
  simp only [content, copy, List.append_assoc]
  rw [List.drop_append_of_le_length hlow.ge, List.drop_of_length_le hlow.le, List.nil_append,
    List.take_append, List.take_take, min_self, List.length_take, List.drop_take, List.drop_drop]
  rcases Nat.le_total s.length values.length with hlong | hshort
  · rw [min_eq_left hlong, Nat.sub_self, Nat.sub_eq_zero_of_le hlong, List.take_zero,
      List.take_zero]
  · rw [min_eq_right hshort]

/-- `copy` keeps the capacity. -/
theorem capacity_copy (s : Slice α) (values : List α) :
    (s.copy values).capacity = s.capacity := by
  have hfits := s.fits
  simp only [capacity, copy, List.length_append, List.length_take, List.length_drop]
  omega

/-- The elements from a place on are moved to the front, and the slice is cut behind them. -/
theorem exists_shift (s : Slice α) {first : Int} (hfirst : 0 ≤ first) (hle : first ≤ s.length) :
    ∃ rest shifted, s.slice first s.length = some rest ∧
      (s.copy rest.content).slice 0 ((s.copy rest.content).length - first) = some shifted ∧
      shifted.content = s.content.drop first.toNat ∧ shifted.capacity = s.capacity := by
  obtain ⟨rest, hrest, hcontent, -⟩ := s.exists_slice hfirst hle le_rfl
  have hlength : (s.copy rest.content).length = s.length := rfl
  have hnonneg : (0 : Int) ≤ (s.copy rest.content).length - first := by
    rw [hlength]
    omega
  obtain ⟨shifted, hshifted, hcut, hcapacity⟩ :=
    (s.copy rest.content).exists_slice le_rfl hnonneg (by omega)
  refine ⟨rest, shifted, hrest, hshifted, ?_, ?_⟩
  · have hmoved : rest.content = s.content.drop first.toNat := by
      rw [hcontent, Int.toNat_natCast, ← s.length_content, List.take_length]
    have hsize : ((s.copy rest.content).length - first).toNat = rest.content.length := by
      rw [hlength, hmoved, List.length_drop, length_content]
      omega
    have hfew : rest.content.length ≤ s.length := by
      rw [hmoved, List.length_drop, length_content]
      exact Nat.sub_le _ _
    rw [hcut, hsize, content_copy, Int.toNat_zero, List.drop_zero, List.take_of_length_le hfew,
      List.take_append_of_le_length le_rfl, List.take_length, hmoved]
  · rw [hcapacity, capacity_copy, Int.toNat_zero, Nat.sub_zero]

/-- The content after `append`. -/
theorem content_append (s : Slice α) (values : List α) :
    (s.append values).content = s.content ++ values := by
  have hfits := s.fits
  unfold append
  split_ifs with hroom
  · simp only [content]
    rw [List.append_assoc, List.drop_append_of_le_length (by rw [List.length_take]; omega),
      ← List.take_drop, List.take_append, List.take_take, List.length_take, List.length_drop]
    rw [min_eq_right (by omega), min_eq_left (by omega), Nat.add_sub_cancel_left, List.take_append,
      List.take_length, Nat.sub_self, List.take_zero, List.append_nil]
  · exact content_whole _

/-- `append` keeps the capacity if there is room. -/
theorem capacity_append {values : List α} (hroom : s.length + values.length ≤ s.capacity) :
    (s.append values).capacity = s.capacity := by
  have hfits := s.fits
  unfold append
  rw [dif_pos hroom]
  unfold capacity at hroom
  simp only [capacity, List.length_append, List.length_take, List.length_drop]
  omega

end Slice

end CodexQueueBot.Go
