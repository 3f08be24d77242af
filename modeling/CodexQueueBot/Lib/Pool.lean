import Mathlib.Data.List.Basic

/-!
# Pools of processes

A pool is a list of processes in the order in which they were created; a process is addressed by
its position, which never changes, and a step of one process rewrites one entry. This module counts
the entries with a property: rewriting one entry changes a count only through that entry.
-/

set_option autoImplicit false
set_option relaxedAutoImplicit false

namespace CodexQueueBot.Lib.Pool

variable {P : Type*} {pool : List P} {i : ℕ} {old new : P}

/-- Rewriting an entry without changing a property keeps the number of entries with it. -/
theorem countP_set_of_eq {property : P → Bool} (hold : pool[i]? = some old)
    (heq : property new = property old) :
    (pool.set i new).countP property = pool.countP property := by
  obtain ⟨hlt, hget⟩ := List.getElem?_eq_some_iff.mp hold
  have hpos : property old = true → 0 < pool.countP property := fun h ↦
    List.countP_pos_iff.mpr ⟨old, hget ▸ List.getElem_mem hlt, h⟩
  rw [List.countP_set hlt, hget, heq]
  by_cases h : property old = true
  · have := hpos h
    simp only [h, if_true]
    omega
  · simp [h]

/-- Rewriting an entry that lacks a property by one that has it adds one to the count. -/
theorem countP_set_of_gain {property : P → Bool} (hold : pool[i]? = some old)
    (hlacks : property old = false) (hhas : property new = true) :
    (pool.set i new).countP property = pool.countP property + 1 := by
  obtain ⟨hlt, hget⟩ := List.getElem?_eq_some_iff.mp hold
  rw [List.countP_set hlt, hget]
  simp [hlacks, hhas]

/-- Rewriting an entry that has a property by one that lacks it takes one from the count. -/
theorem countP_set_of_loss {property : P → Bool} (hold : pool[i]? = some old)
    (hhas : property old = true) (hlacks : property new = false) :
    (pool.set i new).countP property + 1 = pool.countP property := by
  obtain ⟨hlt, hget⟩ := List.getElem?_eq_some_iff.mp hold
  have hpos : 0 < pool.countP property :=
    List.countP_pos_iff.mpr ⟨old, hget ▸ List.getElem_mem hlt, hhas⟩
  rw [List.countP_set hlt, hget]
  simp only [hhas, hlacks, if_true, Bool.false_eq_true, if_false]
  omega

/-- The change of a count when one entry is rewritten. -/
theorem countP_set_add (property : P → Bool) (new : P) (hold : pool[i]? = some old) :
    (pool.set i new).countP property + (property old).toNat =
      pool.countP property + (property new).toNat := by
  cases hbefore : property old <;> cases hafter : property new
  · rw [countP_set_of_eq hold (hafter.trans hbefore.symm)]
  · rw [countP_set_of_gain hold hbefore hafter]
    rfl
  · exact countP_set_of_loss hold hbefore hafter
  · rw [countP_set_of_eq hold (hafter.trans hbefore.symm)]

/-- An entry with a property is counted. -/
theorem countP_pos_of_getElem? {property : P → Bool} (hold : pool[i]? = some old)
    (hhas : property old = true) : 0 < pool.countP property :=
  List.countP_pos_iff.mpr ⟨old, List.mem_of_getElem? hold, hhas⟩

/-- A property that is counted has an entry. -/
theorem exists_getElem?_of_countP_pos {property : P → Bool} (hpos : 0 < pool.countP property) :
    ∃ (j : ℕ) (entry : P), pool[j]? = some entry ∧ property entry = true := by
  obtain ⟨entry, hmem, hhas⟩ := List.countP_pos_iff.mp hpos
  obtain ⟨j, hj⟩ := List.mem_iff_getElem?.mp hmem
  exact ⟨j, entry, hj, hhas⟩

/-- The entries of a rewritten pool: the new entry at its position, the old ones elsewhere. -/
theorem getElem?_set_cases {j : ℕ} {entry : P} (h : (pool.set i new)[j]? = some entry) :
    (j = i ∧ entry = new) ∨ (j ≠ i ∧ pool[j]? = some entry) := by
  rw [List.getElem?_set] at h
  split_ifs at h with hij hlt
  · exact Or.inl ⟨hij.symm, (Option.some.inj h).symm⟩
  · exact Or.inr ⟨fun hji ↦ hij hji.symm, h⟩

/-- The entries of an extended pool: the new entry at the end, the old ones elsewhere. -/
theorem getElem?_concat_cases {j : ℕ} {entry : P} (h : (pool ++ [new])[j]? = some entry) :
    (j = pool.length ∧ entry = new) ∨ pool[j]? = some entry := by
  rw [List.getElem?_append] at h
  split_ifs at h with hlt
  · exact Or.inr h
  · have hzero : j - pool.length = 0 := by
      by_contra hne
      rw [List.getElem?_eq_none (by simp; omega)] at h
      cases h
    rw [hzero] at h
    exact Or.inl ⟨by omega, (Option.some.inj h).symm⟩

end CodexQueueBot.Lib.Pool
