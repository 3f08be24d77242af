import Mathlib.Data.List.AList

/-!
# Finite maps

A table is a finite map without order, represented by an association list with distinct keys. The
rules below say what a lookup finds after an insertion, a deletion and a selection.
-/

set_option autoImplicit false
set_option relaxedAutoImplicit false

namespace CodexQueueBot.Lib

/-- A finite map from keys to values. -/
abbrev Table (K V : Type*) := AList fun _ : K ↦ V

namespace Table

variable {K V : Type*} [DecidableEq K]

/-- What a lookup finds after an insertion. -/
theorem lookup_insert_apply (table : Table K V) (key other : K) (value : V) :
    (table.insert key value).lookup other = if other = key then some value
      else table.lookup other := by
  split_ifs with h
  · subst h
    exact AList.lookup_insert table
  · exact AList.lookup_insert_ne h

/-- What a lookup finds after a deletion. -/
theorem lookup_erase_apply (table : Table K V) (key other : K) :
    (table.erase key).lookup other = if other = key then none else table.lookup other := by
  split_ifs with h
  · subst h
    exact AList.lookup_erase other table
  · exact AList.lookup_erase_ne h

/-- The values that are found after an insertion. -/
theorem exists_lookup_insert (table : Table K V) (key : K) (value found : V) :
    (∃ other, (table.insert key value).lookup other = some found) ↔
      found = value ∨ ∃ other, other ≠ key ∧ table.lookup other = some found := by
  constructor
  · rintro ⟨other, hlookup⟩
    rw [lookup_insert_apply] at hlookup
    split_ifs at hlookup with heq
    · exact Or.inl (Option.some.inj hlookup).symm
    · exact Or.inr ⟨other, heq, hlookup⟩
  · rintro (rfl | ⟨other, hne, hlookup⟩)
    · exact ⟨key, AList.lookup_insert table⟩
    · exact ⟨other, by rwa [AList.lookup_insert_ne hne]⟩

/-- The values that are found after a deletion. -/
theorem exists_lookup_erase (table : Table K V) (key : K) (found : V) :
    (∃ other, (table.erase key).lookup other = some found) ↔
      ∃ other, other ≠ key ∧ table.lookup other = some found := by
  refine exists_congr fun other ↦ ?_
  rw [lookup_erase_apply]
  split_ifs with heq
  · simp [heq]
  · simp [heq]

/-- A key that a lookup finds is a key of the table. -/
theorem mem_of_lookup {table : Table K V} {key : K} {value : V}
    (h : table.lookup key = some value) : key ∈ table :=
  AList.lookup_isSome.mp (by rw [h]; rfl)

/-- A lookup finds every key of the table. -/
theorem exists_lookup_of_mem {table : Table K V} {key : K} (h : key ∈ table) :
    ∃ value, table.lookup key = some value :=
  Option.isSome_iff_exists.mp (AList.lookup_isSome.mpr h)

/-- A lookup does not find what is not a key. -/
theorem lookup_eq_none_of_notMem {table : Table K V} {key : K} (h : key ∉ table) :
    table.lookup key = none :=
  AList.lookup_eq_none.mpr h

/-- The values of a table are found elsewhere than under a key that is not in it. -/
theorem exists_lookup_ne {table : Table K V} {key : K} (hfree : key ∉ table) (found : V) :
    (∃ other, other ≠ key ∧ table.lookup other = some found) ↔
      ∃ other, table.lookup other = some found := by
  refine exists_congr fun other ↦ and_iff_right_of_imp ?_
  rintro hlookup rfl
  exact hfree (mem_of_lookup hlookup)

/-- Writing to a key of the table keeps the keys. -/
theorem mem_insert_of_lookup {table : Table K V} {key : K} {value : V}
    (h : table.lookup key = some value) (other : K) (new : V) :
    other ∈ table.insert key new ↔ other ∈ table := by
  rw [AList.mem_insert, or_iff_right_of_imp]
  rintro rfl
  exact mem_of_lookup h

/-- The entries of a table whose values pass a test. -/
def filter (table : Table K V) (test : V → Bool) : Table K V where
  entries := table.entries.filter fun entry ↦ test entry.2
  nodupKeys := table.nodupKeys.sublist List.filter_sublist

/-- What a lookup finds among the entries that pass a test. -/
theorem lookup_filter (table : Table K V) (test : V → Bool) (key : K) :
    (table.filter test).lookup key = (table.lookup key).filter test := by
  refine Option.ext fun value ↦ ?_
  rw [← Option.mem_def, AList.mem_lookup_iff, Option.filter_eq_some_iff, ← Option.mem_def,
    AList.mem_lookup_iff]
  exact List.mem_filter

/-- The values of a table. -/
def values (table : Table K V) : List V :=
  table.entries.map (·.2)

end Table

end CodexQueueBot.Lib
