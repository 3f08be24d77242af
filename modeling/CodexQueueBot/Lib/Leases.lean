import Mathlib.Logic.Function.Basic

/-!
# Names that are held in a store

Parties create entries of a store under names that are free. They write to the entries that they
hold, remove them, or leave them to somebody else. `Leases` says who holds what: a name has one
holder, what is held was free at first and is there now, and what nobody holds is as it was. Every
operation keeps it; so the store differs from the first one only where somebody holds a name.
-/

set_option autoImplicit false
set_option relaxedAutoImplicit false

namespace CodexQueueBot.Lib

variable {ι K V : Type*}

/-- Who holds which names of a store that was another one at first. -/
structure Leases (first store : K → Option V) (held : ι → K → Prop) : Prop where
  exclusive : ∀ {i j : ι} {name : K}, held i name → held j name → i = j
  fresh : ∀ {i : ι} {name : K}, held i name → first name = none ∧ store name ≠ none
  kept : ∀ {name : K}, (∀ i, ¬ held i name) → store name = first name

namespace Leases

variable {first store : K → Option V} {held held' : ι → K → Prop} {i : ι} {name : K}

/-- At first nobody holds anything. -/
theorem initial (h : ∀ i name, ¬ held i name) : Leases first first held where
  exclusive := fun hi _ ↦ absurd hi (h _ _)
  fresh := fun hi ↦ absurd hi (h _ _)
  kept := fun _ ↦ rfl

/-- A name that is free is not held. -/
theorem not_held (h : Leases first store held) (hfree : store name = none) : ¬ held i name :=
  fun hi ↦ (h.fresh hi).2 hfree

/-- The same names held by the same parties. -/
theorem congr (h : Leases first store held) (hheld : ∀ i name, held' i name ↔ held i name) :
    Leases first store held' := by
  obtain rfl : held' = held := funext₂ fun i name ↦ propext (hheld i name)
  exact h

section

variable [DecidableEq K]

/-- An entry is created under a free name. -/
theorem acquire (h : Leases first store held) (hfree : store name = none) (value : V)
    (hheld : ∀ j other, held' j other ↔ held j other ∨ j = i ∧ other = name) :
    Leases first (Function.update store name (some value)) held' where
  exclusive := by
    intro j k other hj hk
    rcases (hheld j other).mp hj with hj | ⟨rfl, rfl⟩
    · rcases (hheld k other).mp hk with hk | ⟨-, rfl⟩
      · exact h.exclusive hj hk
      · exact absurd hj (h.not_held hfree)
    · rcases (hheld k other).mp hk with hk | ⟨rfl, -⟩
      · exact absurd hk (h.not_held hfree)
      · rfl
  fresh := by
    intro j other hj
    rcases (hheld j other).mp hj with hj | ⟨-, rfl⟩
    · have hne : other ≠ name := fun heq ↦ h.not_held hfree (heq ▸ hj)
      rw [Function.update_of_ne hne]
      exact h.fresh hj
    · rw [Function.update_self]
      have hfirst := h.kept fun j ↦ h.not_held (i := j) hfree
      exact ⟨hfirst.symm.trans hfree, Option.some_ne_none value⟩
  kept := by
    intro other hnone
    have hne : other ≠ name := fun heq ↦ hnone i ((hheld i other).mpr (.inr ⟨rfl, heq⟩))
    rw [Function.update_of_ne hne]
    exact h.kept fun j hj ↦ hnone j ((hheld j other).mpr (.inl hj))

/-- A holder writes to its entry. -/
theorem write (h : Leases first store held) (hi : held i name) (value : V) :
    Leases first (Function.update store name (some value)) held where
  exclusive := h.exclusive
  fresh := by
    intro j other hj
    refine ⟨(h.fresh hj).1, ?_⟩
    by_cases heq : other = name
    · rw [heq, Function.update_self]
      exact Option.some_ne_none value
    · rw [Function.update_of_ne heq]
      exact (h.fresh hj).2
  kept := by
    intro other hnone
    have hne : other ≠ name := fun heq ↦ hnone i (heq ▸ hi)
    rw [Function.update_of_ne hne]
    exact h.kept hnone

/-- A holder removes its entry. -/
theorem release (h : Leases first store held) (hi : held i name)
    (hheld : ∀ j other, held' j other ↔ held j other ∧ other ≠ name) :
    Leases first (Function.update store name none) held' where
  exclusive := fun hj hk ↦ h.exclusive ((hheld _ _).mp hj).1 ((hheld _ _).mp hk).1
  fresh := by
    intro j other hj
    obtain ⟨hj, hne⟩ := (hheld j other).mp hj
    rw [Function.update_of_ne hne]
    exact h.fresh hj
  kept := by
    intro other hnone
    by_cases heq : other = name
    · rw [heq, Function.update_self]
      exact (h.fresh hi).1.symm
    · rw [Function.update_of_ne heq]
      exact h.kept fun j hj ↦ hnone j ((hheld j other).mpr ⟨hj, heq⟩)

end

/-- A holder leaves its entry to somebody else. -/
theorem leave {j : ι} (h : Leases first store held) (hi : held i name)
    (hheld : ∀ k other, held' k other ↔ held k other ∧ other ≠ name ∨ k = j ∧ other = name) :
    Leases first store held' where
  exclusive := by
    intro k l other hk hl
    rcases (hheld k other).mp hk with ⟨hk, hne⟩ | ⟨rfl, heq⟩
    · rcases (hheld l other).mp hl with ⟨hl, -⟩ | ⟨-, heq⟩
      · exact h.exclusive hk hl
      · exact absurd heq hne
    · rcases (hheld l other).mp hl with ⟨-, hne⟩ | ⟨rfl, -⟩
      · exact absurd heq hne
      · rfl
  fresh := by
    intro k other hk
    rcases (hheld k other).mp hk with ⟨hk, -⟩ | ⟨-, rfl⟩
    · exact h.fresh hk
    · exact h.fresh hi
  kept := by
    intro other hnone
    refine h.kept fun k hk ↦ ?_
    by_cases heq : other = name
    · exact hnone j ((hheld j other).mpr (.inr ⟨rfl, heq⟩))
    · exact hnone k ((hheld k other).mpr (.inl ⟨hk, heq⟩))

end Leases

end CodexQueueBot.Lib
