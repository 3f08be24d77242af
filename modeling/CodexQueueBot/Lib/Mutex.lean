import CodexQueueBot.Lib.Pool

/-!
# Invariants of a mutex

Processes work on a state that a mutex protects. While the mutex is free the state is in order. The
process that holds it may leave the state in disorder for a while: its program point says what it
has left, by an assertion of its own. `Guarded` puts this together, and it is kept by the steps of
all processes according to the rules below. A process that takes the mutex finds the state in order
and has to establish its assertion; it goes from one assertion to the next; and it puts the state in
order before it releases the mutex. Processes outside, and whatever else changes the state, keep the
order and every assertion.

That at most one process is in the critical section follows, and the rules use it: the steps of the
holder need not care about the assertions of others.
-/

set_option autoImplicit false
set_option relaxedAutoImplicit false

namespace CodexQueueBot.Lib

variable {P S : Type*}

/-- The owner of the critical section holds the mutex, and its assertion holds; the state is in
order while the mutex is free. -/
structure Guarded (owns : P → Prop) (inOrder : S → Prop) (asserts : P → S → Prop)
    (mutex : Option ℕ) (pool : List P) (state : S) : Prop where
  held : ∀ (i : ℕ) (p : P), pool[i]? = some p → owns p → mutex = some i ∧ asserts p state
  free : mutex = none → inOrder state

namespace Guarded

variable {owns : P → Prop} {inOrder : S → Prop} {asserts : P → S → Prop} {mutex : Option ℕ}
  {pool : List P} {state state' : S} {i : ℕ} {p p' : P}

/-- Without processes, the state has to be in order. -/
theorem nil (hstate : inOrder state) : Guarded owns inOrder asserts none [] state where
  held i p hget := by simp at hget
  free _ := hstate

/-- At most one process owns the critical section. -/
theorem exclusive (h : Guarded owns inOrder asserts mutex pool state) {j : ℕ} {q : P}
    (hp : pool[i]? = some p) (hq : pool[j]? = some q) (howns : owns p) (howns' : owns q) :
    i = j := by
  obtain ⟨hheld, -⟩ := h.held i p hp howns
  obtain ⟨hheld', -⟩ := h.held j q hq howns'
  exact Option.some.inj (hheld.symm.trans hheld')

/-- The state changes, but stays in order, and every assertion still holds. -/
theorem keep (h : Guarded owns inOrder asserts mutex pool state)
    (hstate : inOrder state → inOrder state')
    (hasserts : ∀ p ∈ pool, owns p → asserts p state → asserts p state') :
    Guarded owns inOrder asserts mutex pool state' where
  held i p hget howns := by
    obtain ⟨hheld, hassert⟩ := h.held i p hget howns
    exact ⟨hheld, hasserts p (List.mem_of_getElem? hget) howns hassert⟩
  free hfree := hstate (h.free hfree)

/-- Processes begin outside. -/
theorem append (h : Guarded owns inOrder asserts mutex pool state) {arrived : List P}
    (houtside : ∀ p ∈ arrived, ¬ owns p) :
    Guarded owns inOrder asserts mutex (pool ++ arrived) state where
  held i p hget howns := by
    rw [List.getElem?_append] at hget
    split_ifs at hget
    · exact h.held i p hget howns
    · exact absurd howns (houtside p (List.mem_of_getElem? hget))
  free := h.free

/-- A process goes on outside. -/
theorem outside (h : Guarded owns inOrder asserts mutex pool state) (houtside : ¬ owns p') :
    Guarded owns inOrder asserts mutex (pool.set i p') state where
  held j q hget howns := by
    rcases Pool.getElem?_set_cases hget with ⟨rfl, rfl⟩ | ⟨-, hget⟩
    · exact absurd howns houtside
    · exact h.held j q hget howns
  free := h.free

/-- A process takes the free mutex. -/
theorem acquire (h : Guarded owns inOrder asserts none pool state)
    (hnext : inOrder state → asserts p' state) :
    Guarded owns inOrder asserts (some i) (pool.set i p') state where
  held j q hget howns := by
    rcases Pool.getElem?_set_cases hget with ⟨rfl, rfl⟩ | ⟨-, hget⟩
    · exact ⟨rfl, hnext (h.free rfl)⟩
    · obtain ⟨hheld, -⟩ := h.held j q hget howns
      cases hheld
  free hfree := by cases hfree

/-- The owner of the critical section takes a step in it. -/
theorem step (h : Guarded owns inOrder asserts mutex pool state) (hget : pool[i]? = some p)
    (howns : owns p) (hnext : asserts p state → asserts p' state') :
    Guarded owns inOrder asserts mutex (pool.set i p') state' where
  held j q hget' howns' := by
    obtain ⟨hheld, hassert⟩ := h.held i p hget howns
    rcases Pool.getElem?_set_cases hget' with ⟨rfl, rfl⟩ | ⟨hne, hget'⟩
    · exact ⟨hheld, hnext hassert⟩
    · exact absurd (h.exclusive hget' hget howns' howns) hne
  free hfree := by
    obtain ⟨hheld, -⟩ := h.held i p hget howns
    rw [hheld] at hfree
    cases hfree

/-- The owner of the critical section releases the mutex. -/
theorem release (h : Guarded owns inOrder asserts mutex pool state) (hget : pool[i]? = some p)
    (howns : owns p) (houtside : ¬ owns p') (hnext : asserts p state → inOrder state') :
    Guarded owns inOrder asserts none (pool.set i p') state' where
  held j q hget' howns' := by
    rcases Pool.getElem?_set_cases hget' with ⟨rfl, rfl⟩ | ⟨hne, hget'⟩
    · exact absurd howns' houtside
    · exact absurd (h.exclusive hget' hget howns' howns) hne
  free _ := hnext (h.held i p hget howns).2

end Guarded

end CodexQueueBot.Lib
