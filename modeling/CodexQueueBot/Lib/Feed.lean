import Mathlib.Data.List.Basic
import Mathlib.Tactic.SplitIfs

/-!
# Feeds

A feed passes values on to its observers. Each of them has a channel with a buffer, and a place in
the map of the feed until it is removed. A value is offered to the observers of the map without
waiting: one whose buffer is full is removed and its channel closed. An observer can also be removed
from outside. To send on a closed channel, or to close it again, is a panic.

`Follows` is the invariant of one observer: what it has received and what is in its buffer are the
first values that were published since it was registered, and all of them while it is registered;
and its channel is open exactly as long. A step of a system treats an observer in one of the ways of
`Moves`, and each of them keeps the invariant.
-/

set_option autoImplicit false
set_option relaxedAutoImplicit false

namespace CodexQueueBot.Lib

variable {α : Type*}

/-- The channel of an observer, and whether the observer is in the map of the feed. -/
structure Slot (α : Type*) where
  buffer : List α
  capacity : ℕ
  registered : Bool
  closed : Bool
  deriving DecidableEq

namespace Slot

variable {slot slot' : Slot α} {history received published taken : List α} {closes : Prop}

/-- A value is offered to an observer. -/
def offer (slot : Slot α) (value : α) : Slot α :=
  if slot.registered then
    if slot.buffer.length < slot.capacity then { slot with buffer := slot.buffer ++ [value] }
    else { slot with registered := false, closed := true }
  else slot

/-- An observer is removed from outside. -/
def cancel (slot : Slot α) : Slot α :=
  if slot.registered then { slot with registered := false, closed := true } else slot

/-- The channel of an observer is used where the observer is in the map; there is no result if the
channel is closed already. -/
def guarded (slot : Slot α) (use : Slot α → Slot α) : Option (Slot α) :=
  if slot.registered ∧ slot.closed then none else some (use slot)

/-- What an observer has received and what is left in its buffer, against the values that were
published since its registration. -/
structure Follows (slot : Slot α) (history received : List α) : Prop where
  first : received ++ slot.buffer <+: history
  all : slot.registered = true → received ++ slot.buffer = history
  opened : slot.closed = !slot.registered

/-- What a step does to an observer: nothing, an offer, a removal from outside, or a receive. -/
inductive Moves (slot : Slot α) (published taken : List α) (closes : Prop) : Slot α → Prop
  | rest (hpublished : published = []) (htaken : taken = []) :
      Moves slot published taken closes slot
  | offer (value : α) (hpublished : published = [value]) (htaken : taken = []) :
      Moves slot published taken closes (slot.offer value)
  | cancel (hcloses : closes) (hpublished : published = []) (htaken : taken = []) :
      Moves slot published taken closes slot.cancel
  | receive (hpublished : published = []) (htaken : taken = slot.buffer.take 1) :
      Moves slot published taken closes { slot with buffer := slot.buffer.tail }

/-- A new observer. -/
theorem follows_new (capacity : ℕ) : Follows (α := α) ⟨[], capacity, true, false⟩ [] [] :=
  ⟨List.prefix_refl _, fun _ ↦ rfl, rfl⟩

/-- An offer. -/
theorem Follows.offer (h : slot.Follows history received) (value : α) :
    (slot.offer value).Follows (history ++ [value]) received := by
  have hlonger : received ++ slot.buffer <+: history ++ [value] :=
    h.first.trans (List.prefix_append _ _)
  rw [Slot.offer]
  split_ifs with hregistered hroom
  · have hgrown : received ++ (slot.buffer ++ [value]) = history ++ [value] := by
      rw [← List.append_assoc, h.all hregistered]
    exact ⟨hgrown ▸ List.prefix_refl _, fun _ ↦ hgrown, h.opened⟩
  · exact ⟨hlonger, fun hnone ↦ (by cases hnone), rfl⟩
  · exact ⟨hlonger, fun hstill ↦ absurd hstill hregistered, h.opened⟩

/-- A removal from outside. -/
theorem Follows.cancel (h : slot.Follows history received) :
    slot.cancel.Follows history received := by
  rw [Slot.cancel]
  split_ifs
  · exact ⟨h.first, fun hnone ↦ (by cases hnone), rfl⟩
  · exact h

/-- A receive. -/
theorem Follows.receive (h : slot.Follows history received) :
    Follows { slot with buffer := slot.buffer.tail } history
      (received ++ slot.buffer.take 1) := by
  have hsame : received ++ slot.buffer.take 1 ++ slot.buffer.tail = received ++ slot.buffer := by
    rw [List.append_assoc, ← List.drop_one, List.take_append_drop]
  constructor
  · rw [hsame]
    exact h.first
  · intro hregistered
    rw [hsame]
    exact h.all hregistered
  · exact h.opened

/-- Every move keeps the invariant. -/
theorem Follows.move (h : slot.Follows history received)
    (hmoves : slot.Moves published taken closes slot') :
    slot'.Follows (history ++ published) (received ++ taken) := by
  cases hmoves with
  | rest hpublished htaken =>
    rw [hpublished, htaken, List.append_nil, List.append_nil]
    exact h
  | offer value hpublished htaken =>
    rw [hpublished, htaken, List.append_nil]
    exact h.offer value
  | cancel _ hpublished htaken =>
    rw [hpublished, htaken, List.append_nil, List.append_nil]
    exact h.cancel
  | receive hpublished htaken =>
    rw [hpublished, htaken, List.append_nil]
    exact h.receive

/-- The channel of an observer is open as long as the observer is registered, after every move. -/
theorem Moves.opened (hmoves : slot.Moves published taken closes slot')
    (h : slot.closed = !slot.registered) : slot'.closed = !slot'.registered := by
  cases hmoves with
  | rest => exact h
  | offer value =>
    rw [Slot.offer]
    split_ifs
    · exact h
    · rfl
    · exact h
  | cancel =>
    rw [Slot.cancel]
    split_ifs
    · rfl
    · exact h
  | receive => exact h

/-- An observer is removed by a value that its buffer has no room for, or from outside. -/
theorem Moves.removed (hmoves : slot.Moves published taken closes slot')
    (hbefore : slot.registered = true) (hafter : slot'.registered = false) :
    (slot.capacity ≤ slot.buffer.length ∧ published ≠ []) ∨ closes := by
  cases hmoves with
  | rest =>
    rw [hbefore] at hafter
    cases hafter
  | offer value hpublished =>
    rw [Slot.offer, if_pos hbefore] at hafter
    split_ifs at hafter with hroom
    · rw [hbefore] at hafter
      cases hafter
    · exact Or.inl ⟨Nat.not_lt.mp hroom, by simp [hpublished]⟩
  | cancel hcloses => exact Or.inr hcloses
  | receive =>
    rw [hbefore] at hafter
    cases hafter

/-- A channel that is open as long as its observer is registered is never used after it was
closed. -/
theorem guarded_of_opened (h : slot.closed = !slot.registered) (use : Slot α → Slot α) :
    slot.guarded use = some (use slot) := by
  rw [guarded, h]
  cases slot.registered <;> rfl

end Slot

end CodexQueueBot.Lib
