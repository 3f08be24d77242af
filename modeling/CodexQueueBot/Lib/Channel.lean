import Mathlib.Data.Set.Basic

/-!
# Channels that are closed and replaced

A condition variable made of channels: whoever finds a condition that makes it wait takes the
current channel and waits until it is closed; whoever changes the condition closes the current
channel and puts a new one in its place. A wait is sound as long as the channel it was begun with is
the current one and the condition still holds, or the channel is closed. `Awaits` states this, and
`Awaits.passes` is the rule for a step: the step either keeps the channel together with the
condition, or closes and replaces it.
-/

set_option autoImplicit false
set_option relaxedAutoImplicit false

namespace CodexQueueBot.Lib

/-- The channels made so far, numbered in the order of their creation, and those that are closed. -/
structure Channels where
  next : ℕ
  closed : Set ℕ

namespace Channels

variable {a b c : Channels} {old mid new channel current : ℕ} {kept kept' condition after : Prop}

/-- Channels are made and closed, and never opened again. -/
structure Grows (a b : Channels) : Prop where
  next : a.next ≤ b.next
  closed : a.closed ⊆ b.closed

/-- What a step does to a current channel: it keeps the channel, and then what is to be kept is
kept, or it closes the channel and puts a new one in its place. -/
def Passes (a b : Channels) (old new : ℕ) (kept : Prop) : Prop :=
  (new = old ∧ kept) ∨ (old ∈ b.closed ∧ a.next ≤ new ∧ new < b.next)

/-- A wait on a channel: the channel is current and the condition for waiting holds, or it is
closed. -/
def Awaits (a : Channels) (channel current : ℕ) (condition : Prop) : Prop :=
  channel < a.next ∧
    ((channel = current ∧ condition) ∨ (channel ≠ current ∧ channel ∈ a.closed))

/-- No step is taken. -/
theorem Grows.refl (a : Channels) : a.Grows a :=
  ⟨le_rfl, subset_rfl⟩

/-- Two steps are taken. -/
theorem Grows.trans (hfirst : a.Grows b) (hsecond : b.Grows c) : a.Grows c :=
  ⟨hfirst.next.trans hsecond.next, hfirst.closed.trans hsecond.closed⟩

/-- A channel is kept. -/
theorem Passes.keep (h : kept) : a.Passes b old old kept :=
  Or.inl ⟨rfl, h⟩

/-- A channel passes through two steps. -/
theorem Passes.trans (hgrows : a.Grows b) (hgrows' : b.Grows c) (hfirst : a.Passes b old mid kept)
    (hsecond : b.Passes c mid new kept') : a.Passes c old new (kept ∧ kept') := by
  rcases hfirst with ⟨rfl, hkept⟩ | ⟨hclosed, hnext, hlt⟩
  · rcases hsecond with ⟨rfl, hkept'⟩ | ⟨hclosed', hnext', hlt'⟩
    · exact Or.inl ⟨rfl, hkept, hkept'⟩
    · exact Or.inr ⟨hclosed', hgrows.next.trans hnext', hlt'⟩
  · refine Or.inr ⟨hgrows'.closed hclosed, ?_⟩
    rcases hsecond with ⟨rfl, -⟩ | ⟨-, hnext', hlt'⟩
    · exact ⟨hnext, hlt.trans_le hgrows'.next⟩
    · exact ⟨hgrows.next.trans hnext', hlt'⟩

/-- What is kept may be weakened. -/
theorem Passes.imp (himp : kept → kept') (h : a.Passes b old new kept) :
    a.Passes b old new kept' := by
  rcases h with ⟨heq, hkept⟩ | hreplaced
  · exact Or.inl ⟨heq, himp hkept⟩
  · exact Or.inr hreplaced

/-- The current channel is one of those made so far. -/
theorem Passes.lt (hgrows : a.Grows b) (h : a.Passes b old new kept) (hold : old < a.next) :
    new < b.next := by
  rcases h with ⟨rfl, -⟩ | ⟨-, -, hlt⟩
  · exact hold.trans_le hgrows.next
  · exact hlt

/-- A wait begins on the current channel while the condition holds. -/
theorem Awaits.begin (hlt : current < a.next) (hcondition : condition) :
    a.Awaits current current condition :=
  ⟨hlt, Or.inl ⟨rfl, hcondition⟩⟩

/-- A wait goes on through a step. -/
theorem Awaits.passes (h : a.Awaits channel old condition) (hgrows : a.Grows b)
    (hpasses : a.Passes b old new (condition → after)) : b.Awaits channel new after := by
  obtain ⟨hlt, hwait⟩ := h
  refine ⟨hlt.trans_le hgrows.next, ?_⟩
  rcases hpasses with ⟨rfl, hkept⟩ | ⟨hclosed, hnext, -⟩
  · exact hwait.imp (fun hcurrent ↦ ⟨hcurrent.1, hkept hcurrent.2⟩)
      fun hother ↦ ⟨hother.1, hgrows.closed hother.2⟩
  · -- The new channel is younger than the one waited on, which is closed by now.
    refine Or.inr ⟨(hlt.trans_le hnext).ne, ?_⟩
    rcases hwait with ⟨rfl, -⟩ | ⟨-, hmem⟩
    · exact hclosed
    · exact hgrows.closed hmem

/-- A wait on the current channel is justified. -/
theorem Awaits.justified (h : a.Awaits current current condition) : condition := by
  rcases h.2 with ⟨-, hcondition⟩ | ⟨hne, -⟩
  · exact hcondition
  · exact absurd rfl hne

/-- A wait that is not justified is on a closed channel. -/
theorem Awaits.closed (h : a.Awaits channel current condition) (hnot : ¬ condition) :
    channel ∈ a.closed :=
  h.2.elim (fun hcurrent ↦ absurd hcurrent.2 hnot) fun hother ↦ hother.2

end Channels

/-! ### Numbered channels -/

section

variable {channel current : ℕ} {condition after : Prop}

/-- A wait where the channels are numbered and all but the last are closed: as long as the channel
is the last one, the condition for waiting holds. -/
def Attends (channel current : ℕ) (condition : Prop) : Prop :=
  channel ≤ current ∧ (channel = current → condition)

/-- The last channel is taken while the condition holds. -/
theorem Attends.capture (h : condition) : Attends current current condition :=
  ⟨le_rfl, fun _ ↦ h⟩

/-- A wait goes on under a condition that follows from the one it had. -/
theorem Attends.keep (h : Attends channel current condition) (himp : condition → after) :
    Attends channel current after :=
  ⟨h.1, fun heq ↦ himp (h.2 heq)⟩

/-- A channel is closed and replaced, whatever becomes of the condition. -/
theorem Attends.signal (h : Attends channel current condition) :
    Attends channel (current + 1) after :=
  ⟨h.1.trans (Nat.le_succ current), fun heq ↦ absurd heq (Nat.lt_succ_of_le h.1).ne⟩

end

end CodexQueueBot.Lib
