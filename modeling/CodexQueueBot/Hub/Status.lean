import CodexQueueBot.Go.Strings
import Mathlib.Data.List.Basic

/-!
# The status of a message client

A `StatusStore` holds the status that is shown for a client, and passes every change on to its
observers. An observer reads from a channel with a buffer. A change that does not fit into the
buffer deletes the observer from the map of the store and closes its channel, and so does the end of
a subscription; what the buffer holds by then can still be read. Observers are numbered in the order
of their registration. The time of a change is left out.

`Shows` says where the statuses come from that an observer can get to see, and the lemmas about it
say that they are those the store has had.
-/

set_option autoImplicit false
set_option relaxedAutoImplicit false

namespace CodexQueueBot.Hub

open Go

/-- `Status`. -/
inductive Status
  | disabled
  | connecting
  | connected
  | reconnecting
  | unauthorized
  deriving DecidableEq, Repr

/-- `StatusSnapshot`. -/
structure StatusSnapshot where
  state : Status
  error : String
  deriving DecidableEq, Repr

/-- The channel of a subscription, and whether it is still in the map of the store. -/
structure Updates where
  queue : List StatusSnapshot
  capacity : ℕ
  registered : Bool
  closed : Bool
  deriving DecidableEq, Repr

/-- A change is sent to a channel of the map without waiting: one that is full is deleted from the
map and closed instead. -/
def Updates.offer (updates : Updates) (snapshot : StatusSnapshot) : Updates :=
  if updates.registered then
    if updates.queue.length < updates.capacity then
      { updates with queue := updates.queue ++ [snapshot] }
    else { updates with registered := false, closed := true }
  else updates

/-- The end of a subscription: a channel of the map is deleted from it and closed. -/
def Updates.cancel (updates : Updates) : Updates :=
  if updates.registered then { updates with registered := false, closed := true } else updates

/-- What a receive finds: the next change, or `none` at the end of a closed channel. It waits on an
open channel without changes. -/
def Updates.receive (updates : Updates) : Option (Option StatusSnapshot × Updates) :=
  match updates.queue with
  | snapshot :: queue => some (some snapshot, { updates with queue })
  | [] => if updates.closed then some (none, updates) else none

/-- `StatusStore`. -/
structure StatusStore where
  snapshot : StatusSnapshot
  observers : List Updates
  deriving DecidableEq, Repr

namespace StatusStore

/-- `NewStatusStore`. -/
def new (initial : Status) : StatusStore :=
  ⟨⟨initial, ""⟩, []⟩

/-- `Observe`: the snapshot, the number of the observer, and the store with it. -/
def observe (store : StatusStore) (buffer : Int) : StatusSnapshot × ℕ × StatusStore :=
  let capacity := if buffer ≤ 0 then 8 else buffer.toNat
  (store.snapshot, store.observers.length,
    { store with observers := store.observers ++ [⟨[], capacity, true, false⟩] })

/-- `StatusSubscription.Close`. -/
def close (store : StatusStore) (observer : ℕ) : StatusStore :=
  { store with observers := store.observers.modify observer (·.cancel) }

/-- `Set`. -/
def set (store : StatusStore) (state : Status) (errorText : String) : StatusStore :=
  let errorText := Strings.trimSpace errorText
  let errorText := if 600 < errorText.toList.length then
    String.ofList (errorText.toList.take 600) ++ "…" else errorText
  let snapshot : StatusSnapshot := ⟨state, errorText⟩
  { snapshot, observers := store.observers.map (·.offer snapshot) }

/-- The state that a change sets. -/
@[simp] theorem set_state (store : StatusStore) (state : Status) (errorText : String) :
    (store.set state errorText).snapshot.state = state := by
  simp only [set]

/-- A receive of an observer. -/
def receive (store : StatusStore) (observer : ℕ) :
    Option (Option StatusSnapshot × StatusStore) := do
  let updates ← store.observers[observer]?
  let (update, updates) ← updates.receive
  return (update, { store with observers := store.observers.set observer updates })

/-! ### What observers see -/

/-- The statuses that an observer can get to see: the one of the store and those in the buffers. -/
def Shows (store : StatusStore) (snapshot : StatusSnapshot) : Prop :=
  snapshot = store.snapshot ∨ ∃ updates ∈ store.observers, snapshot ∈ updates.queue

variable {store : StatusStore} {snapshot : StatusSnapshot}

/-- A new store shows its initial status. -/
theorem shows_new {initial : Status} (h : (new initial).Shows snapshot) :
    snapshot = ⟨initial, ""⟩ := by
  rcases h with hsame | ⟨updates, hmem, -⟩
  · exact hsame
  · exact absurd hmem List.not_mem_nil

/-- A new observer sees nothing else. -/
theorem shows_observe {buffer : Int} (h : (store.observe buffer).2.2.Shows snapshot) :
    store.Shows snapshot := by
  rcases h with hsame | ⟨updates, hmem, hqueue⟩
  · exact Or.inl hsame
  · rcases List.mem_append.mp hmem with hold | hnew
    · exact Or.inr ⟨updates, hold, hqueue⟩
    · rw [List.mem_singleton.mp hnew] at hqueue
      exact absurd hqueue List.not_mem_nil

/-- The end of a subscription leaves the buffer. -/
theorem queue_cancel (updates : Updates) : updates.cancel.queue = updates.queue := by
  rw [Updates.cancel]
  split_ifs <;> rfl

/-- The end of a subscription shows nothing else. -/
theorem shows_close {observer : ℕ} (h : (store.close observer).Shows snapshot) :
    store.Shows snapshot := by
  rcases h with hsame | ⟨updates, hmem, hqueue⟩
  · exact Or.inl hsame
  · obtain ⟨index, hindex⟩ := List.mem_iff_getElem?.mp hmem
    rw [close, List.getElem?_modify] at hindex
    obtain ⟨old, hold, rfl⟩ := Option.map_eq_some_iff.mp hindex
    refine Or.inr ⟨old, List.mem_of_getElem? hold, ?_⟩
    split_ifs at hqueue
    · exact queue_cancel old ▸ hqueue
    · exact hqueue

/-- An offer puts at most the offered status into a buffer. -/
theorem mem_offer {updates : Updates} {offered : StatusSnapshot}
    (h : snapshot ∈ (updates.offer offered).queue) :
    snapshot = offered ∨ snapshot ∈ updates.queue := by
  rw [Updates.offer] at h
  split_ifs at h
  · rcases List.mem_append.mp h with hbefore | hnew
    · exact Or.inr hbefore
    · exact Or.inl (List.mem_singleton.mp hnew)
  · exact Or.inr h
  · exact Or.inr h

/-- After a change, the new status is shown besides the old ones. -/
theorem shows_set {state : Status} {errorText : String}
    (h : (store.set state errorText).Shows snapshot) :
    snapshot = (store.set state errorText).snapshot ∨ store.Shows snapshot := by
  rcases h with hsame | ⟨updates, hmem, hqueue⟩
  · exact Or.inl hsame
  · obtain ⟨old, hold, rfl⟩ := List.mem_map.mp hmem
    rcases mem_offer hqueue with hnew | hbefore
    · exact Or.inl hnew
    · exact Or.inr (Or.inr ⟨old, hold, hbefore⟩)

/-- A receive finds a status that was shown, and leaves nothing else. -/
theorem shows_receive {observer : ℕ} {update : Option StatusSnapshot} {after : StatusStore}
    (h : store.receive observer = some (update, after)) :
    (∀ found, update = some found → store.Shows found) ∧
      ∀ snapshot, after.Shows snapshot → store.Shows snapshot := by
  rw [receive] at h
  simp only [Option.bind_eq_bind, Option.bind_eq_some_iff, Prod.exists, Option.some.injEq,
    Prod.mk.injEq, Option.pure_def] at h
  obtain ⟨updates, hobserver, found, left, hreceive, rfl, rfl⟩ := h
  have hmem := List.mem_of_getElem? hobserver
  have hqueue : (∀ snapshot, found = some snapshot → snapshot ∈ updates.queue) ∧
      ∀ snapshot ∈ left.queue, snapshot ∈ updates.queue := by
    rw [Updates.receive] at hreceive
    split at hreceive
    next first rest hcons =>
      obtain ⟨rfl, rfl⟩ := Prod.mk.inj (Option.some.inj hreceive)
      rw [hcons]
      refine ⟨fun snapshot hfirst ↦ ?_, fun snapshot hrest ↦ List.mem_cons_of_mem _ hrest⟩
      rw [← Option.some.inj hfirst]
      exact List.mem_cons_self
    next hnil =>
      split_ifs at hreceive
      obtain ⟨rfl, rfl⟩ := Prod.mk.inj (Option.some.inj hreceive)
      exact ⟨fun snapshot hnone ↦ (by cases hnone), fun snapshot hrest ↦ hrest⟩
  refine ⟨fun snapshot hfound ↦ Or.inr ⟨updates, hmem, hqueue.1 snapshot hfound⟩, ?_⟩
  rintro snapshot (hsame | ⟨other, hother, hseen⟩)
  · exact Or.inl hsame
  · rcases List.mem_or_eq_of_mem_set hother with hold | rfl
    · exact Or.inr ⟨other, hold, hseen⟩
    · exact Or.inr ⟨updates, hmem, hqueue.2 snapshot hseen⟩

end StatusStore

end CodexQueueBot.Hub
