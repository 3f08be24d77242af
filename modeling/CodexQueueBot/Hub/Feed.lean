import CodexQueueBot.Hub.Status
import CodexQueueBot.Jobs.Feed

/-!
# The feed of a status store

The observers of a `StatusStore` are those of a feed, whose values are the snapshots that `Set`
stores. The calls of `Set`, `Observe`, `Close` and the receives come in any order, since each of
them holds the lock of the store; the snapshots that were set are recorded beside the store.

`observers_gapFree` puts together what holds for the observers of a manager and of a status store.
-/

set_option autoImplicit false
set_option relaxedAutoImplicit false

namespace CodexQueueBot.Hub

open Lib

/-- An observer of a status store as one of a feed. -/
def Updates.slot (updates : Updates) : Slot StatusSnapshot :=
  ⟨updates.queue, updates.capacity, updates.registered, updates.closed⟩

/-- A change is offered to an observer. -/
theorem slot_offer (updates : Updates) (snapshot : StatusSnapshot) :
    (updates.offer snapshot).slot = updates.slot.offer snapshot := by
  by_cases hregistered : updates.registered = true
  · by_cases hroom : updates.queue.length < updates.capacity
    · simp [Updates.offer, Slot.offer, Updates.slot, hregistered, hroom]
    · simp [Updates.offer, Slot.offer, Updates.slot, hregistered, hroom]
  · simp [Updates.offer, Slot.offer, Updates.slot, hregistered]

/-- The end of a subscription removes an observer. -/
theorem slot_cancel (updates : Updates) : updates.cancel.slot = updates.slot.cancel := by
  by_cases hregistered : updates.registered = true
  · simp [Updates.cancel, Slot.cancel, Updates.slot, hregistered]
  · simp [Updates.cancel, Slot.cancel, Updates.slot, hregistered]

/-- A receive takes the first change out of a channel, if there is one. -/
theorem slot_receive {updates left : Updates} {update : Option StatusSnapshot}
    (h : updates.receive = some (update, left)) :
    left.slot = { updates.slot with buffer := updates.slot.buffer.tail } := by
  rw [Updates.receive] at h
  split at h
  next first rest hcons =>
    rw [← (Prod.mk.inj (Option.some.inj h)).2]
    simp [Updates.slot, hcons]
  next hnil =>
    split_ifs at h
    rw [← (Prod.mk.inj (Option.some.inj h)).2]
    simp [Updates.slot, hnil]

/-- A status store, with the snapshots that were set. -/
structure StatusFeed where
  store : StatusStore
  changes : List StatusSnapshot

namespace StatusFeed

/-- The calls on a status store, and the receives of its observers. -/
inductive Label
  | observe (buffer : Int)
  | set (state : Status) (errorText : String)
  | close (observer : ℕ)
  | receive (observer : ℕ)
  deriving DecidableEq, Repr

/-- A new store. -/
def new (initial : Status) : StatusFeed :=
  ⟨.new initial, []⟩

/-- One call or receive. -/
def step (s : StatusFeed) : Label → Option StatusFeed
  | .observe buffer => some { s with store := (s.store.observe buffer).2.2 }
  | .set state errorText =>
    let store := s.store.set state errorText
    some ⟨store, s.changes ++ [store.snapshot]⟩
  | .close observer => some { s with store := s.store.close observer }
  | .receive observer => (s.store.receive observer).map fun (_, store) ↦ { s with store }

/-- The snapshots that a step sets. -/
def published (s s' : StatusFeed) : List StatusSnapshot :=
  s'.changes.drop s.changes.length

/-- The snapshots that an observer receives in a step. -/
def received (i : ℕ) (s : StatusFeed) : Label → List StatusSnapshot
  | .receive observer =>
    if observer = i then (s.store.observers[i]?.map (·.queue.take 1)).getD [] else []
  | _ => []

variable {s s' : StatusFeed} {label : Label}

/-- The snapshots that were set stay, and those of the step follow. -/
theorem step_changes (hstep : s.step label = some s') :
    s'.changes = s.changes ++ published s s' := by
  cases label with
  | observe | close =>
    cases hstep
    simp [published]
  | set state errorText =>
    cases hstep
    simp [published]
  | receive observer =>
    obtain ⟨⟨update, store⟩, -, rfl⟩ := Option.map_eq_some_iff.mp hstep
    simp [published]

/-- What a step does to an observer. -/
theorem step_moves (hstep : s.step label = some s') {i : ℕ} {before : Updates}
    (hbefore : s.store.observers[i]? = some before) :
    ∃ after, s'.store.observers[i]? = some after ∧
      before.slot.Moves (published s s') (received i s label) (label = .close i) after.slot := by
  cases label with
  | observe buffer =>
    cases hstep
    refine ⟨before, ?_, .rest List.drop_length rfl⟩
    have hlt := (List.getElem?_eq_some_iff.mp hbefore).1
    exact (List.getElem?_append_left hlt).trans hbefore
  | set state errorText =>
    cases hstep
    refine ⟨_, (List.getElem?_map ..).trans (congrArg _ hbefore), ?_⟩
    rw [slot_offer]
    exact .offer _ List.drop_left rfl
  | close observer =>
    cases hstep
    have hafter := List.getElem?_modify (fun updates : Updates ↦ updates.cancel) observer
      s.store.observers i
    rw [hbefore] at hafter
    refine ⟨_, hafter, ?_⟩
    split_ifs with hmine
    · dsimp only
      rw [slot_cancel]
      exact .cancel (congrArg _ hmine) List.drop_length rfl
    · exact .rest List.drop_length rfl
  | receive observer =>
    obtain ⟨⟨update, store⟩, hreceive, rfl⟩ := Option.map_eq_some_iff.mp hstep
    simp only [StatusStore.receive, Option.bind_eq_bind, Option.bind_eq_some_iff, Prod.exists,
      Option.some.injEq, Prod.mk.injEq, Option.pure_def] at hreceive
    obtain ⟨updates, hobserver, found, left, htake, rfl, rfl⟩ := hreceive
    by_cases hmine : observer = i
    · subst hmine
      obtain rfl := Option.some.inj (hobserver.symm.trans hbefore)
      refine ⟨left, ?_, ?_⟩
      · exact List.getElem?_set_self (List.getElem?_eq_some_iff.mp hobserver).1
      · rw [slot_receive htake]
        refine .receive List.drop_length ?_
        rw [received, if_pos rfl, hobserver]
        rfl
    · refine ⟨before, ?_, .rest List.drop_length (if_neg hmine)⟩
      rw [← hbefore]
      exact List.getElem?_set_ne hmine

/-- From its registration on, an observer receives the snapshots that are set, all of them while it
is registered, apart from those in its buffer. -/
theorem observer_follows {s₁ : StatusFeed} {buffer : Int} {snapshots : List StatusSnapshot}
    (hobserve : s.step (.observe buffer) = some s₁)
    (hrun : Traces step (fun _ _ ↦ True) (received s.store.observers.length) s₁ s' snapshots) :
    ∃ observer, s'.store.observers[s.store.observers.length]? = some observer ∧
      observer.slot.Follows (s'.changes.drop s.changes.length) snapshots := by
  have hkept : s.changes.length ≤ s'.changes.length ∧
      ∃ observer, s'.store.observers[s.store.observers.length]? = some observer ∧
        observer.slot.Follows (s'.changes.drop s.changes.length) snapshots := by
    refine hrun.invariant (P := fun s' snapshots ↦ s.changes.length ≤ s'.changes.length ∧
      ∃ observer, s'.store.observers[s.store.observers.length]? = some observer ∧
        observer.slot.Follows (s'.changes.drop s.changes.length) snapshots) ?_ ?_
    · rintro s₂ s₃ label outputs ⟨hle, observer, hobserver, hfollows⟩ - hstep
      obtain ⟨after, hafter, hmoves⟩ := step_moves hstep hobserver
      have hchanges := step_changes hstep
      refine ⟨?_, after, hafter, ?_⟩
      · rw [hchanges, List.length_append]
        exact hle.trans (Nat.le_add_right _ _)
      · rw [hchanges, List.drop_append_of_le_length hle]
        exact hfollows.move hmoves
    · cases hobserve
      refine ⟨le_rfl, _, List.getElem?_concat_length, ?_⟩
      rw [List.drop_length]
      exact Slot.follows_new _
  exact hkept.2

/-- After every run, the channel of an observer is open as long as the observer is registered. -/
theorem observer_opened {initial : Status}
    (hrun : Steps step (fun _ _ ↦ True) (new initial) s) :
    ∀ observer ∈ s.store.observers, observer.slot.closed = !observer.slot.registered := by
  refine hrun.invariant (P := fun s ↦ ∀ observer ∈ s.store.observers,
    observer.slot.closed = !observer.slot.registered) ?_ ?_
  · intro s s' label hopened _ hstep after hmem
    obtain ⟨i, hi⟩ := List.mem_iff_getElem?.mp hmem
    by_cases hold : i < s.store.observers.length
    · have hbefore := List.getElem?_eq_getElem hold
      obtain ⟨found, hfound, hmoves⟩ := step_moves hstep hbefore
      obtain rfl := Option.some.inj (hi.symm.trans hfound)
      exact hmoves.opened (hopened _ (List.mem_of_getElem? hbefore))
    · have hlt := (List.getElem?_eq_some_iff.mp hi).1
      cases label with
      | observe buffer =>
        cases hstep
        have hlast : (s.store.observers ++ [_])[i]? = some after := hi
        rw [List.getElem?_append_right (Nat.not_lt.mp hold)] at hlast
        rw [List.mem_singleton.mp (List.mem_of_getElem? hlast)]
        rfl
      | set state errorText =>
        cases hstep
        rw [StatusStore.set, List.length_map] at hlt
        exact absurd hlt hold
      | close observer =>
        cases hstep
        rw [StatusStore.close, List.length_modify] at hlt
        exact absurd hlt hold
      | receive observer =>
        obtain ⟨⟨update, store⟩, hreceive, rfl⟩ := Option.map_eq_some_iff.mp hstep
        simp only [StatusStore.receive, Option.bind_eq_bind, Option.bind_eq_some_iff, Prod.exists,
          Option.some.injEq, Prod.mk.injEq, Option.pure_def] at hreceive
        obtain ⟨updates, -, found, left, -, rfl, rfl⟩ := hreceive
        rw [List.length_set] at hlt
        exact absurd hlt hold
  · exact fun observer hmem ↦ absurd hmem List.not_mem_nil

end StatusFeed

open Jobs in
/-- Observers miss nothing, and no channel is used after it was closed. In every run of a manager's
system, what an observer receives from its registration on, and what its buffer holds, are events
with the numbers from the first broadcast after its registration on, up to the last broadcast while
it is registered; an observer is removed by a broadcast that its full buffer has no room for, or by
the `Close` of its own subscription; and a broadcast or a `Close` finds the channels open. The same
holds for the snapshots that are set on a status store. -/
theorem observers_gapFree [Go.NetURL] :
    ((∀ (s s₁ s' : System) (buffer : Int) (events : List Event), s.Reachable →
        s.step (.observe buffer) = some s₁ →
        Traces System.step System.Lawful (System.received s.manager.observers.length) s₁ s' events →
        ∃ observer, s'.manager.observers[s.manager.observers.length]? = some observer ∧
          observer.slot.Follows (List.range' (s.manager.nextEventID + 1)
            (s'.manager.nextEventID - s.manager.nextEventID)) (events.map (·.id))) ∧
      (∀ (s s' : System) (label : Jobs.Label) (i : ℕ) (before after : Observer),
        s.Reachable → s.step label = some s' → s.manager.observers[i]? = some before →
        s'.manager.observers[i]? = some after → before.registered = true →
        after.registered = false →
        (before.capacity ≤ before.buffer.length ∧ System.published s s' ≠ []) ∨
          label = .closeSubscription before.id) ∧
      ∀ s : System, s.Reachable → (s.manager.observers.map (·.id)).Nodup ∧
        ∀ observer ∈ s.manager.observers,
          (∀ event, observer.slot.guarded (·.offer event.id) =
            some (Manager.publishTo event observer).slot) ∧
          observer.slot.guarded Slot.cancel = some observer.slot.cancel) ∧
    (∀ (s s₁ s' : StatusFeed) (buffer : Int) (snapshots : List StatusSnapshot),
        s.step (.observe buffer) = some s₁ →
        Traces StatusFeed.step (fun _ _ ↦ True) (StatusFeed.received s.store.observers.length) s₁ s'
          snapshots →
        ∃ observer, s'.store.observers[s.store.observers.length]? = some observer ∧
          observer.slot.Follows (s'.changes.drop s.changes.length) snapshots) ∧
      (∀ (s s' : StatusFeed) (label : StatusFeed.Label) (i : ℕ) (before after : Updates),
        s.step label = some s' → s.store.observers[i]? = some before →
        s'.store.observers[i]? = some after → before.registered = true →
        after.registered = false →
        (before.capacity ≤ before.queue.length ∧ StatusFeed.published s s' ≠ []) ∨
          label = .close i) ∧
      ∀ (initial : Status) (s : StatusFeed),
        Steps StatusFeed.step (fun _ _ ↦ True) (.new initial) s →
        ∀ observer ∈ s.store.observers,
          (∀ snapshot, observer.slot.guarded (·.offer snapshot) =
            some (observer.offer snapshot).slot) ∧
          observer.slot.guarded Slot.cancel = some observer.cancel.slot := by
  refine ⟨⟨?_, ?_, ?_⟩, ?_, ?_, ?_⟩
  · exact fun s s₁ s' buffer events h hobserve hrun ↦ System.observer_follows h hobserve hrun
  · intro s s' label i before after h hstep hbefore hafter hregistered hremoved
    obtain ⟨found, hfound, hmoves⟩ := System.step_moves h hstep hbefore
    obtain rfl := Option.some.inj (hafter.symm.trans hfound)
    have hlost := hmoves.removed hregistered hremoved
    rwa [Observer.slot, List.length_map] at hlost
  · intro s h
    refine ⟨System.observerIDs_nodup h, fun observer hmem ↦ ?_⟩
    have hopened := System.observer_opened h observer hmem
    refine ⟨fun event ↦ ?_, Slot.guarded_of_opened hopened _⟩
    rw [slot_publishTo]
    exact Slot.guarded_of_opened hopened _
  · exact fun s s₁ s' buffer snapshots hobserve hrun ↦ StatusFeed.observer_follows hobserve hrun
  · intro s s' label i before after hstep hbefore hafter hregistered hremoved
    obtain ⟨found, hfound, hmoves⟩ := StatusFeed.step_moves hstep hbefore
    obtain rfl := Option.some.inj (hafter.symm.trans hfound)
    exact hmoves.removed hregistered hremoved
  · intro initial s hrun observer hmem
    have hopened := StatusFeed.observer_opened hrun observer hmem
    refine ⟨fun snapshot ↦ ?_, ?_⟩
    · rw [slot_offer]
      exact Slot.guarded_of_opened hopened _
    · rw [slot_cancel]
      exact Slot.guarded_of_opened hopened _

end CodexQueueBot.Hub
