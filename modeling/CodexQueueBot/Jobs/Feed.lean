import CodexQueueBot.Jobs.Observers
import CodexQueueBot.Lib.Feed

/-!
# The feed of the manager

The observers of a manager are those of a feed, whose values are the numbers of the events: every
step of the system treats each of them in one of the ways of `Slot.Moves` (`step_moves`). Hence the
events that an observer receives are numbered one after the other from its registration on
(`observer_follows`), and no channel is used after it was closed (`observer_opened`).
-/

set_option autoImplicit false
set_option relaxedAutoImplicit false

namespace CodexQueueBot.Jobs

open Lib

/-- An observer of the manager as one of a feed of numbers. -/
def Observer.slot (observer : Observer) : Slot Nat :=
  ⟨observer.buffer.map (·.id), observer.capacity, observer.registered, observer.closed⟩

/-- An event is offered by its number. -/
theorem slot_publishTo (event : Event) (observer : Observer) :
    (Manager.publishTo event observer).slot = observer.slot.offer event.id := by
  simp only [Manager.publishTo, Slot.offer, Observer.slot, List.length_map]
  split_ifs
  · simp
  · rfl
  · rfl

namespace System

variable {s s' : System} {label : Label}

/-- The numbers of the events that a step publishes. -/
def published (s s' : System) : List Nat :=
  if s'.manager.nextEventID = s.manager.nextEventID then [] else [s'.manager.nextEventID]

/-- The events that an observer receives in a step. Observers are counted in the order of their
registration. -/
def received (i : Nat) (s : System) (label : Label) : List Event :=
  match label, s.manager.observers[i]? with
  | .receive id, some observer => if observer.id = id then observer.buffer.take 1 else []
  | _, _ => []

theorem published_of_eq (h : s'.manager.nextEventID = s.manager.nextEventID) :
    published s s' = [] :=
  if_pos h

theorem received_of_ne {i : Nat} (hreceive : ∀ id, label ≠ .receive id) :
    received i s label = [] := by
  unfold received
  split
  next id _ _ => exact absurd rfl (hreceive id)
  next => rfl

theorem received_receive {i id : Nat} {observer : Observer}
    (hobserver : s.manager.observers[i]? = some observer) :
    received i s (.receive id) = if observer.id = id then observer.buffer.take 1 else [] := by
  simp only [received, hobserver]

variable [Go.NetURL]

/-- What `Observe` leaves: one more observer, with an empty channel, and no event. -/
theorem step_observe {buffer : Int} (hstep : s.step (.observe buffer) = some s') :
    ∃ observer, s'.manager.observers = s.manager.observers ++ [observer] ∧
      observer.slot = ⟨[], observer.capacity, true, false⟩ ∧
      s'.manager.nextEventID = s.manager.nextEventID := by
  simp only [System.step, Option.map_eq_some_iff] at hstep
  obtain ⟨⟨m₁, snapshot, id⟩, hsection, rfl⟩ := hstep
  simp only [Manager.observe, Option.bind_eq_bind, Option.bind_eq_some_iff,
    Option.pure_def] at hsection
  obtain ⟨shown, -, hsection⟩ := hsection
  cases hsection
  exact ⟨_, rfl, rfl, rfl⟩

/-- What a step does to an observer. -/
theorem step_moves (h : s.Reachable) (hstep : s.step label = some s') {i : Nat}
    {before : Observer} (hbefore : s.manager.observers[i]? = some before) :
    ∃ after, s'.manager.observers[i]? = some after ∧
      before.slot.Moves (published s s') ((received i s label).map (·.id))
        (label = .closeSubscription before.id) after.slot := by
  have hlt : i < s.manager.observers.length := (List.getElem?_eq_some_iff.mp hbefore).1
  by_cases hobserve : ∃ buffer, label = .observe buffer
  · obtain ⟨buffer, rfl⟩ := hobserve
    obtain ⟨new, hobservers, -, hsame⟩ := step_observe hstep
    refine ⟨before, ?_, .rest (published_of_eq hsame) ?_⟩
    · rw [hobservers, List.getElem?_append_left hlt]
      exact hbefore
    · have hnone : received i s (.observe buffer) = [] := received_of_ne nofun
      rw [hnone]
      rfl
  by_cases hclose : ∃ id, label = .closeSubscription id
  · obtain ⟨id, rfl⟩ := hclose
    cases hstep
    refine ⟨_, (List.getElem?_map ..).trans (congrArg _ hbefore), ?_⟩
    have hnone : received i s (.closeSubscription id) = [] := received_of_ne nofun
    rw [hnone]
    dsimp only
    by_cases hmine : before.id = id ∧ before.registered = true
    · rw [if_pos hmine]
      have hcancel : Observer.slot { before with registered := false, closed := true } =
          before.slot.cancel := by
        rw [Slot.cancel, if_pos (show before.slot.registered = true from hmine.2)]
        rfl
      rw [hcancel]
      exact .cancel (by rw [hmine.1]) (published_of_eq rfl) rfl
    · rw [if_neg hmine]
      exact .rest (published_of_eq rfl) rfl
  by_cases hreceive : ∃ id, label = .receive id
  · obtain ⟨id, rfl⟩ := hreceive
    cases hstep
    refine ⟨_, (List.getElem?_map ..).trans (congrArg _ hbefore), ?_⟩
    dsimp only
    by_cases hmine : before.id = id
    · rw [if_pos hmine, received_receive hbefore, if_pos hmine]
      have hslot : Observer.slot { before with buffer := before.buffer.tail } =
          { before.slot with buffer := before.slot.buffer.tail } := by
        simp [Observer.slot]
      rw [hslot]
      exact .receive (published_of_eq rfl) (List.map_take ..)
    · rw [if_neg hmine, received_receive hbefore, if_neg hmine]
      exact .rest (published_of_eq rfl) rfl
  rw [received_of_ne fun id heq ↦ hreceive ⟨id, heq⟩]
  rcases step_discloses h hstep (fun buffer heq ↦ hobserve ⟨buffer, heq⟩)
    (fun id heq ↦ hclose ⟨id, heq⟩) fun id heq ↦ hreceive ⟨id, heq⟩ with
    ⟨hfeed, -⟩ | ⟨event, hevent, hfeed, -⟩
  · refine ⟨before, ?_, .rest (published_of_eq (Manager.eq_of_feed hfeed).1) rfl⟩
    rw [(Manager.eq_of_feed hfeed).2.2]
    exact hbefore
  · refine ⟨Manager.publishTo event before, ?_, ?_⟩
    · rw [(Manager.eq_of_feed hfeed).2.2, List.getElem?_map, hbefore]
      rfl
    · have hnext : s'.manager.nextEventID = event.id := (Manager.eq_of_feed hfeed).1
      have hpublished : published s s' = [event.id] := by
        rw [published, if_neg (by omega), hnext]
      rw [slot_publishTo]
      exact .offer event.id hpublished rfl

/-- The numbers of the events from one number on. -/
theorem range_published {first : Nat} (h : s.Reachable) (hstep : s.step label = some s')
    (hle : first ≤ s.manager.nextEventID) :
    first ≤ s'.manager.nextEventID ∧
      List.range' (first + 1) (s.manager.nextEventID - first) ++ published s s' =
        List.range' (first + 1) (s'.manager.nextEventID - first) := by
  have hnext : s'.manager.nextEventID = s.manager.nextEventID ∨
      s'.manager.nextEventID = s.manager.nextEventID + 1 := by
    cases label
    case observe buffer =>
      obtain ⟨new, -, -, hsame⟩ := step_observe hstep
      exact Or.inl hsame
    case closeSubscription | receive =>
      cases hstep
      exact Or.inl rfl
    all_goals
      rcases step_discloses h hstep (by simp) (by simp) (by simp) with
        ⟨hfeed, -⟩ | ⟨event, hevent, hfeed, -⟩
      · exact Or.inl (Manager.eq_of_feed hfeed).1
      · exact Or.inr ((Manager.eq_of_feed hfeed).1.trans hevent)
  rcases hnext with hsame | hmore
  · rw [published_of_eq hsame, hsame, List.append_nil]
    exact ⟨hle, rfl⟩
  · rw [published, if_neg (by omega), hmore]
    refine ⟨by omega, ?_⟩
    rw [Nat.sub_add_comm hle, List.range'_concat]
    congr 2
    omega

/-- From its registration on, an observer receives the events that are published, one number after
the other: all of them while it is registered, apart from those in its buffer. -/
theorem observer_follows {s₁ : System} {buffer : Int} {events : List Event} (h : s.Reachable)
    (hobserve : s.step (.observe buffer) = some s₁)
    (hrun : Traces System.step Lawful (received s.manager.observers.length) s₁ s' events) :
    ∃ observer, s'.manager.observers[s.manager.observers.length]? = some observer ∧
      observer.slot.Follows (List.range' (s.manager.nextEventID + 1)
        (s'.manager.nextEventID - s.manager.nextEventID)) (events.map (·.id)) := by
  obtain ⟨new, hobservers, hslot, hsame⟩ := step_observe hobserve
  have hkept : s'.Reachable ∧ s.manager.nextEventID ≤ s'.manager.nextEventID ∧
      ∃ observer, s'.manager.observers[s.manager.observers.length]? = some observer ∧
        observer.slot.Follows (List.range' (s.manager.nextEventID + 1)
          (s'.manager.nextEventID - s.manager.nextEventID)) (events.map (·.id)) := by
    refine hrun.invariant (P := fun s' events ↦ s'.Reachable ∧
      s.manager.nextEventID ≤ s'.manager.nextEventID ∧
      ∃ observer, s'.manager.observers[s.manager.observers.length]? = some observer ∧
        observer.slot.Follows (List.range' (s.manager.nextEventID + 1)
          (s'.manager.nextEventID - s.manager.nextEventID)) (events.map (·.id))) ?_ ?_
    · rintro s₂ s₃ label outputs ⟨hreach, hle, observer, hobserver, hfollows⟩ hlawful hstep
      obtain ⟨after, hafter, hmoves⟩ := step_moves hreach hstep hobserver
      obtain ⟨hle', hrange⟩ := range_published hreach hstep hle
      refine ⟨hreach.step hlawful hstep, hle', after, hafter, ?_⟩
      rw [← hrange, List.map_append]
      exact hfollows.move hmoves
    · have hlawful : s.Lawful (.observe buffer) := trivial
      refine ⟨h.step hlawful hobserve, le_of_eq hsame.symm, new, ?_, ?_⟩
      · rw [hobservers, List.getElem?_concat_length]
      · rw [hslot, hsame, Nat.sub_self]
        exact Slot.follows_new _
  exact hkept.2.2

/-- In every reachable state, the channel of an observer is open as long as the observer is
registered. -/
theorem observer_opened (h : s.Reachable) :
    ∀ observer ∈ s.manager.observers, observer.slot.closed = !observer.slot.registered := by
  refine h.induct (P := fun s ↦ ∀ observer ∈ s.manager.observers,
    observer.slot.closed = !observer.slot.registered) ?_ ?_
  · intro settings targets _ observer hmem
    rw [init_observers] at hmem
    cases hmem
  · intro s s' label hreach hopened _ hstep after hmem
    obtain ⟨i, hi⟩ := List.mem_iff_getElem?.mp hmem
    by_cases hold : i < s.manager.observers.length
    · have hbefore := List.getElem?_eq_getElem hold
      obtain ⟨found, hfound, hmoves⟩ := step_moves hreach hstep hbefore
      obtain rfl := Option.some.inj (hi.symm.trans hfound)
      exact hmoves.opened (hopened _ (List.mem_of_getElem? hbefore))
    · by_cases hobserve : ∃ buffer, label = .observe buffer
      · obtain ⟨buffer, rfl⟩ := hobserve
        obtain ⟨new, hobservers, hslot, -⟩ := step_observe hstep
        rw [hobservers, List.getElem?_append_right (Nat.not_lt.mp hold)] at hi
        rw [List.mem_singleton.mp (List.mem_of_getElem? hi), hslot]
        rfl
      · have hlength := step_observers_length hreach hstep fun buffer heq ↦ hobserve ⟨buffer, heq⟩
        rw [← hlength] at hold
        exact absurd (List.getElem?_eq_some_iff.mp hi).1 hold

/-- The numbers of the observers. -/
def observerIDs (s : System) : List Nat :=
  s.manager.observers.map (·.id)

omit [Go.NetURL] in
/-- An event leaves the number of an observer. -/
theorem id_publishTo (event : Event) (observer : Observer) :
    (Manager.publishTo event observer).id = observer.id := by
  unfold Manager.publishTo
  split_ifs <;> rfl

/-- Only `Observe` gives out a number, the next one. -/
theorem step_observerIDs (h : s.Reachable) (hstep : s.step label = some s') :
    (s'.observerIDs = s.observerIDs ∧ s'.manager.nextObserverID = s.manager.nextObserverID) ∨
      (s'.observerIDs = s.observerIDs ++ [s.manager.nextObserverID + 1] ∧
        s'.manager.nextObserverID = s.manager.nextObserverID + 1) := by
  cases label
  case observe buffer =>
    simp only [System.step, Option.map_eq_some_iff] at hstep
    obtain ⟨⟨m₁, snapshot, id⟩, hsection, rfl⟩ := hstep
    simp only [Manager.observe, Option.bind_eq_bind, Option.bind_eq_some_iff,
      Option.pure_def] at hsection
    obtain ⟨shown, -, hsection⟩ := hsection
    cases hsection
    exact Or.inr ⟨List.map_append, rfl⟩
  case closeSubscription id =>
    cases hstep
    refine Or.inl ⟨(List.map_map ..).trans (List.map_congr_left fun observer _ ↦ ?_), rfl⟩
    simp only [Function.comp_apply]
    split_ifs <;> rfl
  case receive id =>
    cases hstep
    refine Or.inl ⟨(List.map_map ..).trans (List.map_congr_left fun observer _ ↦ ?_), rfl⟩
    simp only [Function.comp_apply]
    split_ifs <;> rfl
  all_goals
    refine Or.inl ?_
    rcases step_discloses h hstep (by simp) (by simp) (by simp) with
      ⟨hfeed, -⟩ | ⟨event, -, hfeed, -⟩
    · obtain ⟨-, hnext, hobservers⟩ := Manager.eq_of_feed hfeed
      exact ⟨by rw [observerIDs, hobservers]; rfl, hnext⟩
    · obtain ⟨-, hnext, hobservers⟩ := Manager.eq_of_feed hfeed
      refine ⟨?_, hnext⟩
      rw [observerIDs, hobservers, List.map_map]
      exact List.map_congr_left fun observer _ ↦ id_publishTo event observer

/-- The observers of a reachable state have different numbers. -/
theorem observerIDs_nodup (h : s.Reachable) : s.observerIDs.Nodup := by
  have hboth : s.observerIDs.Nodup ∧ ∀ id ∈ s.observerIDs, id ≤ s.manager.nextObserverID := by
    refine h.induct (P := fun s ↦ s.observerIDs.Nodup ∧
      ∀ id ∈ s.observerIDs, id ≤ s.manager.nextObserverID) ?_ ?_
    · intro settings targets _
      rw [observerIDs, init_observers]
      exact ⟨List.nodup_nil, fun id hmem ↦ absurd hmem List.not_mem_nil⟩
    · rintro s s' label hreach ⟨hnodup, hbound⟩ _ hstep
      rcases step_observerIDs hreach hstep with ⟨hsame, hnext⟩ | ⟨hmore, hnext⟩
      · rw [hsame, hnext]
        exact ⟨hnodup, hbound⟩
      · rw [hmore, hnext]
        constructor
        · refine List.nodup_append.mpr ⟨hnodup, List.nodup_singleton _, ?_⟩
          intro id hid new hnew heq
          have := hbound id hid
          rw [heq, List.mem_singleton.mp hnew] at this
          omega
        · intro id hid
          rcases List.mem_append.mp hid with hold | hlast
          · exact (hbound id hold).trans (Nat.le_succ _)
          · rw [List.mem_singleton.mp hlast]
  exact hboth.1

end System

end CodexQueueBot.Jobs
