import CodexQueueBot.Hub.Status
import CodexQueueBot.Lib.Runs

/-!
# Rejected tokens

`hub.Client` and `telegram.Client` have in common a status store, the context of `Run` with its
cancel function, and what a call of `Send` does when its answer rejects the token: it sets the
status, reads the cancel function, and cancels. A `Machine` is the `Run` of such a client, with a
place and an event type of its own. Calls of `Send` are made at any time, any number of them, and
the context can be cancelled from outside at any time.

`Machine.unauthorized_of_rejected` is the rule for both clients. Once a call of `Send` has set the
status, it stays `unauthorized` in every run in which `Run` is not committed to a different write at
that time and does not commit itself to one later.
-/

set_option autoImplicit false
set_option relaxedAutoImplicit false

namespace CodexQueueBot.Hub

open Lib

/-! ### Clients -/

/-- Where a call of `Send` stands: its request is under way, it is about to set the status, to read
the cancel function, to call what it has read, or it has returned. -/
inductive SendPC
  | posting
  | setting
  | stopping
  | cancelling (found : Bool)
  | done (rejected : Bool)
  deriving DecidableEq, Repr

/-- A call of `Send`, and whether `Run` was active when it began. -/
structure Send where
  duringRun : Bool
  pc : SendPC
  deriving DecidableEq, Repr

/-- The answer of a call has rejected the token, and the call has set the status. -/
def Send.hasSet (send : Send) : Bool :=
  match send.pc with
  | .posting | .setting => false
  | .stopping | .cancelling _ => true
  | .done rejected => rejected

/-- A client: its status, whether `runCancel` is set, whether the context of `Run` is cancelled, the
place of `Run`, and the calls of `Send`. -/
structure Listener (Place : Type) where
  status : StatusStore
  registered : Bool
  cancelled : Bool
  run : Place
  sends : List Send
  deriving DecidableEq

/-- The `Run` of a client: where it is active, what it does next, and the text of
`ErrUnauthorized`. -/
structure Machine (Place Event : Type) where
  errUnauthorized : String
  active : Place → Bool
  next : Listener Place → Event → Option (Listener Place)

/-- What can happen next: a step of `Run`, the beginning of a `Send`, its answer, the next step of a
rejected one, or a cancellation from outside. -/
inductive Label (Event : Type)
  | run (event : Event)
  | send
  | respond (send : ℕ) (rejected : Bool)
  | stop (send : ℕ)
  | cancel
  deriving DecidableEq, Repr

variable {Place Event : Type}

/-- A call of `Send` moves on. -/
def Listener.setSend (listener : Listener Place) (index : ℕ) (send : Send) (pc : SendPC) :
    Listener Place :=
  { listener with sends := listener.sends.set index { send with pc } }

namespace Machine

/-- The next step of a rejected `Send`: `Set`, and then `stopAdapter`. -/
def stop (machine : Machine Place Event) (listener : Listener Place) (index : ℕ) :
    Option (Listener Place) := do
  let send ← listener.sends[index]?
  match send.pc with
  | .setting =>
    return { (listener.setSend index send .stopping) with
      status := listener.status.set .unauthorized machine.errUnauthorized }
  | .stopping => return listener.setSend index send (.cancelling listener.registered)
  | .cancelling found =>
    return { (listener.setSend index send (.done true)) with
      cancelled := listener.cancelled || found }
  | .posting | .done _ => none

/-- One step of a client. -/
def step (machine : Machine Place Event) (listener : Listener Place) :
    Label Event → Option (Listener Place)
  | .run event => machine.next listener event
  | .send => some { listener with
      sends := listener.sends ++ [⟨machine.active listener.run, .posting⟩] }
  | .respond index rejected => do
    let send ← listener.sends[index]?
    if send.pc = .posting then
      return listener.setSend index send (if rejected then .setting else .done false)
    else none
  | .stop index => machine.stop listener index
  | .cancel => some { listener with cancelled := true }

end Machine

/-! ### After a rejection -/

/-- A call of `Send` that began during `Run` has set the status. -/
def Listener.rejected (listener : Listener Place) : Bool :=
  listener.sends.any fun send ↦ send.duringRun && send.hasSet

/-- The steps in which the status survives a rejection. A call of `Send` that began during `Run`
sets the status where `Run` is not committed to a write. From then on `Run` takes only steps that
hold back. -/
def survives (committed : Place → Bool) (holdsBack : Listener Place → Event → Bool)
    (listener : Listener Place) : Label Event → Bool
  | .run event => !listener.rejected || holdsBack listener event
  | .stop index => listener.sends[index]? ≠ some ⟨true, .setting⟩ || !committed listener.run
  | .send | .respond _ _ | .cancel => true

/-- What a step of `Run` has to do: it makes no call of `Send`, and where `Run` is not committed, it
writes `unauthorized` or nothing, and does not commit `Run` if it holds back. -/
def Advances (committed : Place → Bool) (holdsBack : Listener Place → Event → Bool)
    (listener listener' : Listener Place) (event : Event) : Prop :=
  listener'.sends = listener.sends ∧ (committed listener.run = false →
    (listener'.status = listener.status ∨ listener'.status.snapshot.state = .unauthorized) ∧
      (holdsBack listener event = true → committed listener'.run = false))

/-- The places of commitment of a machine and its steps that hold back are as they have to be. -/
def Machine.Commits (machine : Machine Place Event) (committed : Place → Bool)
    (holdsBack : Listener Place → Event → Bool) : Prop :=
  ∀ {listener listener' : Listener Place} {event : Event},
    machine.next listener event = some listener' →
      Advances committed holdsBack listener listener' event

/-- A rejection is of an earlier call, or of the one that moves. -/
theorem Listener.rejected_setSend {listener : Listener Place} {index : ℕ} {send : Send}
    {pc : SendPC} (h : (listener.setSend index send pc).rejected = true) :
    listener.rejected = true ∨
      (send.duringRun = true ∧ Send.hasSet ⟨send.duringRun, pc⟩ = true) := by
  obtain ⟨other, hmem, hother⟩ := List.any_eq_true.mp h
  rcases List.mem_or_eq_of_mem_set hmem with hold | hnew
  · exact Or.inl (List.any_eq_true.mpr ⟨other, hold, hother⟩)
  · rw [hnew, Bool.and_eq_true] at hother
    exact Or.inr hother

/-- A call that moves after it has set the status rejects nothing new. -/
theorem Listener.rejected_of_setSend {listener : Listener Place} {index : ℕ} {send : Send}
    {pc : SendPC} (h : (listener.setSend index send pc).rejected = true)
    (hsend : listener.sends[index]? = some send)
    (hpc : Send.hasSet ⟨send.duringRun, pc⟩ = true → send.hasSet = true) :
    listener.rejected = true := by
  rcases rejected_setSend h with hold | ⟨hduring, hset⟩
  · exact hold
  · refine List.any_eq_true.mpr ⟨send, List.mem_of_getElem? hsend, ?_⟩
    rw [hduring, hpc hset]
    rfl

namespace Machine

variable {machine : Machine Place Event} {committed : Place → Bool}
  {holdsBack : Listener Place → Event → Bool}

/-- After a rejection the status is `unauthorized`, and `Run` is not about to change it. -/
def Stays (committed : Place → Bool) (listener : Listener Place) : Prop :=
  listener.rejected = true →
    listener.status.snapshot.state = .unauthorized ∧ committed listener.run = false

/-- The next step of a rejected `Send`. -/
theorem Stays.stop {listener listener' : Listener Place} {index : ℕ}
    (h : Stays committed listener)
    (hsurvives : survives committed holdsBack listener (Label.stop index : Label Event) = true)
    (hstep : machine.stop listener index = some listener') : Stays committed listener' := by
  obtain ⟨send, hsend, hnext⟩ := Option.bind_eq_some_iff.mp hstep
  intro hrejected
  split at hnext
  next hpc =>
    rw [← Option.some.inj hnext] at hrejected ⊢
    refine ⟨StatusStore.set_state _ _ _, ?_⟩
    by_cases hduring : send.duringRun = true
    · have hsame : listener.sends[index]? = some ⟨true, .setting⟩ := by
        rw [hsend, ← hduring, ← hpc]
      rw [survives, hsame] at hsurvives
      have hfree : committed listener.run = false := by simpa using hsurvives
      exact hfree
    · rcases Listener.rejected_setSend hrejected with hold | ⟨hnew, -⟩
      · exact (h hold).2
      · exact absurd hnew hduring
  next hpc =>
    rw [← Option.some.inj hnext] at hrejected ⊢
    refine h (Listener.rejected_of_setSend hrejected hsend fun _ ↦ ?_)
    rw [Send.hasSet, hpc]
  next found hpc =>
    rw [← Option.some.inj hnext] at hrejected ⊢
    have hdone : (listener.setSend index send (.done true)).rejected = true := hrejected
    refine h (Listener.rejected_of_setSend hdone hsend fun _ ↦ ?_)
    rw [Send.hasSet, hpc]
  next hpc => cases hnext
  next hpc => cases hnext

/-- Every step that survives keeps the status after a rejection. -/
theorem Stays.step {listener listener' : Listener Place} {label : Label Event}
    (hcommits : machine.Commits committed holdsBack) (h : Stays committed listener)
    (hsurvives : survives committed holdsBack listener label = true)
    (hstep : machine.step listener label = some listener') : Stays committed listener' := by
  cases label with
  | run event =>
    intro hrejected
    obtain ⟨hsends, hadvance⟩ := hcommits hstep
    rw [Listener.rejected, hsends] at hrejected
    obtain ⟨hstate, hfree⟩ := h hrejected
    have hback : holdsBack listener event = true := by
      rw [survives, Listener.rejected, hrejected] at hsurvives
      exact hsurvives
    refine ⟨?_, (hadvance hfree).2 hback⟩
    rcases (hadvance hfree).1 with hsame | hset
    · rw [hsame]
      exact hstate
    · exact hset
  | send =>
    rw [← Option.some.inj hstep]
    intro hrejected
    obtain ⟨other, hmem, hother⟩ := List.any_eq_true.mp hrejected
    rcases List.mem_append.mp hmem with hold | hnew
    · exact h (List.any_eq_true.mpr ⟨other, hold, hother⟩)
    · rw [List.mem_singleton.mp hnew, Send.hasSet, Bool.and_false] at hother
      cases hother
  | respond index rejected =>
    obtain ⟨send, hsend, hnext⟩ := Option.bind_eq_some_iff.mp hstep
    split_ifs at hnext with hpc hreject
    · rw [← Option.some.inj hnext]
      exact fun hrejected ↦ h (Listener.rejected_of_setSend hrejected hsend nofun)
    · rw [← Option.some.inj hnext]
      exact fun hrejected ↦ h (Listener.rejected_of_setSend hrejected hsend nofun)
  | stop index => exact h.stop hsurvives hstep
  | cancel =>
    rw [← Option.some.inj hstep]
    exact h

/-- In a run that survives, the status is `unauthorized` once a call of `Send` that began during
`Run` has set it. -/
theorem unauthorized_of_rejected {start listener : Listener Place}
    (hcommits : machine.Commits committed holdsBack) (hstart : start.sends = [])
    (hrun : Steps machine.step (fun listener label ↦
      survives committed holdsBack listener label = true) start listener)
    (hrejected : listener.rejected = true) :
    listener.status.snapshot.state = .unauthorized := by
  have hinitial : Stays committed start := by
    intro hnone
    rw [Listener.rejected, hstart] at hnone
    cases hnone
  have hstays : Stays committed listener :=
    hrun.invariant (fun _ _ _ hstays hsurvives hstep ↦ hstays.step hcommits hsurvives hstep)
      hinitial
  exact (hstays hrejected).1

end Machine

end CodexQueueBot.Hub
