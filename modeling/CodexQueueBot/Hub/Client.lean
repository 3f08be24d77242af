import CodexQueueBot.Hub.Listener

/-!
# The OpenILink client

`Run` of `hub.Client`, one place for each operation on the status, the context or `runCancel`. What
the network decides comes with the events: how a dial ends, when the read loop ends, and which case
the `select` of `waitContext` takes. Error texts come as `safeError` leaves them; the lengths of the
waits are left out, and so are the messages that the read loop hands on.
-/

set_option autoImplicit false
set_option relaxedAutoImplicit false

namespace CodexQueueBot.Hub.Client

/-- `ErrUnauthorized`. -/
def errUnauthorized : String := "OpenILink Hub rejected the app token"

/-- How `connect` returns. -/
inductive Dialed
  | unauthorized
  | failed (safeError : String)
  | connected
  deriving DecidableEq, Repr

/-- Where `Run` stands. The last three places are those of its deferred function and of its caller,
with the return value: whether it is `ErrUnauthorized`. -/
inductive Place
  | idle
  | register
  | setConnecting
  | check
  | dial
  | setUnauthorized
  | setReconnecting (safeError : String)
  | wait
  | setConnected
  | reading
  | inspect (safeError : String)
  | recheck (safeError : String)
  | cancelling (unauthorized : Bool)
  | clearing (unauthorized : Bool)
  | returned (unauthorized : Bool)
  deriving DecidableEq, Repr

/-- What happens to `Run`: it takes its next step, its dial returns, its wait ends by the timer or
by the context, or its read loop ends. -/
inductive Event
  | next
  | dialed (result : Dialed)
  | waited (timer : Bool)
  | read (safeError : String)
  deriving DecidableEq, Repr

/-- `Run` has been called and has not returned. -/
def Place.active : Place → Bool
  | .idle | .returned _ => false
  | _ => true

/-- The steps of `Run` that depend on nothing but the client. -/
def next (client : Listener Place) : Option (Listener Place) :=
  match client.run with
  | .idle => some { client with run := .register }
  | .register => some { client with registered := true, run := .setConnecting }
  | .setConnecting =>
    some { client with status := client.status.set .connecting "", run := .check }
  | .check => some { client with run := if client.cancelled then .cancelling false else .dial }
  | .setUnauthorized =>
    some { client with
      status := client.status.set .unauthorized errUnauthorized
      run := .cancelling true }
  | .setReconnecting safeError =>
    some { client with status := client.status.set .reconnecting safeError, run := .wait }
  | .setConnected =>
    some { client with status := client.status.set .connected "", run := .reading }
  | .inspect safeError =>
    -- The read loop has ended. A rejection by `Send` is recognised by the status.
    some { client with
      run := if client.status.snapshot.state = .unauthorized then .cancelling true
        else .recheck safeError }
  | .recheck safeError =>
    some { client with
      run := if client.cancelled then .cancelling false else .setReconnecting safeError }
  | .cancelling unauthorized =>
    some { client with cancelled := true, run := .clearing unauthorized }
  | .clearing unauthorized =>
    some { client with registered := false, run := .returned unauthorized }
  | .dial | .wait | .reading | .returned _ => none

/-- `Run`. -/
def run (client : Listener Place) : Event → Option (Listener Place)
  | .next => next client
  | .dialed result =>
    if client.run = .dial then
      some { client with
        run := match result with
          | .unauthorized => .setUnauthorized
          | .failed safeError => .setReconnecting safeError
          | .connected => .setConnected }
    else none
  | .waited timer =>
    if client.run = .wait then
      if timer then some { client with run := .check }
      else if client.cancelled then some { client with run := .cancelling false }
      else none
    else none
  | .read safeError =>
    if client.run = .reading then some { client with run := .inspect safeError } else none

/-- The machine of `hub.Client`. -/
def machine : Machine Place Event where
  errUnauthorized := errUnauthorized
  active := Place.active
  next := run

/-- `New`, before `Run` is called. -/
def new : Listener Place where
  status := .new .connecting
  registered := false
  cancelled := false
  run := .idle
  sends := []

/-! ### After a rejection -/

/-- The places of `Run` after which it writes a status other than `unauthorized` before it looks at
anything. -/
def committed : Place → Bool
  | .idle | .register | .setConnecting | .setReconnecting _ | .setConnected => true
  | _ => false

/-- The steps that lead to no such place: a dial that ends with the rejection as well, and the end
of the read loop where the context is cancelled. -/
def holdsBack (client : Listener Place) : Event → Bool
  | .next =>
    match client.run with
    | .recheck _ => client.cancelled
    | _ => true
  | .dialed result => result = .unauthorized
  | .waited _ | .read _ => true

variable {client client' : Listener Place} {event : Event}

theorem next_advances (h : next client = some client') :
    Advances committed holdsBack client client' .next := by
  rw [next] at h
  cases hplace : client.run with
  | idle | register | setConnecting | setReconnecting | setConnected =>
    simp only [hplace, Option.some.injEq] at h
    subst h
    exact ⟨rfl, fun hfree ↦ by rw [hplace] at hfree; cases hfree⟩
  | check | inspect =>
    simp only [hplace, Option.some.injEq] at h
    subst h
    refine ⟨rfl, fun _ ↦ ⟨Or.inl rfl, fun _ ↦ ?_⟩⟩
    dsimp only
    split_ifs <;> rfl
  | setUnauthorized =>
    simp only [hplace, Option.some.injEq] at h
    subst h
    exact ⟨rfl, fun _ ↦ ⟨Or.inr (StatusStore.set_state _ _ _), fun _ ↦ rfl⟩⟩
  | recheck safeError =>
    simp only [hplace, Option.some.injEq] at h
    subst h
    refine ⟨rfl, fun _ ↦ ⟨Or.inl rfl, fun hback ↦ ?_⟩⟩
    rw [holdsBack, hplace] at hback
    rw [if_pos hback]
    rfl
  | cancelling | clearing =>
    simp only [hplace, Option.some.injEq] at h
    subst h
    exact ⟨rfl, fun _ ↦ ⟨Or.inl rfl, fun _ ↦ rfl⟩⟩
  | dial | wait | reading | returned =>
    simp only [hplace, reduceCtorEq] at h

theorem run_advances (h : run client event = some client') :
    Advances committed holdsBack client client' event := by
  cases event with
  | next => exact next_advances h
  | dialed result =>
    simp only [run] at h
    split_ifs at h
    rw [← Option.some.inj h]
    refine ⟨rfl, fun _ ↦ ⟨Or.inl rfl, fun hback ↦ ?_⟩⟩
    obtain rfl : result = .unauthorized := of_decide_eq_true hback
    rfl
  | waited timer =>
    simp only [run] at h
    split_ifs at h
    · rw [← Option.some.inj h]
      exact ⟨rfl, fun _ ↦ ⟨Or.inl rfl, fun _ ↦ rfl⟩⟩
    · rw [← Option.some.inj h]
      exact ⟨rfl, fun _ ↦ ⟨Or.inl rfl, fun _ ↦ rfl⟩⟩
  | read safeError =>
    simp only [run] at h
    split_ifs at h
    rw [← Option.some.inj h]
    exact ⟨rfl, fun _ ↦ ⟨Or.inl rfl, fun _ ↦ rfl⟩⟩

/-- The places of commitment and the steps that hold back are as they have to be. -/
theorem commits : machine.Commits committed holdsBack :=
  fun h ↦ run_advances h

/-- What is committed is carried out: until `Run` has written a status other than `unauthorized`, it
stays committed, and a step that does not hold back commits it. -/
theorem run_committed (h : run client event = some client')
    (hgo : committed client.run = true ∨ holdsBack client event = false) :
    committed client'.run = true ∨ client'.status.snapshot.state ≠ .unauthorized := by
  cases event with
  | next =>
    rw [run, next] at h
    cases hplace : client.run with
    | idle | register =>
      simp only [hplace, Option.some.injEq] at h
      subst h
      exact Or.inl rfl
    | setConnecting | setReconnecting | setConnected =>
      simp only [hplace, Option.some.injEq] at h
      subst h
      exact Or.inr (by rw [StatusStore.set_state]; nofun)
    | recheck safeError =>
      simp only [hplace, Option.some.injEq] at h
      subst h
      simp only [hplace, committed, holdsBack, Bool.false_eq_true, false_or] at hgo
      rw [hgo]
      exact Or.inl rfl
    | check | setUnauthorized | inspect | cancelling | clearing =>
      simp [hplace, committed, holdsBack] at hgo
    | dial | wait | reading | returned =>
      simp only [hplace, reduceCtorEq] at h
  | dialed result =>
    simp only [run] at h
    split_ifs at h with hplace
    rw [← Option.some.inj h]
    rw [hplace] at hgo
    cases result with
    | unauthorized => simp [committed, holdsBack] at hgo
    | failed | connected => exact Or.inl rfl
  | waited timer =>
    simp only [run] at h
    split_ifs at h with hplace <;> simp [hplace, committed, holdsBack] at hgo
  | read safeError =>
    simp only [run] at h
    split_ifs at h with hplace
    simp [hplace, committed, holdsBack] at hgo

end CodexQueueBot.Hub.Client
