import CodexQueueBot.Commands.Handler
import CodexQueueBot.Go.Stdlib
import CodexQueueBot.Hub.Listener

/-!
# The Telegram client

`Run` of `telegram.Client`, one place for each operation on the status, the context or `runCancel`,
and for each call of the handler, which takes any time. The result of a poll comes with its event.
Error texts come as `safeError` leaves them, and the lengths of the waits are left out. Update
identifiers are numbers of 64 bits, and so is the offset, which is brought behind an update by
adding one. The updates that have been passed to the handler are recorded beside the state.
-/

set_option autoImplicit false
set_option relaxedAutoImplicit false

namespace CodexQueueBot.Telegram

open Go Hub

/-- `message`, with the sender of `From`. -/
structure Message where
  messageID : Int
  sender : Option Int
  chat : Int
  text : String
  deriving DecidableEq, Repr

/-- `update`. -/
structure Update where
  updateID : Int
  message : Option Message
  deriving DecidableEq, Repr

/-- What `Run` makes of an update: a message with a sender and a text that is not blank. -/
def Update.incoming (update : Update) : Option Commands.Incoming := do
  let message ← update.message
  let sender ← message.sender
  if Strings.trimSpace message.text = "" then none
  else
    return {
      eventID := toString update.updateID
      traceID := toString message.messageID
      senderID := toString sender
      replyTo := toString message.chat
      text := message.text }

namespace Client

/-- `ErrUnauthorized`. -/
def errUnauthorized : String := "Telegram Bot API rejected the bot token"

/-- The errors of `getUpdates`. -/
inductive PollError
  | unauthorized
  | other (safeError : String)
  deriving DecidableEq, Repr

/-- Where `Run` stands. In a batch the updates are those that are left. The last three places are
those of its deferred function and of its caller, with the return value: whether it is
`ErrUnauthorized`. -/
inductive Place
  | idle
  | register
  | setConnecting
  | check
  | polling
  | failed (error : PollError)
  | setUnauthorized
  | setReconnecting (safeError : String)
  | wait
  | inspect (updates : List Update)
  | setConnected (updates : List Update)
  | batch (updates : List Update)
  | handling (incoming : Commands.Incoming) (updates : List Update)
  | cancelling (unauthorized : Bool)
  | clearing (unauthorized : Bool)
  | returned (unauthorized : Bool)
  deriving DecidableEq, Repr

/-- `Run`: its place, its variable `offset`, and the updates it has passed to the handler. -/
structure Run where
  place : Place
  offset : Int
  passed : List Update
  deriving DecidableEq, Repr

/-- What happens to `Run`: it takes its next step, its poll returns, its wait ends by the timer or
by the context, or the handler returns. -/
inductive Event
  | next
  | polled (updates : List Update)
  | pollFailed (error : PollError)
  | waited (timer : Bool)
  | handled
  deriving DecidableEq, Repr

/-- `Run` has been called and has not returned. -/
def Place.active : Place → Bool
  | .idle | .returned _ => false
  | _ => true

/-- `Run` goes to another place. -/
def goto (client : Listener Run) (place : Place) : Listener Run :=
  { client with run := { client.run with place } }

/-- The body of the loop over a batch. -/
def nextUpdate (client : Listener Run) (update : Update) (updates : List Update) : Listener Run :=
  let offset := if client.run.offset ≤ update.updateID then int64 (update.updateID + 1)
    else client.run.offset
  match update.incoming with
  | none => { client with run := ⟨.batch updates, offset, client.run.passed⟩ }
  | some incoming =>
    { client with run := ⟨.handling incoming updates, offset, client.run.passed ++ [update]⟩ }

/-- The steps of `Run` that depend on nothing but the client. -/
def next (client : Listener Run) : Option (Listener Run) :=
  match client.run.place with
  | .idle => some (goto client .register)
  | .register => some { (goto client .setConnecting) with registered := true }
  | .setConnecting =>
    some { (goto client .check) with status := client.status.set .connecting "" }
  | .check => some (goto client (if client.cancelled then .cancelling false else .polling))
  | .failed error =>
    some (goto client (if client.cancelled then .cancelling false
      else match error with
        | .unauthorized => .setUnauthorized
        | .other safeError => .setReconnecting safeError))
  | .setUnauthorized =>
    some { (goto client (.cancelling true)) with
      status := client.status.set .unauthorized errUnauthorized }
  | .setReconnecting safeError =>
    some { (goto client .wait) with status := client.status.set .reconnecting safeError }
  | .inspect updates =>
    some (goto client (if client.status.snapshot.state ≠ .connected then .setConnected updates
      else .batch updates))
  | .setConnected updates =>
    some { (goto client (.batch updates)) with status := client.status.set .connected "" }
  | .batch [] => some (goto client .check)
  | .batch (update :: updates) => some (nextUpdate client update updates)
  | .cancelling unauthorized =>
    some { (goto client (.clearing unauthorized)) with cancelled := true }
  | .clearing unauthorized =>
    some { (goto client (.returned unauthorized)) with registered := false }
  | .polling | .wait | .handling _ _ | .returned _ => none

/-- `Run`. -/
def run (client : Listener Run) : Event → Option (Listener Run)
  | .next => next client
  | .polled updates =>
    if client.run.place = .polling then some (goto client (.inspect updates)) else none
  | .pollFailed error =>
    if client.run.place = .polling then some (goto client (.failed error)) else none
  | .waited timer =>
    if client.run.place = .wait then
      if timer then some (goto client .check)
      else if client.cancelled then some (goto client (.cancelling false))
      else none
    else none
  | .handled =>
    match client.run.place with
    | .handling _ updates => some (goto client (.batch updates))
    | _ => none

/-- The machine of `telegram.Client`. -/
def machine : Machine Run Event where
  errUnauthorized := errUnauthorized
  active run := run.place.active
  next := run

/-- `New`, before `Run` is called. -/
def new : Listener Run where
  status := .new .connecting
  registered := false
  cancelled := false
  run := ⟨.idle, 0, []⟩
  sends := []

/-! ### After a rejection -/

/-- The places of `Run` after which it writes a status other than `unauthorized` before it looks at
anything. Where it looks at the status after a poll, it is one unless this is `connected`. -/
def committed (run : Run) : Bool :=
  match run.place with
  | .idle | .register | .setConnecting | .setReconnecting _ | .inspect _ | .setConnected _ => true
  | _ => false

/-- The steps that lead to no such place: a poll that fails, and the look at the context after that
where it is cancelled or the token is rejected here as well. -/
def holdsBack (client : Listener Run) : Event → Bool
  | .next =>
    match client.run.place with
    | .failed error => client.cancelled || error = .unauthorized
    | _ => true
  | .polled _ => false
  | .pollFailed _ | .waited _ | .handled => true

variable {client client' : Listener Run} {event : Event}

theorem nextUpdate_advances (update : Update) (updates : List Update) :
    Advances committed holdsBack client (nextUpdate client update updates) .next := by
  rw [nextUpdate]
  cases update.incoming with
  | none => exact ⟨rfl, fun _ ↦ ⟨Or.inl rfl, fun _ ↦ rfl⟩⟩
  | some incoming => exact ⟨rfl, fun _ ↦ ⟨Or.inl rfl, fun _ ↦ rfl⟩⟩

theorem next_advances (h : next client = some client') :
    Advances committed holdsBack client client' .next := by
  rw [next] at h
  cases hplace : client.run.place with
  | idle | register | setConnecting | setReconnecting | setConnected | inspect =>
    simp only [hplace, Option.some.injEq] at h
    subst h
    exact ⟨rfl, fun hfree ↦ by rw [committed, hplace] at hfree; cases hfree⟩
  | check =>
    simp only [hplace, Option.some.injEq] at h
    subst h
    refine ⟨rfl, fun _ ↦ ⟨Or.inl rfl, fun _ ↦ ?_⟩⟩
    split_ifs <;> rfl
  | failed error =>
    simp only [hplace, Option.some.injEq] at h
    subst h
    refine ⟨rfl, fun _ ↦ ⟨Or.inl rfl, fun hback ↦ ?_⟩⟩
    simp only [holdsBack, hplace] at hback
    by_cases hcancelled : client.cancelled = true
    · rw [if_pos hcancelled]
      rfl
    · rw [Bool.eq_false_iff.mpr hcancelled, Bool.false_or] at hback
      obtain rfl : error = .unauthorized := of_decide_eq_true hback
      rw [if_neg hcancelled]
      rfl
  | setUnauthorized =>
    simp only [hplace, Option.some.injEq] at h
    subst h
    exact ⟨rfl, fun _ ↦ ⟨Or.inr (StatusStore.set_state _ _ _), fun _ ↦ rfl⟩⟩
  | batch updates =>
    cases updates with
    | nil =>
      simp only [hplace, Option.some.injEq] at h
      subst h
      exact ⟨rfl, fun _ ↦ ⟨Or.inl rfl, fun _ ↦ rfl⟩⟩
    | cons update updates =>
      simp only [hplace, Option.some.injEq] at h
      subst h
      exact nextUpdate_advances update updates
  | cancelling | clearing =>
    simp only [hplace, Option.some.injEq] at h
    subst h
    exact ⟨rfl, fun _ ↦ ⟨Or.inl rfl, fun _ ↦ rfl⟩⟩
  | polling | wait | handling | returned =>
    simp only [hplace, reduceCtorEq] at h

theorem run_advances (h : run client event = some client') :
    Advances committed holdsBack client client' event := by
  cases event with
  | next => exact next_advances h
  | polled updates =>
    simp only [run] at h
    split_ifs at h
    rw [← Option.some.inj h]
    exact ⟨rfl, fun _ ↦ ⟨Or.inl rfl, fun hback ↦ nomatch hback⟩⟩
  | pollFailed error =>
    simp only [run] at h
    split_ifs at h
    rw [← Option.some.inj h]
    exact ⟨rfl, fun _ ↦ ⟨Or.inl rfl, fun _ ↦ rfl⟩⟩
  | waited timer =>
    simp only [run] at h
    split_ifs at h
    · rw [← Option.some.inj h]
      exact ⟨rfl, fun _ ↦ ⟨Or.inl rfl, fun _ ↦ rfl⟩⟩
    · rw [← Option.some.inj h]
      exact ⟨rfl, fun _ ↦ ⟨Or.inl rfl, fun _ ↦ rfl⟩⟩
  | handled =>
    rw [run] at h
    split at h
    · rw [← Option.some.inj h]
      exact ⟨rfl, fun _ ↦ ⟨Or.inl rfl, fun _ ↦ rfl⟩⟩
    · cases h

/-- The places of commitment and the steps that hold back are as they have to be. -/
theorem commits : machine.Commits committed holdsBack :=
  fun h ↦ run_advances h

/-- What is committed is carried out: until `Run` has written a status other than `unauthorized`, it
stays committed, and a step that does not hold back commits it. -/
theorem run_committed (h : run client event = some client')
    (hgo : committed client.run = true ∨ holdsBack client event = false) :
    committed client'.run = true ∨ client'.status.snapshot.state ≠ .unauthorized := by
  cases event with
  | next =>
    rw [run, next] at h
    cases hplace : client.run.place with
    | idle | register =>
      simp only [hplace, Option.some.injEq] at h
      subst h
      exact Or.inl rfl
    | setConnecting | setReconnecting | setConnected =>
      simp only [hplace, Option.some.injEq] at h
      subst h
      exact Or.inr (by rw [StatusStore.set_state]; nofun)
    | inspect updates =>
      simp only [hplace, Option.some.injEq] at h
      subst h
      by_cases hconnected : client.status.snapshot.state = .connected
      · refine Or.inr ?_
        rw [goto, hconnected]
        nofun
      · rw [if_pos hconnected]
        exact Or.inl rfl
    | failed error =>
      simp only [hplace, Option.some.injEq] at h
      subst h
      simp only [hplace, committed, holdsBack, Bool.false_eq_true, false_or, Bool.or_eq_false_iff,
        decide_eq_false_iff_not] at hgo
      rw [hgo.1]
      cases error with
      | unauthorized => exact absurd rfl hgo.2
      | other safeError => exact Or.inl rfl
    | check | setUnauthorized | batch | cancelling | clearing =>
      simp [hplace, committed, holdsBack] at hgo
    | polling | wait | handling | returned =>
      simp only [hplace, reduceCtorEq] at h
  | polled updates =>
    simp only [run] at h
    split_ifs at h
    rw [← Option.some.inj h]
    exact Or.inl rfl
  | pollFailed error =>
    simp only [run] at h
    split_ifs at h with hplace
    simp [hplace, committed, holdsBack] at hgo
  | waited timer =>
    simp only [run] at h
    split_ifs at h with hplace <;> simp [hplace, committed, holdsBack] at hgo
  | handled =>
    rw [run] at h
    split at h
    next hplace => simp [hplace, committed, holdsBack] at hgo
    next => cases h

end Client

end CodexQueueBot.Telegram
