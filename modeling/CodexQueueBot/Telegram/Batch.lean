import CodexQueueBot.Telegram.Client

/-!
# The batches of a Telegram client

What a client has taken on: the updates that it has passed to the handler, and those in its batch
that it is going to pass. No step of `Run` loses or adds one, apart from the answer of a poll
(`step_taken`, `taken_polled`). What was passed is below the offset of the next poll, as long as the
identifiers have a next one in 64 bits.
-/

set_option autoImplicit false
set_option relaxedAutoImplicit false

namespace CodexQueueBot.Telegram

open Hub

/-- The updates of a batch that are left. -/
def Client.Place.held : Client.Place → List Update
  | .inspect updates | .setConnected updates | .batch updates | .handling _ updates => updates
  | _ => []

/-- The identifiers of the updates in a list that are for the handler. -/
def forHandler (updates : List Update) : List Int :=
  (updates.filter (·.incoming.isSome)).map (·.updateID)

/-- The identifiers of the updates that a client has passed to the handler, and of those that it is
going to pass. -/
def Client.Run.taken (run : Client.Run) : List Int :=
  run.passed.map (·.updateID) ++ forHandler run.place.held

/-- The identifier of an update is one of 64 bits, and so is the next one. -/
def Update.HasNext (update : Update) : Prop :=
  -2 ^ 63 ≤ update.updateID ∧ update.updateID < 2 ^ 63 - 1

/-- The offset is behind everything that was passed to the handler, and can be brought behind what
is left of the batch. -/
structure Client.Run.Behind (run : Client.Run) : Prop where
  passed : ∀ update ∈ run.passed, update.updateID < run.offset
  held : ∀ update ∈ run.place.held, update.HasNext

namespace Client

variable {client client' : Listener Run}

/-- The offset after an update whose identifier has a next one. -/
theorem offset_nextUpdate {update : Update} (hnext : update.HasNext) (updates : List Update) :
    client.run.offset ≤ (nextUpdate client update updates).run.offset ∧
      update.updateID < (nextUpdate client update updates).run.offset := by
  have hadvanced : Go.int64 (update.updateID + 1) = update.updateID + 1 := by
    obtain ⟨hlower, hupper⟩ := hnext
    exact Go.int64_eq_self_iff.mpr ⟨by omega, by omega⟩
  rw [nextUpdate, hadvanced]
  cases update.incoming with
  | none =>
    dsimp only
    split_ifs <;> omega
  | some incoming =>
    dsimp only
    split_ifs <;> omega

theorem nextUpdate_taken (update : Update) (updates : List Update)
    (hplace : client.run.place = .batch (update :: updates)) :
    (nextUpdate client update updates).run.taken = client.run.taken ∧
      (client.run.Behind → (nextUpdate client update updates).run.Behind) := by
  have hoffset (hbehind : client.run.Behind) :=
    @offset_nextUpdate client _ (hbehind.held update (by rw [hplace]; simp [Place.held]))
      updates
  have hheld : client.run.place.held = update :: updates := by
    rw [hplace]
    rfl
  rw [nextUpdate] at hoffset ⊢
  cases hincoming : update.incoming with
  | none =>
    rw [hincoming] at hoffset
    constructor
    · simp [Run.taken, hplace, Place.held, forHandler, hincoming]
    · intro hbehind
      constructor
      · intro other hmem
        exact (hbehind.passed other hmem).trans_le (hoffset hbehind).1
      · intro other hmem
        exact hbehind.held other (hheld ▸ List.mem_cons_of_mem _ hmem)
  | some incoming =>
    rw [hincoming] at hoffset
    constructor
    · simp [Run.taken, hplace, Place.held, forHandler, hincoming]
    · intro hbehind
      constructor
      · intro other hmem
        rcases List.mem_append.mp hmem with hold | hnew
        · exact (hbehind.passed other hold).trans_le (hoffset hbehind).1
        · rw [List.mem_singleton.mp hnew]
          exact (hoffset hbehind).2
      · intro other hmem
        exact hbehind.held other (hheld ▸ List.mem_cons_of_mem _ hmem)

/-- `Run` has moved on without a look at its batch. -/
structure Run.Rests (run run' : Run) : Prop where
  held : run'.place.held = run.place.held
  offset : run'.offset = run.offset
  passed : run'.passed = run.passed

/-- What `Run` does without the answer of a poll: it rests, or takes the next update of its
batch. -/
def Works (client client' : Listener Run) : Prop :=
  client.run.Rests client'.run ∨ ∃ update updates,
    client.run.place = .batch (update :: updates) ∧
      client'.run = (nextUpdate client update updates).run

theorem works_goto {place : Place} (hheld : place.held = client.run.place.held) :
    Works client (goto client place) :=
  Or.inl ⟨hheld, rfl, rfl⟩

theorem next_works (h : next client = some client') : Works client client' := by
  rw [next] at h
  cases hplace : client.run.place with
  | idle | register | setConnecting | setReconnecting | setConnected | setUnauthorized
    | cancelling | clearing =>
    simp only [hplace, Option.some.injEq] at h
    subst h
    exact works_goto (by rw [hplace]; rfl)
  | check | inspect =>
    simp only [hplace, Option.some.injEq] at h
    subst h
    refine works_goto ?_
    rw [hplace]
    split_ifs <;> rfl
  | failed error =>
    simp only [hplace, Option.some.injEq] at h
    subst h
    refine works_goto ?_
    rw [hplace]
    split_ifs
    · rfl
    · cases error <;> rfl
  | batch updates =>
    cases updates with
    | nil =>
      simp only [hplace, Option.some.injEq] at h
      subst h
      exact works_goto (by rw [hplace]; rfl)
    | cons update updates =>
      simp only [hplace, Option.some.injEq] at h
      subst h
      exact Or.inr ⟨update, updates, hplace, rfl⟩
  | polling | wait | handling | returned =>
    simp only [hplace, reduceCtorEq] at h

/-- The answer of a poll adds to what a client has taken. -/
theorem polled_taken {updates : List Update} (h : run client (.polled updates) = some client') :
    client.run.place = .polling ∧ client'.run.place = .inspect updates ∧
      client'.run.offset = client.run.offset ∧ client'.run.passed = client.run.passed := by
  simp only [run] at h
  split_ifs at h with hplace
  rw [← Option.some.inj h]
  exact ⟨hplace, rfl, rfl, rfl⟩

/-- The updates of an answer that are for the handler are taken. -/
theorem taken_polled {updates : List Update} (h : run client (.polled updates) = some client') :
    client.run.taken = client.run.passed.map (·.updateID) ∧
      client'.run.taken = client.run.taken ++ forHandler updates := by
  obtain ⟨hplace, hplace', -, hpassed⟩ := polled_taken h
  have htaken : client.run.taken = client.run.passed.map (·.updateID) := by
    rw [Run.taken, hplace]
    exact List.append_nil _
  refine ⟨htaken, ?_⟩
  rw [htaken, Run.taken, hpassed, hplace']
  rfl

theorem run_works {event : Event} (h : run client event = some client')
    (hevent : ∀ updates, event ≠ .polled updates) : Works client client' := by
  cases event with
  | next => exact next_works h
  | polled updates => exact absurd rfl (hevent updates)
  | pollFailed error =>
    simp only [run] at h
    split_ifs at h with hplace
    rw [← Option.some.inj h]
    exact works_goto (by rw [hplace]; rfl)
  | waited timer =>
    simp only [run] at h
    split_ifs at h with hplace
    · rw [← Option.some.inj h]
      exact works_goto (by rw [hplace]; rfl)
    · rw [← Option.some.inj h]
      exact works_goto (by rw [hplace]; rfl)
  | handled =>
    rw [run] at h
    split at h
    next incoming updates hplace =>
      rw [← Option.some.inj h]
      exact works_goto (by rw [hplace]; rfl)
    next => cases h

/-- The other steps of a client leave `Run` as it is. -/
theorem step_run {label : Hub.Label Event} (h : machine.step client label = some client')
    (hlabel : ∀ event, label ≠ .run event) : client'.run = client.run := by
  cases label with
  | run event => exact absurd rfl (hlabel event)
  | send =>
    rw [← Option.some.inj h]
  | respond index rejected =>
    obtain ⟨send, -, hnext⟩ := Option.bind_eq_some_iff.mp h
    split_ifs at hnext
    · rw [← Option.some.inj hnext]
      rfl
    · rw [← Option.some.inj hnext]
      rfl
  | stop index =>
    obtain ⟨send, -, hnext⟩ := Option.bind_eq_some_iff.mp h
    split at hnext
    · rw [← Option.some.inj hnext]
      rfl
    · rw [← Option.some.inj hnext]
      rfl
    · rw [← Option.some.inj hnext]
      rfl
    · cases hnext
    · cases hnext
  | cancel =>
    rw [← Option.some.inj h]

/-- The steps of a client without an answer. -/
theorem step_works {label : Hub.Label Event} (h : machine.step client label = some client')
    (hlabel : ∀ updates, label ≠ .run (.polled updates)) : Works client client' := by
  by_cases hrun : ∃ event, label = .run event
  · obtain ⟨event, rfl⟩ := hrun
    exact run_works h fun updates heq ↦ hlabel updates (congrArg _ heq)
  · have hsame := step_run h fun event heq ↦ hrun ⟨event, heq⟩
    rw [Works, hsame]
    exact Or.inl ⟨rfl, rfl, rfl⟩

/-- They leave what it has taken. -/
theorem step_taken {label : Hub.Label Event} (h : machine.step client label = some client')
    (hlabel : ∀ updates, label ≠ .run (.polled updates)) :
    client'.run.taken = client.run.taken ∧ (client.run.Behind → client'.run.Behind) := by
  rcases step_works h hlabel with ⟨hheld, hoffset, hpassed⟩ | ⟨update, updates, hplace, hrun⟩
  · constructor
    · rw [Run.taken, Run.taken, hheld, hpassed]
    · intro hbehind
      constructor
      · rw [hpassed, hoffset]
        exact hbehind.passed
      · rw [hheld]
        exact hbehind.held
  · rw [hrun]
    exact nextUpdate_taken update updates hplace

/-- While a client polls, `Run` does nothing else. -/
theorem step_polling {label : Hub.Label Event} (h : machine.step client label = some client')
    (hplace : client.run.place = .polling) (hplace' : client'.run.place = .polling) :
    client'.run = client.run := by
  by_cases hrun : ∃ event, label = .run event
  · obtain ⟨event, rfl⟩ := hrun
    change run client event = some client' at h
    cases event with
    | next =>
      simp only [run, next, hplace, reduceCtorEq] at h
    | polled updates =>
      rw [(polled_taken h).2.1] at hplace'
      cases hplace'
    | pollFailed error =>
      simp only [run, hplace, if_true, Option.some.injEq] at h
      rw [← h] at hplace'
      cases hplace'
    | waited timer =>
      simp only [run, hplace, reduceCtorEq, if_false] at h
    | handled =>
      simp only [run, hplace, reduceCtorEq] at h
  · exact step_run h fun event heq ↦ hrun ⟨event, heq⟩

end Client

end CodexQueueBot.Telegram
