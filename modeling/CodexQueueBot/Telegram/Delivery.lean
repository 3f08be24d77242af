import CodexQueueBot.Telegram.Batch
import Mathlib.Data.List.Nodup

/-!
# Delivery across reloads

The Bot API keeps an update until it receives a `getUpdates` with a greater offset, and answers with
what it keeps from the offset on, or with all of it where no offset is sent. The clients are those
of all generations; a `Reload` cancels the current one and makes the next. A request lives on at the
Bot API when its client has given it up, so that its offset can still take effect. The steps of the
clients are those of `Client.machine`, handler calls and calls of `Send` included. The identifiers
of updates are any numbers of 64 bits.

No update is passed to the handler twice as long as no client gets an update that another one has
got before, and the offset can be brought behind every update that a client gets: `passed_once`. A
client alone then never gets an update twice, since its offset is behind all that it has got. The
offset is a variable of `Run`, though, and takes effect with the next request only: a client that is
replaced while it works on a batch leaves the batch to its successor as well, and works on to its
end (`held_passed`).
-/

set_option autoImplicit false
set_option relaxedAutoImplicit false

namespace CodexQueueBot.Telegram

open Hub Lib

/-! ### The Bot API and its clients -/

/-- The identifiers of updates are numbers of 64 bits. -/
def Update.Numbered (update : Update) : Prop :=
  -2 ^ 63 ≤ update.updateID ∧ update.updateID < 2 ^ 63

instance (update : Update) : Decidable update.Numbered :=
  inferInstanceAs (Decidable (_ ∧ _))

/-- The offset of a client that gets an update is behind it afterwards, and is sent: the identifier
is not the last number of 64 bits, and not negative if the update is for the handler. -/
def Update.Passable (update : Update) : Prop :=
  update.updateID ≠ 2 ^ 63 - 1 ∧ (update.incoming.isSome = true → 0 ≤ update.updateID)

instance (update : Update) : Decidable update.Passable :=
  inferInstanceAs (Decidable (_ ∧ _))

theorem Update.Numbered.hasNext {update : Update} (h : update.Numbered)
    (hpassable : update.Passable) : update.HasNext :=
  ⟨h.1, lt_of_le_of_ne (Int.le_sub_one_of_lt h.2) hpassable.1⟩

/-- A `getUpdates` at the Bot API: its client, the offset it carries, whether the client waits for
it, whether the Bot API has received it, and its answer. -/
structure Request where
  client : ℕ
  offset : Option Int
  awaited : Bool
  received : Bool
  answer : Option (List Update)
  deriving DecidableEq, Repr

/-- An update is at or behind the offset of a request. -/
def Request.asksFor (request : Request) (update : Update) : Bool :=
  match request.offset with
  | none => true
  | some offset => offset ≤ update.updateID

/-- The Bot API and the clients of all generations, with the identifiers that have been used and the
number of the current client. -/
structure System where
  pending : List Update
  used : List Int
  requests : List Request
  clients : List (Listener Client.Run)
  current : Option ℕ
  deriving DecidableEq

namespace System

/-- The beginning: no update has arrived and no client was made. -/
def new : System := ⟨[], [], [], [], none⟩

/-- What can happen next: an update arrives, a `Reload` with Telegram enabled or not is called, a
client takes a step, the Bot API receives a request or answers it, or its client gets the answer. -/
inductive Label
  | arrive (update : Update)
  | reload (enabled : Bool)
  | client (client : ℕ) (label : Hub.Label Client.Event)
  | receive (request : ℕ)
  | answer (request : ℕ)
  | deliver (request : ℕ)
  deriving DecidableEq, Repr

/-- The clients after the cancellation of the current one. -/
def cancelCurrent (s : System) : List (Listener Client.Run) :=
  match s.current with
  | none => s.clients
  | some index => s.clients.modify index fun client ↦ { client with cancelled := true }

/-- `Reload`: the current client is cancelled, and a new one is made if Telegram is enabled. -/
def reload (s : System) (enabled : Bool) : System :=
  if enabled then
    { s with clients := s.cancelCurrent ++ [Client.new], current := some s.clients.length }
  else { s with clients := s.cancelCurrent, current := none }

/-- The request of a client that begins to poll: the offset is sent if it is positive. -/
def sent (index : ℕ) (client : Listener Client.Run) : Request :=
  ⟨index, if 0 < client.run.offset then some client.run.offset else none, true, false, none⟩

/-- A client moves. A poll that begins sends a request, and a poll that ends gives it up. -/
def move (s : System) (index : ℕ) (client client' : Listener Client.Run) : System :=
  let requests := if client'.run.place = .polling then s.requests
    else s.requests.map fun request ↦
      if request.client = index then { request with awaited := false } else request
  { s with
    clients := s.clients.set index client'
    requests := if client.run.place ≠ .polling ∧ client'.run.place = .polling then
      requests ++ [sent index client'] else requests }

/-- The steps of a client, apart from the end of a poll by an answer. -/
def localStep (client : Listener Client.Run) :
    Hub.Label Client.Event → Option (Listener Client.Run)
  | .run (.polled _) => none
  | label => Client.machine.step client label

/-- One step. An answer reaches a client through `deliver` only. -/
def step (s : System) : Label → Option System
  | .arrive update =>
    if update.updateID ∈ s.used ∨ ¬ update.Numbered then none
    else some { s with
      pending := s.pending ++ [update]
      used := s.used ++ [update.updateID] }
  | .reload enabled => some (s.reload enabled)
  | .client index label => do
    let client ← s.clients[index]?
    let client' ← localStep client label
    return s.move index client client'
  | .receive index => do
    let request ← s.requests[index]?
    if request.received then none
    else
      return { s with
        requests := s.requests.set index { request with received := true }
        pending := s.pending.filter request.asksFor }
  | .answer index => do
    let request ← s.requests[index]?
    if request.received ∧ request.answer.isNone then
      return { s with
        requests := s.requests.set index
          { request with answer := some (s.pending.filter request.asksFor) } }
    else none
  | .deliver index => do
    let request ← s.requests[index]?
    let updates ← request.answer
    if request.awaited then
      let client ← s.clients[request.client]?
      let client' ← Client.machine.step client (.run (.polled updates))
      return s.move request.client client client'
    else none

end System

/-! ### Deliveries -/

namespace System

/-- `Run` of each client. -/
def runs (s : System) : List Client.Run :=
  s.clients.map (·.run)

/-- No other client has taken one of the updates. -/
def untaken (s : System) (index : ℕ) (updates : List Update) : Bool :=
  s.runs.zipIdx.all fun run ↦
    run.2 = index || (forHandler updates).all fun updateID ↦ updateID ∉ run.1.taken

/-- The deliveries in which no client gets an update for the handler that another client has got
before. -/
def first (s : System) : Label → Bool
  | .deliver index =>
    match s.requests[index]? with
    | some ⟨client, _, _, _, some updates⟩ => s.untaken client updates
    | _ => true
  | _ => true

/-- The deliveries in which a client gets no update that its offset cannot be brought behind. -/
def numbers (s : System) : Label → Bool
  | .deliver index =>
    ∀ updates ∈ s.requests[index]?.bind (·.answer), ∀ update ∈ updates, update.Passable
  | _ => true

/-- The invariant: what is pending has distinct identifiers, and so has every answer, with none
below the offset; a client that waits for an answer polls with the offset of its request; and what
clients have taken is behind their offsets, and taken once. -/
structure Sound (s : System) : Prop where
  pending : (s.pending.map (·.updateID)).Nodup
  used : ∀ update ∈ s.pending, update.updateID ∈ s.used ∧ update.Numbered
  answers : ∀ request ∈ s.requests, ∀ updates, request.answer = some updates →
    (updates.map (·.updateID)).Nodup ∧
      ∀ update ∈ updates, request.asksFor update = true ∧ update.Numbered
  awaited : ∀ request ∈ s.requests, request.awaited = true →
    ∃ run, s.runs[request.client]? = some run ∧ run.place = .polling ∧
      ∀ update, request.asksFor update = true → 0 ≤ update.updateID → run.offset ≤ update.updateID
  behind : ∀ run ∈ s.runs, run.Behind
  once : ∀ run ∈ s.runs, run.taken.Nodup
  apart : ∀ (i j : ℕ) (run other : Client.Run), i ≠ j → s.runs[i]? = some run →
    s.runs[j]? = some other → run.taken.Disjoint other.taken

variable {s s' : System}

/-- The run of a client. -/
theorem getElem?_runs {index : ℕ} {client : Listener Client.Run}
    (hclient : s.clients[index]? = some client) : s.runs[index]? = some client.run := by
  rw [runs, List.getElem?_map, hclient]
  rfl

theorem sound_new : Sound new where
  pending := List.nodup_nil
  used _ hmem := absurd hmem List.not_mem_nil
  answers _ hmem := absurd hmem List.not_mem_nil
  awaited _ hmem := absurd hmem List.not_mem_nil
  behind _ hmem := absurd hmem List.not_mem_nil
  once _ hmem := absurd hmem List.not_mem_nil
  apart _ _ _ _ _ hrun := nomatch hrun

/-- The arrival of an update. -/
theorem Sound.arrive (h : s.Sound) {update : Update} (hnew : update.updateID ∉ s.used)
    (hnumbered : update.Numbered) :
    Sound { s with
      pending := s.pending ++ [update]
      used := s.used ++ [update.updateID] } where
  pending := by
    rw [List.map_append, List.nodup_append]
    refine ⟨h.pending, List.nodup_singleton _, ?_⟩
    intro old hold new hmem heq
    obtain ⟨other, hother, rfl⟩ := List.mem_map.mp hold
    rw [List.map_singleton, List.mem_singleton] at hmem
    rw [hmem] at heq
    exact hnew (heq ▸ (h.used other hother).1)
  used := by
    intro other hmem
    rcases List.mem_append.mp hmem with hold | hlast
    · exact ⟨List.mem_append_left _ (h.used other hold).1, (h.used other hold).2⟩
    · rw [List.mem_singleton.mp hlast]
      exact ⟨List.mem_append_right _ List.mem_cons_self, hnumbered⟩
  answers := h.answers
  awaited := h.awaited
  behind := h.behind
  once := h.once
  apart := h.apart

/-- A cancellation leaves `Run` as it is. -/
theorem runs_cancelCurrent (s : System) : s.cancelCurrent.map (·.run) = s.runs := by
  rw [cancelCurrent]
  split
  · rfl
  · apply List.ext_getElem?
    intro position
    rw [runs, List.getElem?_map, List.getElem?_map, List.getElem?_modify]
    cases s.clients[position]? with
    | none => rfl
    | some client =>
      simp only [Option.map_eq_map, Option.map_some]
      split_ifs <;> rfl

/-- What has the same clients, or one more that is new. -/
def SameRuns (s s' : System) : Prop :=
  s'.runs = s.runs ∨ s'.runs = s.runs ++ [Client.new.run]

theorem sameRuns_reload (s : System) (enabled : Bool) : SameRuns s (s.reload enabled) := by
  rw [reload]
  split_ifs
  · refine Or.inr ?_
    rw [runs, List.map_append, runs_cancelCurrent]
    rfl
  · exact Or.inl (runs_cancelCurrent s)

/-- The run of a client is an old one, or that of a new client. -/
theorem SameRuns.getElem? {index : ℕ} {run : Client.Run} (h : SameRuns s s')
    (hrun : s'.runs[index]? = some run) : s.runs[index]? = some run ∨ run = Client.new.run := by
  rcases h with hsame | hmore
  · exact Or.inl (hsame ▸ hrun)
  · rw [hmore] at hrun
    by_cases hlt : index < s.runs.length
    · rw [List.getElem?_append_left hlt] at hrun
      exact Or.inl hrun
    · rw [List.getElem?_append_right (Nat.le_of_not_lt hlt)] at hrun
      exact Or.inr (List.mem_singleton.mp (List.mem_of_getElem? hrun))

theorem SameRuns.mem {run : Client.Run} (h : SameRuns s s') (hrun : run ∈ s'.runs) :
    run ∈ s.runs ∨ run = Client.new.run := by
  obtain ⟨index, hindex⟩ := List.mem_iff_getElem?.mp hrun
  exact (h.getElem? hindex).imp List.mem_of_getElem? id

theorem SameRuns.old {index : ℕ} {run : Client.Run} (h : SameRuns s s')
    (hrun : s.runs[index]? = some run) : s'.runs[index]? = some run := by
  rcases h with hsame | hmore
  · rw [hsame, hrun]
  · rw [hmore, List.getElem?_append_left (List.getElem?_eq_some_iff.mp hrun).1, hrun]

/-- A step at the Bot API, and a `Reload`. -/
theorem Sound.of_sameRuns (h : s.Sound) (hruns : SameRuns s s')
    (hpending : (s'.pending.map (·.updateID)).Nodup)
    (hused : ∀ update ∈ s'.pending, update.updateID ∈ s'.used ∧ update.Numbered)
    (hrequests : ∀ request' ∈ s'.requests, ∃ request ∈ s.requests,
      request'.client = request.client ∧ request'.offset = request.offset ∧
      request'.awaited = request.awaited ∧ ∀ updates, request'.answer = some updates →
        request.answer = some updates ∨ updates = s.pending.filter request.asksFor) :
    s'.Sound where
  pending := hpending
  used := hused
  answers := by
    intro request' hmem updates hanswer
    obtain ⟨request, hrequest, -, hoffset, -, hupdates⟩ := hrequests request' hmem
    have hasks : request'.asksFor = request.asksFor := by
      funext update
      rw [Request.asksFor, hoffset, Request.asksFor]
    rw [hasks]
    rcases hupdates updates hanswer with hold | rfl
    · exact h.answers request hrequest updates hold
    · exact ⟨h.pending.sublist (List.filter_sublist.map _),
        fun update hupdate ↦ ⟨(List.mem_filter.mp hupdate).2,
          (h.used update (List.mem_filter.mp hupdate).1).2⟩⟩
  awaited := by
    intro request' hmem hawaited
    obtain ⟨request, hrequest, hclient, hoffset, hsame, -⟩ := hrequests request' hmem
    obtain ⟨run, hrun, hplace, hbehind⟩ := h.awaited request hrequest (hsame ▸ hawaited)
    refine ⟨run, hclient ▸ hruns.old hrun, hplace, ?_⟩
    intro update hasks hpositive
    refine hbehind update ?_ hpositive
    rw [Request.asksFor, hoffset] at hasks
    rw [Request.asksFor]
    exact hasks
  behind := by
    intro run hmem
    rcases hruns.mem hmem with hold | rfl
    · exact h.behind run hold
    · exact ⟨fun _ hnone ↦ absurd hnone List.not_mem_nil,
        fun _ hnone ↦ absurd hnone List.not_mem_nil⟩
  once := by
    intro run hmem
    rcases hruns.mem hmem with hold | rfl
    · exact h.once run hold
    · exact List.nodup_nil
  apart := by
    intro i j run other hij hrun hother
    rcases hruns.getElem? hrun with hrun | rfl
    · rcases hruns.getElem? hother with hother | rfl
      · exact h.apart i j run other hij hrun hother
      · exact List.disjoint_nil_right _
    · exact List.disjoint_nil_left _

/-! ### Moves of clients -/

variable {index : ℕ} {client client' : Listener Client.Run}

/-- The run of a client after a move. -/
theorem runs_move : (s.move index client client').runs = s.runs.set index client'.run := by
  rw [runs, move, List.map_set]
  rfl

theorem getElem?_move {position : ℕ} {run : Client.Run}
    (hrun : (s.move index client client').runs[position]? = some run) :
    (position = index ∧ run = client'.run) ∨ (position ≠ index ∧ s.runs[position]? = some run) := by
  rw [runs_move, List.getElem?_set] at hrun
  split_ifs at hrun with hsame
  · exact Or.inl ⟨hsame.symm, (Option.some.inj hrun).symm⟩
  · exact Or.inr ⟨Ne.symm hsame, hrun⟩

/-- The requests after a move: those from before, given up or not, and the one of a poll that
begins. Only a client that goes on polling still waits. -/
theorem mem_requests_move {request' : Request}
    (hmem : request' ∈ (s.move index client client').requests) :
    (∃ request ∈ s.requests, request'.client = request.client ∧ request'.offset = request.offset ∧
        request'.answer = request.answer ∧ (request'.awaited = true → request.awaited = true ∧
          (request.client = index → client'.run.place = .polling))) ∨
      (client'.run.place = .polling ∧ request' = sent index client') := by
  have hbase : ∀ request' ∈ (if client'.run.place = .polling then s.requests
      else s.requests.map fun request ↦
        if request.client = index then { request with awaited := false } else request),
      ∃ request ∈ s.requests, request'.client = request.client ∧
        request'.offset = request.offset ∧ request'.answer = request.answer ∧
        (request'.awaited = true → request.awaited = true ∧
          (request.client = index → client'.run.place = .polling)) := by
    intro request' hmem
    split_ifs at hmem with hpolling
    · exact ⟨request', hmem, rfl, rfl, rfl, fun hawaited ↦ ⟨hawaited, fun _ ↦ hpolling⟩⟩
    · obtain ⟨request, hrequest, rfl⟩ := List.mem_map.mp hmem
      refine ⟨request, hrequest, ?_⟩
      split_ifs with hclient
      · exact ⟨rfl, rfl, rfl, fun hnone ↦ nomatch hnone⟩
      · exact ⟨rfl, rfl, rfl, fun hawaited ↦ ⟨hawaited, fun hsame ↦ absurd hsame hclient⟩⟩
  rw [move] at hmem
  dsimp only at hmem
  by_cases hbegins : client.run.place ≠ .polling ∧ client'.run.place = .polling
  · rw [if_pos hbegins] at hmem
    rcases List.mem_append.mp hmem with hold | hnew
    · exact Or.inl (hbase request' hold)
    · exact Or.inr ⟨hbegins.2, List.mem_singleton.mp hnew⟩
  · rw [if_neg hbegins] at hmem
    exact Or.inl (hbase request' hmem)

/-- What a request of a poll asks for is not below the offset. -/
theorem offset_le_of_asksFor {update : Update}
    (hasks : (sent index client).asksFor update = true) (hpositive : 0 ≤ update.updateID) :
    client.run.offset ≤ update.updateID := by
  by_cases hpos : 0 < client.run.offset
  · rw [Request.asksFor, sent, if_pos hpos] at hasks
    exact of_decide_eq_true hasks
  · exact (not_lt.mp hpos).trans hpositive

/-- A move of a client that takes nothing which it or another client has taken. -/
theorem Sound.move (h : s.Sound) (hclient : s.clients[index]? = some client)
    (hpolling : client.run.place = .polling → client'.run.place = .polling →
      client'.run = client.run)
    (hbehind : client'.run.Behind) (honce : client'.run.taken.Nodup)
    (hapart : ∀ (position : ℕ) (other : Client.Run), position ≠ index →
      s.runs[position]? = some other → client'.run.taken.Disjoint other.taken) :
    (s.move index client client').Sound := by
  have hrun : s.runs[index]? = some client.run := getElem?_runs hclient
  have hrun' : (s.move index client client').runs[index]? = some client'.run := by
    rw [runs_move, List.getElem?_set_self (List.getElem?_eq_some_iff.mp hrun).1]
  have hold : ∀ run ∈ (s.move index client client').runs, run ∈ s.runs ∨ run = client'.run := by
    intro run hmem
    obtain ⟨position, hposition⟩ := List.mem_iff_getElem?.mp hmem
    rcases getElem?_move hposition with ⟨-, hsame⟩ | ⟨-, hold⟩
    · exact Or.inr hsame
    · exact Or.inl (List.mem_of_getElem? hold)
  constructor
  · exact h.pending
  · exact h.used
  · intro request' hmem updates hanswer
    rcases mem_requests_move hmem with ⟨request, hrequest, -, hoffset, hsame, -⟩ | ⟨-, rfl⟩
    · obtain ⟨hnodup, hasks⟩ := h.answers request hrequest updates (hsame ▸ hanswer)
      refine ⟨hnodup, fun update hupdate ↦ ?_⟩
      rw [Request.asksFor, hoffset]
      exact hasks update hupdate
    · cases hanswer
  · intro request' hmem hawaited
    rcases mem_requests_move hmem with
      ⟨request, hrequest, hclient', hoffset, -, hwaits⟩ | ⟨hplace, rfl⟩
    · obtain ⟨hawaits, hgoes⟩ := hwaits hawaited
      obtain ⟨run, hfound, hplace, hbound⟩ := h.awaited request hrequest hawaits
      have hasks : ∀ update, request'.asksFor update = true → 0 ≤ update.updateID →
          run.offset ≤ update.updateID := by
        intro update hasks hpositive
        refine hbound update ?_ hpositive
        rw [Request.asksFor, hoffset] at hasks
        rw [Request.asksFor]
        exact hasks
      rw [hclient']
      by_cases hindex : request.client = index
      · -- The client goes on polling, and nothing else.
        rw [hindex] at hfound ⊢
        obtain rfl : client.run = run := Option.some.inj (hrun.symm.trans hfound)
        refine ⟨client'.run, hrun', hgoes hindex, ?_⟩
        rw [hpolling hplace (hgoes hindex)]
        exact hasks
      · refine ⟨run, ?_, hplace, hasks⟩
        rw [runs_move, List.getElem?_set_ne (Ne.symm hindex)]
        exact hfound
    · exact ⟨client'.run, hrun', hplace, fun update ↦ offset_le_of_asksFor⟩
  · intro run hmem
    rcases hold run hmem with hmem | rfl
    · exact h.behind run hmem
    · exact hbehind
  · intro run hmem
    rcases hold run hmem with hmem | rfl
    · exact h.once run hmem
    · exact honce
  · intro i j run other hij hi hj
    rcases getElem?_move hi with ⟨rfl, rfl⟩ | ⟨hi', hrunOld⟩
    · rcases getElem?_move hj with ⟨rfl, -⟩ | ⟨hj', hotherOld⟩
      · exact absurd rfl hij
      · exact hapart j other hj' hotherOld
    · rcases getElem?_move hj with ⟨rfl, rfl⟩ | ⟨hj', hotherOld⟩
      · exact List.disjoint_symm (hapart i run hi' hrunOld)
      · exact h.apart i j run other hij hrunOld hotherOld

/-- A step of a client without an answer. -/
theorem Sound.clientStep {label : Hub.Label Client.Event} (h : s.Sound)
    (hclient : s.clients[index]? = some client)
    (hlabel : ∀ updates, label ≠ .run (.polled updates))
    (hstep : Client.machine.step client label = some client') :
    (s.move index client client').Sound := by
  obtain ⟨htaken, hbehind⟩ := Client.step_taken hstep hlabel
  have hrun : s.runs[index]? = some client.run := getElem?_runs hclient
  apply h.move hclient
  · exact Client.step_polling hstep
  · exact hbehind (h.behind client.run (List.mem_of_getElem? hrun))
  · rw [htaken]
    exact h.once client.run (List.mem_of_getElem? hrun)
  · intro position other hne hother
    rw [htaken]
    exact h.apart index position client.run other (Ne.symm hne) hrun hother

/-- What no other client has taken. -/
theorem untaken_iff {updates : List Update} : s.untaken index updates = true ↔
    ∀ (position : ℕ) (run : Client.Run), position ≠ index → s.runs[position]? = some run →
      (forHandler updates).Disjoint run.taken := by
  simp only [untaken, List.all_eq_true, Bool.or_eq_true, decide_eq_true_eq, Prod.forall,
    List.mem_zipIdx_iff_getElem?]
  constructor
  · intro hall position run hne hrun updateID hmem htaken
    rcases hall run position hrun with hsame | hfree
    · exact hne hsame
    · exact hfree updateID hmem htaken
  · intro hall run position hrun
    by_cases hne : position = index
    · exact Or.inl hne
    · exact Or.inr fun updateID hmem htaken ↦ hall position run hne hrun hmem htaken

/-- An answer reaches its client, the first to get its updates. -/
theorem Sound.deliver {request : Request} {updates : List Update} (h : s.Sound)
    (hrequest : request ∈ s.requests) (hanswer : request.answer = some updates)
    (hawaited : request.awaited = true) (hclient : s.clients[request.client]? = some client)
    (huntaken : s.untaken request.client updates = true)
    (hpassable : ∀ update ∈ updates, update.Passable)
    (hstep : Client.machine.step client (.run (.polled updates)) = some client') :
    (s.move request.client client client').Sound := by
  obtain ⟨-, hplace', hoffset, hpassed⟩ := Client.polled_taken hstep
  obtain ⟨hnodup, hasks⟩ := h.answers request hrequest updates hanswer
  have hrun : s.runs[request.client]? = some client.run := getElem?_runs hclient
  have hbehind := h.behind client.run (List.mem_of_getElem? hrun)
  obtain ⟨htaken, htaken'⟩ := Client.taken_polled hstep
  have hsub : ∀ updateID ∈ forHandler updates, client.run.offset ≤ updateID := by
    obtain ⟨run, hfound, -, hbound⟩ := h.awaited request hrequest hawaited
    obtain rfl : client.run = run := Option.some.inj (hrun.symm.trans hfound)
    intro updateID hmem
    obtain ⟨update, hfilter, rfl⟩ := List.mem_map.mp hmem
    obtain ⟨hupdate, hsome⟩ := List.mem_filter.mp hfilter
    exact hbound update (hasks update hupdate).1 ((hpassable update hupdate).2 hsome)
  apply h.move hclient
  · intro _ hpolling
    rw [hplace'] at hpolling
    cases hpolling
  · constructor
    · rw [hpassed, hoffset]
      exact hbehind.passed
    · rw [hplace']
      exact fun update hmem ↦ (hasks update hmem).2.hasNext (hpassable update hmem)
  · rw [htaken', List.nodup_append]
    refine ⟨h.once client.run (List.mem_of_getElem? hrun),
      hnodup.sublist (List.filter_sublist.map _), ?_⟩
    -- What was passed is below the offset, and what the answer holds is not.
    rintro updateID hold other hnew rfl
    rw [htaken] at hold
    obtain ⟨update, hmem, rfl⟩ := List.mem_map.mp hold
    exact absurd (hbehind.passed update hmem) (not_lt.mpr (hsub _ hnew))
  · intro position other hne hother
    rw [htaken', List.disjoint_append_left]
    exact ⟨h.apart request.client position client.run other (Ne.symm hne) hrun hother,
      untaken_iff.mp huntaken position other hne hother⟩

/-! ### Runs -/

/-- The reception of a request, which gives up the updates below its offset. -/
theorem Sound.receive {request : Request} (h : s.Sound) (hrequest : request ∈ s.requests) :
    Sound { s with
      requests := s.requests.set index { request with received := true }
      pending := s.pending.filter request.asksFor } := by
  apply h.of_sameRuns
  · exact Or.inl rfl
  · exact h.pending.sublist (List.filter_sublist.map _)
  · intro update hmem
    exact h.used update (List.mem_filter.mp hmem).1
  · intro request' hmem
    rcases List.mem_or_eq_of_mem_set hmem with hold | rfl
    · exact ⟨request', hold, rfl, rfl, rfl, fun _ ↦ Or.inl⟩
    · exact ⟨request, hrequest, rfl, rfl, rfl, fun _ ↦ Or.inl⟩

/-- The answer to a request. -/
theorem Sound.answer {request : Request} (h : s.Sound) (hrequest : request ∈ s.requests) :
    Sound { s with
      requests := s.requests.set index
        { request with answer := some (s.pending.filter request.asksFor) } } := by
  apply h.of_sameRuns
  · exact Or.inl rfl
  · exact h.pending
  · exact h.used
  · intro request' hmem
    rcases List.mem_or_eq_of_mem_set hmem with hold | rfl
    · exact ⟨request', hold, rfl, rfl, rfl, fun _ ↦ Or.inl⟩
    · exact ⟨request, hrequest, rfl, rfl, rfl, fun _ hsame ↦ Or.inr (Option.some.inj hsame).symm⟩

/-- Every step in which deliveries meet the conditions keeps the invariant. -/
theorem Sound.step {label : Label} (h : s.Sound) (hfirst : s.first label = true)
    (hnumbers : s.numbers label = true) (hstep : s.step label = some s') : s'.Sound := by
  cases label with
  | arrive update =>
    rw [System.step] at hstep
    split_ifs at hstep with hrefused
    rw [← Option.some.inj hstep]
    exact h.arrive (fun hused ↦ hrefused (Or.inl hused))
      (not_not.mp fun hnot ↦ hrefused (Or.inr hnot))
  | reload enabled =>
    rw [← Option.some.inj hstep]
    refine h.of_sameRuns (sameRuns_reload s enabled) ?_ ?_ ?_
    · rw [reload]
      split_ifs <;> exact h.pending
    · rw [reload]
      split_ifs <;> exact h.used
    · intro request hmem
      have hold : request ∈ s.requests := by
        rw [reload] at hmem
        split_ifs at hmem <;> exact hmem
      exact ⟨request, hold, rfl, rfl, rfl, fun _ ↦ Or.inl⟩
  | client index label =>
    obtain ⟨client, hclient, hnext⟩ := Option.bind_eq_some_iff.mp hstep
    obtain ⟨client', hmove, hresult⟩ := Option.bind_eq_some_iff.mp hnext
    rw [← Option.some.inj hresult]
    unfold localStep at hmove
    split at hmove
    next => cases hmove
    next hlabel => exact h.clientStep hclient (fun updates heq ↦ hlabel updates heq) hmove
  | receive index =>
    obtain ⟨request, hrequest, hnext⟩ := Option.bind_eq_some_iff.mp hstep
    split_ifs at hnext
    rw [← Option.some.inj hnext]
    exact h.receive (List.mem_of_getElem? hrequest)
  | answer index =>
    obtain ⟨request, hrequest, hnext⟩ := Option.bind_eq_some_iff.mp hstep
    split_ifs at hnext
    rw [← Option.some.inj hnext]
    exact h.answer (List.mem_of_getElem? hrequest)
  | deliver index =>
    obtain ⟨request, hrequest, hanswered⟩ := Option.bind_eq_some_iff.mp hstep
    obtain ⟨updates, hanswer, hnext⟩ := Option.bind_eq_some_iff.mp hanswered
    split_ifs at hnext with hawaited
    obtain ⟨client, hclient, hpolled⟩ := Option.bind_eq_some_iff.mp hnext
    obtain ⟨client', hmove, hresult⟩ := Option.bind_eq_some_iff.mp hpolled
    rw [← Option.some.inj hresult]
    have huntaken : s.untaken request.client updates = true := by
      obtain ⟨number, offset, awaited, received, answer⟩ := request
      simp only at hanswer
      rw [first, hrequest, hanswer] at hfirst
      exact hfirst
    have hpassable : ∀ update ∈ updates, update.Passable := by
      refine of_decide_eq_true hnumbers updates ?_
      rw [hrequest, Option.bind_some, hanswer]
      rfl
    exact h.deliver (List.mem_of_getElem? hrequest) hanswer hawaited hclient huntaken hpassable
      hmove

/-- The identifiers of all updates that were passed to the handler, client by client. -/
def handled (s : System) : List Int :=
  s.runs.flatMap fun run ↦ run.passed.map (·.updateID)

/-- What is taken once is passed once. -/
theorem Sound.handled_nodup (h : s.Sound) : s.handled.Nodup := by
  have hsub : ∀ run : Client.Run, (run.passed.map (·.updateID)).Sublist run.taken :=
    fun run ↦ List.sublist_append_left _ _
  rw [handled, List.nodup_flatMap]
  constructor
  · intro run hmem
    exact (h.once run hmem).sublist (hsub run)
  · rw [List.pairwise_iff_getElem]
    intro i j hi hj hlt updateID hleft hright
    exact h.apart i j _ _ (Nat.ne_of_lt hlt) (List.getElem?_eq_getElem hi)
      (List.getElem?_eq_getElem hj) ((hsub _).subset hleft) ((hsub _).subset hright)

/-- In every run in which no client gets an update for the handler that another client has got
before, nor one that its offset cannot be brought behind, no update is passed to the handler more
than once. -/
theorem passed_once
    (hrun : Steps step (fun s label ↦ s.first label = true ∧ s.numbers label = true) new s) :
    s.handled.Nodup :=
  (hrun.invariant (fun _ _ _ hsound hmeets hstep ↦ hsound.step hmeets.1 hmeets.2 hstep)
    sound_new : s.Sound).handled_nodup

/-! ### A batch is worked on to its end -/

/-- Clients stay, and what they have taken stays taken. -/
def Keeps (s s' : System) : Prop :=
  ∀ (index : ℕ) (run : Client.Run), s.runs[index]? = some run →
    ∃ run', s'.runs[index]? = some run' ∧ run.taken ⊆ run'.taken

theorem keeps_refl (s : System) : Keeps s s :=
  fun _ run hrun ↦ ⟨run, hrun, List.Subset.refl _⟩

theorem keeps_of_sameRuns (h : SameRuns s s') : Keeps s s' :=
  fun _ run hrun ↦ ⟨run, h.old hrun, List.Subset.refl _⟩

theorem keeps_move (hclient : s.clients[index]? = some client)
    (htaken : client.run.taken ⊆ client'.run.taken) : Keeps s (s.move index client client') := by
  intro position run hrun
  by_cases hsame : position = index
  · subst hsame
    have hfound : s.runs[position]? = some client.run := getElem?_runs hclient
    obtain rfl : client.run = run := Option.some.inj (hfound.symm.trans hrun)
    refine ⟨client'.run, ?_, htaken⟩
    rw [runs_move, List.getElem?_set_self (List.getElem?_eq_some_iff.mp hrun).1]
  · refine ⟨run, ?_, List.Subset.refl _⟩
    rw [runs_move, List.getElem?_set_ne (Ne.symm hsame)]
    exact hrun

/-- Every step keeps what is taken. -/
theorem keeps_step {label : Label} (hstep : s.step label = some s') : Keeps s s' := by
  cases label with
  | arrive update =>
    rw [System.step] at hstep
    split_ifs at hstep
    rw [← Option.some.inj hstep]
    exact keeps_of_sameRuns (Or.inl rfl)
  | reload enabled =>
    rw [← Option.some.inj hstep]
    exact keeps_of_sameRuns (sameRuns_reload s enabled)
  | client index label =>
    obtain ⟨client, hclient, hnext⟩ := Option.bind_eq_some_iff.mp hstep
    obtain ⟨client', hmove, hresult⟩ := Option.bind_eq_some_iff.mp hnext
    rw [← Option.some.inj hresult]
    unfold localStep at hmove
    split at hmove
    next => cases hmove
    next hlabel =>
      have htaken := (Client.step_taken hmove fun updates heq ↦ hlabel updates heq).1
      refine keeps_move hclient ?_
      rw [htaken]
      exact List.Subset.refl _
  | receive index =>
    obtain ⟨request, -, hnext⟩ := Option.bind_eq_some_iff.mp hstep
    split_ifs at hnext
    rw [← Option.some.inj hnext]
    exact keeps_of_sameRuns (Or.inl rfl)
  | answer index =>
    obtain ⟨request, -, hnext⟩ := Option.bind_eq_some_iff.mp hstep
    split_ifs at hnext
    rw [← Option.some.inj hnext]
    exact keeps_of_sameRuns (Or.inl rfl)
  | deliver index =>
    obtain ⟨request, -, hanswered⟩ := Option.bind_eq_some_iff.mp hstep
    obtain ⟨updates, -, hnext⟩ := Option.bind_eq_some_iff.mp hanswered
    split_ifs at hnext
    obtain ⟨client, hclient, hpolled⟩ := Option.bind_eq_some_iff.mp hnext
    obtain ⟨client', hmove, hresult⟩ := Option.bind_eq_some_iff.mp hpolled
    rw [← Option.some.inj hresult]
    refine keeps_move hclient ?_
    rw [(Client.taken_polled hmove).2]
    exact List.subset_append_left _ _

/-- Every run keeps what is taken. -/
theorem keeps_of_steps (hrun : Steps step (fun _ _ ↦ True) s s') : Keeps s s' := by
  refine hrun.invariant (P := fun s' ↦ Keeps s s') ?_ (keeps_refl s)
  intro s₁ s₂ label hkeeps _ hstep position run hrun
  obtain ⟨run₁, hrun₁, hsub₁⟩ := hkeeps position run hrun
  obtain ⟨run₂, hrun₂, hsub₂⟩ := keeps_step hstep position run₁ hrun₁
  exact ⟨run₂, hrun₂, List.Subset.trans hsub₁ hsub₂⟩

/-- Where no update was passed twice, two clients have passed different ones. -/
theorem disjoint_of_nodup {i j : ℕ} {run other : Client.Run} (h : s.handled.Nodup) (hij : i ≠ j)
    (hrun : s.runs[i]? = some run) (hother : s.runs[j]? = some other) :
    (run.passed.map (·.updateID)).Disjoint (other.passed.map (·.updateID)) := by
  rw [handled, List.nodup_flatMap, List.pairwise_iff_getElem] at h
  obtain ⟨hi, rfl⟩ := List.getElem?_eq_some_iff.mp hrun
  obtain ⟨hj, rfl⟩ := List.getElem?_eq_some_iff.mp hother
  rcases Nat.lt_or_gt_of_ne hij with hlt | hgt
  · exact h.2 i j hi hj hlt
  · exact List.disjoint_symm (h.2 j i hj hi hgt)

/-- A client that gets an update which another client has got before passes it to the handler a
second time: once no client has anything left of its batches, some update was passed twice. -/
theorem held_passed {s₁ : System} (hnot : s.first (.deliver index) = false)
    (hstep : s.step (.deliver index) = some s₁) (hrun : Steps step (fun _ _ ↦ True) s₁ s')
    (hdone : ∀ run ∈ s'.runs, run.place.held = []) : ¬ s'.handled.Nodup := by
  obtain ⟨request, hrequest, hanswered⟩ := Option.bind_eq_some_iff.mp hstep
  obtain ⟨updates, hanswer, hnext⟩ := Option.bind_eq_some_iff.mp hanswered
  split_ifs at hnext
  obtain ⟨client, hclient, hpolled⟩ := Option.bind_eq_some_iff.mp hnext
  obtain ⟨client', hmove, hresult⟩ := Option.bind_eq_some_iff.mp hpolled
  have huntaken : ¬ s.untaken request.client updates = true := by
    obtain ⟨number, offset, awaited, received, answer⟩ := request
    simp only at hanswer
    rw [first, hrequest, hanswer] at hnot
    exact Bool.eq_false_iff.mp hnot
  rw [untaken_iff] at huntaken
  push Not at huntaken
  obtain ⟨position, other, hne, hother, hmeet⟩ := huntaken
  simp only [List.Disjoint, not_forall, not_false_eq_true, exists_prop] at hmeet
  obtain ⟨updateID, hnew, hold, -⟩ := hmeet
  rw [← Option.some.inj hresult] at hrun
  have hrunning : s.runs[request.client]? = some client.run := getElem?_runs hclient
  have hfirst : (s.move request.client client client').runs[request.client]? =
      some client'.run := by
    rw [runs_move, List.getElem?_set_self (List.getElem?_eq_some_iff.mp hrunning).1]
  have hsecond : (s.move request.client client client').runs[position]? = some other := by
    rw [runs_move, List.getElem?_set_ne (Ne.symm hne)]
    exact hother
  have htaken : updateID ∈ client'.run.taken := by
    rw [(Client.taken_polled hmove).2]
    exact List.mem_append_right _ hnew
  -- Both clients still have the update in the end, and by then they have passed it.
  obtain ⟨run, hend, hkept⟩ := keeps_of_steps hrun _ _ hfirst
  obtain ⟨run', hend', hkept'⟩ := keeps_of_steps hrun _ _ hsecond
  have hpassed : ∀ run ∈ s'.runs, run.taken = run.passed.map (·.updateID) := by
    intro run hmem
    rw [Client.Run.taken, hdone run hmem]
    exact List.append_nil _
  have hleft : updateID ∈ run.passed.map (·.updateID) := by
    rw [← hpassed run (List.mem_of_getElem? hend)]
    exact hkept htaken
  have hright : updateID ∈ run'.passed.map (·.updateID) := by
    rw [← hpassed run' (List.mem_of_getElem? hend')]
    exact hkept' hold
  exact fun hnodup ↦ disjoint_of_nodup hnodup (Ne.symm hne) hend hend' hleft hright

/-- A message from a user. -/
def greeting : Update := ⟨5, some ⟨1, some 7, 7, "/status"⟩⟩

/-- A client starts and polls, and gets its answer. -/
def polls (client request : ℕ) : List Label :=
  List.replicate 4 (.client client (.run .next)) ++
    [.receive request, .answer request, .deliver request] ++
    List.replicate 3 (.client client (.run .next))

/-- The first client has its offset sent with another poll before it is replaced. -/
def acknowledged : List Label :=
  [.arrive greeting, .reload true] ++ polls 0 0 ++
    [.client 0 (.run .handled), .client 0 (.run .next), .client 0 (.run .next), .receive 1,
      .reload true] ++ polls 1 2

/-- The update is passed to the handler, and not by the second client. -/
theorem passed_once_acknowledged :
    ∃ s, Steps step (fun s label ↦ s.first label = true ∧ s.numbers label = true) new s ∧
      (s.clients.length = 2 ∧ s.handled = [5]) ∧ s.handled.Nodup := by
  have hguard : ∀ (s : System) (label : Label), (s.first label && s.numbers label) = true →
      s.first label = true ∧ s.numbers label = true :=
    fun _ _ hmeets ↦ Bool.and_eq_true_iff.mp hmeets
  have htest : (runLabels step (fun s label ↦ s.first label && s.numbers label) new
      acknowledged).any (fun s ↦ decide (s.clients.length = 2 ∧ s.handled = [5])) = true := by
    decide +kernel
  obtain ⟨s, hrun, hend⟩ := Steps.exists_of_runLabels hguard htest
  exact ⟨s, hrun, of_decide_eq_true hend, passed_once hrun⟩

/-- The first client is replaced while its handler works on the update. -/
def replaced : List Label :=
  [.arrive greeting, .reload true] ++ polls 0 0 ++ [.reload true] ++ polls 1 1

/-- The second client passes the update to the handler once more. -/
theorem passed_twice :
    ¬ ∀ s, Steps step (fun _ _ ↦ True) new s → s.handled.Nodup := by
  intro hclaim
  have htest : (runLabels step (fun _ _ ↦ true) new replaced).any (fun s ↦
      decide (s.handled = [5, 5])) = true := by
    decide +kernel
  obtain ⟨s, hrun, hend⟩ := Steps.exists_of_runLabels (fun _ _ _ ↦ trivial) htest
  have hnodup := hclaim s hrun
  rw [of_decide_eq_true hend] at hnodup
  exact absurd hnodup (by decide)

end System

end CodexQueueBot.Telegram
