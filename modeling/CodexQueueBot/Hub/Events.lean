import CodexQueueBot.Commands.Handler
import CodexQueueBot.Lib.Recent

/-!
# The events of an OpenILink client

What the read loop of `hub.Client` makes of the messages on its connections. A message is given as
`json.Unmarshal` leaves it. An event with an identifier that the client remembers is left out, and
the others are decoded and handed on. What a client remembers belongs to the client, not to a
connection: the list of connections is one sequence of messages for it.

`Remembers` is the invariant of the memory: its queue is the window of the identifiers that the
client has accepted. They are recorded beside the memory, and with each call of the handler how many
of them there were before its event.
-/

set_option autoImplicit false
set_option relaxedAutoImplicit false

namespace CodexQueueBot.Hub

open Go Lib

/-! ### Decoding -/

/-- `eventData`, with the fields of its sender. -/
structure EventData where
  content : String
  command : String
  text : String
  senderID : String
  senderRole : String
  deriving DecidableEq, Repr

/-- `wsEnvelope`, with what `json.Unmarshal` makes of the data of the event. -/
structure Envelope where
  type : String
  traceID : String
  eventType : String
  eventID : String
  data : Option EventData
  deriving DecidableEq, Repr

/-- The variable `text` of `decodeIncoming`, unless a command has no name. -/
def eventText (eventType : String) (data : EventData) : Option String :=
  if eventType = "command" then
    let command := Strings.trimSpace data.command
    if command = "" then none
    else
      let args := Strings.trimSpace data.text
      some (if args ≠ "" then "/" ++ command ++ " " ++ args else "/" ++ command)
  else some (Strings.trimSpace data.content)

/-- `decodeIncoming`. -/
def decodeIncoming (envelope : Envelope) : Option Commands.Incoming := do
  guard (envelope.eventType = "message.text" ∨ envelope.eventType = "command")
  let data ← envelope.data
  guard (data.senderID ≠ "" ∧ (data.senderRole = "" ∨ data.senderRole = "user"))
  let text ← eventText envelope.eventType data
  guard (text ≠ "")
  return {
    eventID := envelope.eventID
    traceID := envelope.traceID
    senderID := data.senderID
    replyTo := ""
    text }

/-- What is decoded has the identifier of its event. -/
theorem eventID_of_decodeIncoming {envelope : Envelope} {incoming : Commands.Incoming}
    (h : decodeIncoming envelope = some incoming) : incoming.eventID = envelope.eventID := by
  simp only [decodeIncoming, Option.bind_eq_bind, Option.bind_eq_some_iff] at h
  obtain ⟨-, -, data, -, -, -, text, -, -, -, hincoming⟩ := h
  rw [← Option.some.inj hincoming]

/-! ### Remembering -/

/-- `maxRememberedEvent`. -/
def maxRememberedEvent : ℕ := 2048

/-- The fields `seen` and `seenOrder` of `Client`. -/
structure Memory where
  seen : Finset String
  seenOrder : List String

/-- The memory of a new client. -/
def Memory.new : Memory :=
  ⟨∅, []⟩

/-- `rememberEvent`. -/
def Memory.rememberEvent (memory : Memory) (eventID : String) : Bool × Memory :=
  if eventID ∈ memory.seen then (false, memory)
  else
    let seen := insert eventID memory.seen
    let seenOrder := memory.seenOrder ++ [eventID]
    if maxRememberedEvent < seenOrder.length then
      (true, ⟨seen.erase (seenOrder.head (List.concat_ne_nil _ _)), seenOrder.tail⟩)
    else (true, ⟨seen, seenOrder⟩)

/-- A client's memory, and the identifiers that it has accepted. -/
structure Log where
  memory : Memory
  accepted : List String

/-- A call of `rememberEvent`: whether it accepts the identifier. -/
def Log.remember (log : Log) (eventID : String) : Bool × Log :=
  let (fresh, memory) := log.memory.rememberEvent eventID
  (fresh, ⟨memory, if fresh then log.accepted ++ [eventID] else log.accepted⟩)

/-- The log after a sequence of calls. -/
def Log.after (eventIDs : List String) : Log :=
  eventIDs.foldl (fun log eventID ↦ (log.remember eventID).2) ⟨.new, []⟩

/-- The queue of a memory is the window of what was accepted, without duplicates, and the set is
that of its elements. -/
structure Log.Remembers (log : Log) : Prop where
  order : log.memory.seenOrder = log.accepted.rtake maxRememberedEvent
  nodup : log.memory.seenOrder.Nodup
  seen : log.memory.seen = log.memory.seenOrder.toFinset

namespace Log

variable {log : Log} {eventID : String}

/-- What a memory knows is in its window. -/
theorem Remembers.mem_iff (h : log.Remembers) :
    eventID ∈ log.memory.seen ↔ eventID ∈ log.accepted.rtake maxRememberedEvent := by
  rw [h.seen, List.mem_toFinset, h.order]

/-- An identifier in the window changes nothing. -/
theorem Remembers.remember_of_mem (h : log.Remembers)
    (hmem : eventID ∈ log.accepted.rtake maxRememberedEvent) :
    log.remember eventID = (false, log) := by
  have hsame : log.memory.rememberEvent eventID = (false, log.memory) := by
    rw [Memory.rememberEvent, if_pos (h.mem_iff.mpr hmem)]
  rw [remember, hsame]
  rfl

/-- Another identifier slides the window. -/
theorem Remembers.rememberEvent_of_notMem (h : log.Remembers)
    (hnew : eventID ∉ log.accepted.rtake maxRememberedEvent) :
    log.memory.rememberEvent eventID =
      (true, ⟨(slide maxRememberedEvent log.memory.seenOrder eventID).toFinset,
        slide maxRememberedEvent log.memory.seenOrder eventID⟩) := by
  have hfresh : eventID ∉ log.memory.seenOrder := by
    rwa [h.order]
  rw [Memory.rememberEvent, if_neg (fun hseen ↦ hnew (h.mem_iff.mp hseen)), slide]
  dsimp only
  split_ifs with hfull
  · rw [toFinset_tail (nodup_concat h.nodup hfresh) (List.concat_ne_nil _ _), toFinset_concat,
      h.seen]
  · rw [toFinset_concat, h.seen]

/-- The log after an identifier that is not in the window. -/
theorem Remembers.remember_of_notMem (h : log.Remembers)
    (hnew : eventID ∉ log.accepted.rtake maxRememberedEvent) :
    (log.remember eventID).1 = true ∧
      (log.remember eventID).2.accepted = log.accepted ++ [eventID] ∧
      (log.remember eventID).2.Remembers := by
  rw [remember, h.rememberEvent_of_notMem hnew]
  refine ⟨rfl, rfl, ?_, ?_, rfl⟩
  · change slide _ log.memory.seenOrder eventID = (log.accepted ++ [eventID]).rtake _
    rw [h.order, slide_rtake]
  · exact nodup_slide h.nodup (h.order ▸ hnew)

/-- A call accepts an identifier exactly if it is not in the window. -/
theorem Remembers.fresh_iff (h : log.Remembers) :
    (log.remember eventID).1 = true ↔ eventID ∉ log.accepted.rtake maxRememberedEvent := by
  by_cases hmem : eventID ∈ log.accepted.rtake maxRememberedEvent
  · rw [h.remember_of_mem hmem]
    simp [hmem]
  · simp [(h.remember_of_notMem hmem).1, hmem]

/-- A call keeps the invariant. -/
theorem Remembers.remember (h : log.Remembers) : (log.remember eventID).2.Remembers := by
  by_cases hmem : eventID ∈ log.accepted.rtake maxRememberedEvent
  · rw [h.remember_of_mem hmem]
    exact h
  · exact (h.remember_of_notMem hmem).2.2

/-- A new client has accepted nothing. -/
theorem remembers_new : Remembers ⟨.new, []⟩ :=
  ⟨by rw [List.rtake_nil]; rfl, List.nodup_nil, rfl⟩

/-- Every sequence of calls keeps the invariant. -/
theorem remembers_after (eventIDs : List String) : (after eventIDs).Remembers := by
  induction eventIDs using List.reverseRecOn with
  | nil => exact remembers_new
  | append_singleton eventIDs eventID ih =>
    rw [after, List.foldl_concat]
    exact ih.remember

end Log

/-! ### Reading -/

/-- The log of a client and the calls of its handler, each with the number of identifiers that had
been accepted before its event. -/
structure Reader where
  log : Log
  calls : List (ℕ × Commands.Incoming)

/-- A new client. -/
def Reader.new : Reader :=
  ⟨⟨.new, []⟩, []⟩

/-- An event that is not left out is decoded and handed on. -/
def Reader.handOn (reader : Reader) (log : Log) (envelope : Envelope) : Reader :=
  match decodeIncoming envelope with
  | some incoming => ⟨log, reader.calls ++ [(reader.log.accepted.length, incoming)]⟩
  | none => ⟨log, reader.calls⟩

/-- The body of the loop of `readLoop`: a message that cannot be decoded or is no event is left
out. -/
def Reader.receive (reader : Reader) (message : Option Envelope) : Reader :=
  match message with
  | none => reader
  | some envelope =>
    if envelope.type ≠ "event" then reader
    else if envelope.eventID ≠ "" then
      let (fresh, log) := reader.log.remember envelope.eventID
      if fresh then reader.handOn log envelope else { reader with log }
    else reader.handOn reader.log envelope

/-- `readLoop`, until its connection ends. -/
def Reader.readLoop (reader : Reader) (messages : List (Option Envelope)) : Reader :=
  messages.foldl receive reader

/-- The connections of a client, one after the other. -/
def Reader.run (connections : List (List (Option Envelope))) : Reader :=
  connections.foldl readLoop .new

/-- The handler is called for accepted identifiers only, and again for the same one only after as
many others as the memory holds. -/
structure Reader.Sound (reader : Reader) : Prop where
  remembers : reader.log.Remembers
  accepted : ∀ call ∈ reader.calls, call.2.eventID ≠ "" →
    reader.log.accepted[call.1]? = some call.2.eventID
  apart : reader.calls.Pairwise fun first second ↦ first.2.eventID = second.2.eventID →
    first.2.eventID ≠ "" → first.1 + maxRememberedEvent < second.1

namespace Reader

variable {reader : Reader} {envelope : Envelope}

/-- What is handed on after its identifier has been accepted. -/
theorem Sound.handOn {log : Log} (h : reader.Sound) (hlog : log.Remembers)
    (hgrown : ∃ added, log.accepted = reader.log.accepted ++ added)
    (hnew : envelope.eventID ≠ "" →
      log.accepted = reader.log.accepted ++ [envelope.eventID] ∧
        envelope.eventID ∉ reader.log.accepted.rtake maxRememberedEvent) :
    (reader.handOn log envelope).Sound := by
  obtain ⟨added, hadded⟩ := hgrown
  have hkept : ∀ call ∈ reader.calls, call.2.eventID ≠ "" →
      log.accepted[call.1]? = some call.2.eventID := by
    intro call hcall hne
    have hold := h.accepted call hcall hne
    rw [hadded, List.getElem?_append_left (List.getElem?_eq_some_iff.mp hold).1]
    exact hold
  rw [Reader.handOn]
  split
  next incoming hdecode =>
    have hid := eventID_of_decodeIncoming hdecode
    refine ⟨hlog, ?_, ?_⟩
    · intro call hcall hne
      rcases List.mem_append.mp hcall with hold | hlast
      · exact hkept call hold hne
      · obtain rfl := List.mem_singleton.mp hlast
        dsimp only at hne ⊢
        rw [hid] at hne ⊢
        rw [(hnew hne).1, List.getElem?_concat_length]
    · refine List.pairwise_append.mpr ⟨h.apart, List.pairwise_singleton _ _, ?_⟩
      intro first hfirst second hsecond heq hne
      obtain rfl := List.mem_singleton.mp hsecond
      dsimp only at heq ⊢
      have hold := h.accepted first hfirst hne
      rw [heq, hid] at hold hne
      have hout := (hnew hne).2
      rw [mem_rtake_iff] at hout
      by_contra hclose
      exact hout ⟨first.1, hold, not_lt.mp hclose⟩
  next => exact ⟨hlog, hkept, h.apart⟩

/-- A message keeps the invariant. -/
theorem Sound.receive (h : reader.Sound) (message : Option Envelope) :
    (reader.receive message).Sound := by
  unfold Reader.receive
  cases message with
  | none => exact h
  | some envelope =>
    dsimp only
    split_ifs with htype hne hfresh
    · exact h
    · have hout := h.remembers.fresh_iff.mp hfresh
      obtain ⟨-, haccepted, hlog⟩ := h.remembers.remember_of_notMem hout
      exact h.handOn hlog ⟨_, haccepted⟩ fun _ ↦ ⟨haccepted, hout⟩
    · have hmem : envelope.eventID ∈ reader.log.accepted.rtake maxRememberedEvent := by
        by_contra hout
        exact hfresh (h.remembers.fresh_iff.mpr hout)
      rw [h.remembers.remember_of_mem hmem]
      exact h
    · exact h.handOn h.remembers ⟨[], (List.append_nil _).symm⟩ fun hid ↦ absurd hid hne

/-- A connection keeps the invariant. -/
theorem Sound.readLoop (h : reader.Sound) (messages : List (Option Envelope)) :
    (reader.readLoop messages).Sound := by
  induction messages generalizing reader with
  | nil => exact h
  | cons message messages ih => exact ih (h.receive message)

/-- The connections of a client keep the invariant. -/
theorem sound_run (connections : List (List (Option Envelope))) : (run connections).Sound := by
  induction connections using List.reverseRecOn with
  | nil => exact ⟨Log.remembers_new, by simp [run, new], List.Pairwise.nil⟩
  | append_singleton connections messages ih =>
    rw [run, List.foldl_concat]
    exact ih.readLoop messages

/-- A message with an identifier in the window changes nothing. -/
theorem Sound.receive_of_mem (h : reader.Sound) (hne : envelope.eventID ≠ "")
    (hmem : envelope.eventID ∈ reader.log.accepted.rtake maxRememberedEvent) :
    reader.receive (some envelope) = reader := by
  unfold Reader.receive
  dsimp only
  rw [h.remembers.remember_of_mem hmem]
  split_ifs with htype hfresh
  · rfl
  · cases hfresh
  · rfl

end Reader

/-- The window of `rememberEvent`: after every sequence of calls, the next one accepts exactly what
is not among the identifiers accepted last, and the two fields of the memory hold these, in order.
On every sequence of connections, a message with such an identifier is left out, and between two
calls of the handler for one identifier the client accepts as many others as the memory holds. -/
theorem rememberEvent_window :
    (∀ (eventIDs : List String) (eventID : String),
      let log := Log.after eventIDs
      ((log.remember eventID).1 = true ↔ eventID ∉ log.accepted.rtake maxRememberedEvent) ∧
        log.memory.seen = log.memory.seenOrder.toFinset ∧ log.memory.seenOrder.Nodup ∧
        log.memory.seenOrder = log.accepted.rtake maxRememberedEvent ∧
        log.memory.seenOrder.length ≤ maxRememberedEvent) ∧
      ∀ connections : List (List (Option Envelope)),
        let reader := Reader.run connections
        (∀ envelope : Envelope, envelope.eventID ≠ "" →
          envelope.eventID ∈ reader.log.accepted.rtake maxRememberedEvent →
          reader.receive (some envelope) = reader) ∧
        reader.calls.Pairwise fun first second ↦ first.2.eventID = second.2.eventID →
          first.2.eventID ≠ "" → first.1 + maxRememberedEvent < second.1 := by
  constructor
  · intro eventIDs eventID
    have h := Log.remembers_after eventIDs
    refine ⟨h.fresh_iff, h.seen, h.nodup, h.order, ?_⟩
    rw [h.order, length_rtake]
    exact min_le_left _ _
  · intro connections
    have h := Reader.sound_run connections
    exact ⟨fun envelope hne hmem ↦ h.receive_of_mem hne hmem, h.apart⟩

end CodexQueueBot.Hub
