import CodexQueueBot.Jobs.Sanitize
import CodexQueueBot.Lib.Table

/-!
# The state of the job manager

`jobs.Manager` keeps, for every target, a queue job, a keepalive job and an arbiter, all under one
mutex. This module defines these records, the snapshot they are shown by, and the broadcast of a
snapshot to the registered observers.

Go objects with identity are numbers here. A context made by `context.WithCancel` is a number, and
`cancelled` lists those whose cancel function has been called; the contexts of workers are children
of the root context, so they are done as well when `rootDone` is set. A channel made by
`make(chan struct{})` is a number, and `closed` lists the closed ones. A `cancel` field of a record
holds the number of the context it cancels. Times and durations are integers in nanoseconds, with
zero for the zero `time.Time`. Counters are natural numbers, so that 64-bit run identifiers do not
wrap.

A Go map read of a missing key yields `nil` for the maps of pointers, and dereferencing it panics.
Here such reads are lookups in the `Option` monad: a section that would panic has no result.
-/

set_option autoImplicit false
set_option relaxedAutoImplicit false

namespace CodexQueueBot.Jobs

open Lib

/-- A `time.Time` in nanoseconds; the zero time is `0`. -/
abbrev Time := Int

/-- A `time.Duration` in nanoseconds. -/
abbrev Duration := Int

/-! ### Jobs, keepalives and arbiters -/

/-- `State`, the state of a queue job. -/
inductive State
  | idle
  | running
  | succeeded
  | stopped
  deriving DecidableEq, Repr

/-- `KeepaliveState`, the state of a keepalive job. -/
inductive KeepaliveState
  | requesting
  | waitingQueue
  | waitingNext
  | stopped
  deriving DecidableEq, Repr

/-- `requestOwner`, the kind of request an arbiter has admitted. -/
inductive RequestOwner
  | none
  | queue
  | keepalive
  | adhoc
  deriving DecidableEq, Repr

/-- `Subscriber`. A messenger is named by a number; `none` is the nil interface. -/
structure Subscriber where
  recipient : String
  traceID : String
  key : String
  messenger : Option Nat
  deriving DecidableEq, Repr

/-- `job`, the queue job of a target. The defaults are those of a new target. -/
structure Job where
  state : State := .idle
  attempts : Nat := 0
  startedAt : Time := 0
  lastAttempt : Time := 0
  nextAttempt : Time := 0
  finishedAt : Time := 0
  lastError : String := ""
  runID : Nat := 0
  cancel : Option Nat := none
  subscribers : Table String Subscriber := ∅
  workers : Nat := 0

/-- `keepaliveJob`, the keepalive job of a target. -/
structure KeepaliveJob where
  state : KeepaliveState := .stopped
  requests : Nat := 0
  startedAt : Time := 0
  lastRequest : Time := 0
  lastSuccess : Time := 0
  lastFailure : Time := 0
  nextRequest : Time := 0
  stoppedAt : Time := 0
  lastError : String := ""
  runID : Nat := 0
  cancel : Option Nat := none
  scheduleChanged : Nat
  workers : Nat := 0

/-- `targetArbiter`, which admits one request at a time to a target. -/
structure TargetArbiter where
  owner : RequestOwner := .none
  ownerRunID : Nat := 0
  cancel : Option Nat := none
  changed : Nat

/-! ### Snapshots and observers -/

/-- `Snapshot`, what is shown of a queue job. -/
structure Snapshot where
  name : String
  model : String
  apiHost : String
  state : State
  attempts : Nat
  startedAt : Time
  lastAttempt : Time
  nextAttempt : Time
  finishedAt : Time
  lastError : String
  deriving DecidableEq, Repr

/-- `KeepaliveSnapshot`, what is shown of a keepalive job. -/
structure KeepaliveSnapshot where
  name : String
  model : String
  apiHost : String
  state : KeepaliveState
  requests : Nat
  startedAt : Time
  lastRequest : Time
  lastSuccess : Time
  lastFailure : Time
  nextRequest : Time
  stoppedAt : Time
  lastError : String
  deriving DecidableEq, Repr

/-- `TargetSnapshot`. -/
structure TargetSnapshot where
  id : Int
  sortOrder : Int
  name : String
  model : String
  apiHost : String
  busy : Bool
  adhocRunning : Bool
  queue : Snapshot
  keepalive : KeepaliveSnapshot
  deriving DecidableEq, Repr

/-- `ManagerSnapshot`. -/
structure ManagerSnapshot where
  targets : List TargetSnapshot
  currentProcesses : Nat
  maxParallel : Int
  deriving DecidableEq, Repr

/-- `Event`. -/
structure Event where
  id : Nat
  snapshot : ManagerSnapshot
  deriving DecidableEq, Repr

/-- An observer and its event channel. Deleting it from the map of observers clears `registered`;
the receiver keeps the channel. -/
structure Observer where
  id : Nat
  capacity : Nat
  buffer : List Event := []
  registered : Bool := true
  closed : Bool := false
  deriving DecidableEq, Repr

/-! ### The manager -/

/-- `Manager`, with the contexts and channels it has made. `promptRunner` says whether the runner
implements `PromptRunner`. -/
structure Manager where
  promptRunner : Bool
  messenger : Option Nat
  keepaliveMin : Duration
  keepaliveMax : Duration
  successMessage : String
  maxParallel : Int
  targets : Table String Target := ∅
  order : List String := []
  jobs : Table String Job := ∅
  keepalives : Table String KeepaliveJob := ∅
  arbiters : Table String TargetArbiter := ∅
  currentProcesses : Nat := 0
  slotsInUse : Nat := 0
  nextEventID : Nat := 0
  nextObserverID : Nat := 0
  nextAdhocRunID : Nat := 0
  observers : List Observer := []
  runWG : Nat := 0
  shuttingDown : Bool := false
  parallelChanged : Nat := 0
  rootDone : Bool := false
  nextContext : Nat := 0
  cancelled : List Nat := []
  nextChannel : Nat := 1
  closed : List Nat := []

namespace Manager

/-- A worker's context is done: it was cancelled, or the root context was. -/
def contextDone (m : Manager) (context : Nat) : Bool :=
  m.rootDone || m.cancelled.contains context

/-- A channel is closed. -/
def channelClosed (m : Manager) (channel : Nat) : Bool :=
  m.closed.contains channel

/-- Calls a cancel function; `none` is a nil function that the callers check for. -/
def callCancel (m : Manager) (cancel : Option Nat) : Manager :=
  match cancel with
  | some context => { m with cancelled := context :: m.cancelled }
  | none => m

/-- `m.jobs[key] = job`, or a write through the pointer. -/
def setJob (m : Manager) (key : String) (job : Job) : Manager :=
  { m with jobs := m.jobs.insert key job }

/-- `m.keepalives[key] = keepalive`, or a write through the pointer. -/
def setKeepalive (m : Manager) (key : String) (keepalive : KeepaliveJob) : Manager :=
  { m with keepalives := m.keepalives.insert key keepalive }

/-- `m.arbiters[key] = arbiter`, or a write through the pointer. -/
def setArbiter (m : Manager) (key : String) (arbiter : TargetArbiter) : Manager :=
  { m with arbiters := m.arbiters.insert key arbiter }

/-- `m.targets[key]`, which is the zero target for a missing key. -/
def target (m : Manager) (key : String) : Target :=
  (m.targets.lookup key).getD Target.zero

/-- `normalizeName`. -/
def normalizeName (value : String) : String :=
  Go.Strings.toLower (Go.Strings.trimSpace value)

/-- `targetBusyLocked` on the records of one target. -/
def busyRecords (job : Job) (keepalive : KeepaliveJob) (arbiter : TargetArbiter) : Bool :=
  job.state == .running || 0 < job.workers || keepalive.state != .stopped ||
    0 < keepalive.workers || arbiter.owner != .none

/-- `targetBusyLocked`. -/
def targetBusyLocked (m : Manager) (key : String) : Option Bool := do
  let job ← m.jobs.lookup key
  let keepalive ← m.keepalives.lookup key
  let arbiter ← m.arbiters.lookup key
  return busyRecords job keepalive arbiter

/-! ### Broadcasts -/

section Broadcast

variable [Go.NetURL]

/-- `queueSnapshotLocked`, on the job itself. -/
def queueSnapshot (target : Target) (job : Job) : Snapshot where
  name := target.name
  model := target.model
  apiHost := targetHost target
  state := job.state
  attempts := job.attempts
  startedAt := job.startedAt
  lastAttempt := job.lastAttempt
  nextAttempt := job.nextAttempt
  finishedAt := job.finishedAt
  lastError := job.lastError

/-- `keepaliveSnapshotLocked`, on the keepalive job itself. -/
def keepaliveSnapshot (target : Target) (keepalive : KeepaliveJob) : KeepaliveSnapshot where
  name := target.name
  model := target.model
  apiHost := targetHost target
  state := keepalive.state
  requests := keepalive.requests
  startedAt := keepalive.startedAt
  lastRequest := keepalive.lastRequest
  lastSuccess := keepalive.lastSuccess
  lastFailure := keepalive.lastFailure
  nextRequest := keepalive.nextRequest
  stoppedAt := keepalive.stoppedAt
  lastError := keepalive.lastError

/-- The entry of `snapshotLocked` for one key. -/
def targetSnapshot (m : Manager) (key : String) : Option TargetSnapshot := do
  let target := m.target key
  let job ← m.jobs.lookup key
  let keepalive ← m.keepalives.lookup key
  let arbiter ← m.arbiters.lookup key
  return {
    id := target.id
    sortOrder := target.sortOrder
    name := target.name
    model := target.model
    apiHost := targetHost target
    busy := busyRecords job keepalive arbiter
    adhocRunning := arbiter.owner == .adhoc
    queue := queueSnapshot target job
    keepalive := keepaliveSnapshot target keepalive }

/-- `snapshotLocked`. -/
def snapshotLocked (m : Manager) : Option ManagerSnapshot := do
  let targets ← m.order.mapM m.targetSnapshot
  return { targets, currentProcesses := m.currentProcesses, maxParallel := m.maxParallel }

/-- The `select` of `publishLocked` for one observer: the event is buffered if there is room,
otherwise the observer is removed and its channel closed. -/
def publishTo (event : Event) (observer : Observer) : Observer :=
  if observer.registered then
    if observer.buffer.length < observer.capacity then
      { observer with buffer := observer.buffer ++ [event] }
    else { observer with registered := false, closed := true }
  else observer

/-- `publishLocked`. -/
def publishLocked (m : Manager) (event : Event) : Manager :=
  { m with observers := m.observers.map (publishTo event) }

/-- `broadcastStateLocked`. -/
def broadcastStateLocked (m : Manager) : Option Manager := do
  let m := { m with nextEventID := m.nextEventID + 1 }
  let snapshot ← m.snapshotLocked
  return m.publishLocked { id := m.nextEventID, snapshot }

end Broadcast

end Manager

end CodexQueueBot.Jobs
