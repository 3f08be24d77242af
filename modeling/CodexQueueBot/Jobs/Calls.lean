import CodexQueueBot.Jobs.Sections

/-!
# The critical sections of the calls

The constructor of the manager and the critical sections of its exported operations: starting and
stopping tasks, changing the settings, editing targets, shutting down and observing. `Start`,
`StartKeepalive`, `UpdateTarget` and `DeleteTarget` take the lock several times; each section is a
definition here, and `System` puts them in order.
-/

set_option autoImplicit false
set_option relaxedAutoImplicit false

namespace CodexQueueBot.Jobs

open Lib

/-- The two modes of a target, the values of `requestOwner` that `prepareMode` is called with. -/
inductive Mode
  | queue
  | keepalive
  deriving DecidableEq, Repr

/-- What a call passes as `persist`: nothing, a function that fails, or one that succeeds and leaves
the given target behind the pointer. -/
inductive Persist
  | absent
  | failed (message : String)
  | saved (target : Target)
  deriving DecidableEq, Repr

namespace Manager

/-! ### Construction -/

/-- The records of a new target under a key, as `New` and `CreateTarget` add them. -/
def addRecords (m : Manager) (key : String) (target : Target) : Manager :=
  { m with
    targets := m.targets.insert key target
    order := m.order ++ [key]
    jobs := m.jobs.insert key {}
    keepalives := m.keepalives.insert key { scheduleChanged := m.nextChannel }
    arbiters := m.arbiters.insert key { changed := m.nextChannel + 1 }
    nextChannel := m.nextChannel + 2 }

/-- The records of a new target under its normalised name. -/
def addTarget (m : Manager) (target : Target) : Manager :=
  m.addRecords (normalizeName target.name) target

/-- What `New` is given besides the targets. -/
structure Settings where
  promptRunner : Bool
  messenger : Option Nat
  keepaliveMin : Duration
  keepaliveMax : Duration
  maxParallel : Int
  successMessage : String
  deriving DecidableEq, Repr

/-- `New`. -/
def new (settings : Settings) (targets : List Target) : Manager :=
  targets.foldl addTarget
    { promptRunner := settings.promptRunner
      messenger := settings.messenger
      keepaliveMin := settings.keepaliveMin
      keepaliveMax := settings.keepaliveMax
      maxParallel := settings.maxParallel
      successMessage := settings.successMessage }

section

variable [Go.NetURL]

/-! ### Starting tasks -/

/-- What a pass through the loop of `prepareMode` finds. -/
inductive PrepareOutcome
  | refused
  | busy
  | ready
  deriving DecidableEq, Repr

/-- The critical section of `prepareMode`. -/
def prepareMode (m : Manager) (key : String) (desired : Mode) (now : Time) :
    Option (Manager × PrepareOutcome) :=
  if (m.targets.lookup key).isNone ∨ m.shuttingDown then some (m, .refused)
  else do
    let queue ← m.jobs.lookup key
    let keepalive ← m.keepalives.lookup key
    let arbiter ← m.arbiters.lookup key
    if desired = .queue ∧ queue.state = .running then return (m, .refused)
    if desired = .keepalive ∧ keepalive.state ≠ .stopped then return (m, .refused)
    let adhoc := arbiter.owner = .adhoc
    let stopKeepalive :=
      desired = .queue ∧ (keepalive.state ≠ .stopped ∨ 0 < keepalive.workers)
    let stopQueue := desired = .keepalive ∧ (queue.state = .running ∨ 0 < queue.workers)
    let m := if adhoc then m.stopAdhocLocked key else m
    let m ← (if stopKeepalive then m.stopKeepaliveLocked key now else some m)
    let m ← (if stopQueue then m.stopQueueLocked key now else some m)
    let busy ← m.targetBusyLocked key
    let m ← (if adhoc ∨ stopKeepalive ∨ stopQueue then m.broadcastStateLocked else some m)
    return (m, if busy then .busy else .ready)

/-- What a pass through the loop of `waitTargetIdle` finds. -/
inductive IdleOutcome
  | gone
  | idle
  | busy
  deriving DecidableEq, Repr

omit [Go.NetURL] in
/-- The critical section of `waitTargetIdle`. -/
def waitTargetIdle (m : Manager) (key : String) : Option IdleOutcome :=
  if (m.targets.lookup key).isNone then some .gone
  else do
    let busy ← m.targetBusyLocked key
    let arbiter ← m.arbiters.lookup key
    return if busy = false ∧ arbiter.owner = .none then .idle else .busy

/-- How a section of `startQueue` or `startKeepalive` ends: with a name and nothing started, with a
name and the caller subscribed to the run that is on, with another pass, or with a new run. -/
inductive StartOutcome
  | refused (name : String)
  | joined (name : String) (runID : Nat)
  | retry
  | started (name : String) (runID context : Nat)
  deriving DecidableEq, Repr

omit [Go.NetURL] in
/-- The section of `startQueue` after `prepareMode` has failed. -/
def rejectQueue (m : Manager) (key : String) (subscriber : Subscriber) :
    Option (Manager × StartOutcome) :=
  match m.targets.lookup key with
  | none => some (m, .refused "")
  | some target =>
    if subscriber.recipient ≠ "" then do
      let current ← m.jobs.lookup key
      if current.state = .running then
        return (m.setJob key (addSubscriberLocked current subscriber),
          .joined target.name current.runID)
      return (m, .refused target.name)
    else some (m, .refused target.name)

/-- The job that a new queue run starts from. -/
def beginJob (current : Job) (subscriber : Subscriber) (context : Nat) (now : Time) : Job :=
  { addSubscriberLocked current subscriber with
    runID := current.runID + 1
    cancel := some context
    state := .running
    attempts := 0
    startedAt := now
    lastAttempt := 0
    nextAttempt := 0
    finishedAt := 0
    lastError := "" }

/-- The section of `startQueue` after `prepareMode` has succeeded. The snapshot of the new run is
broadcast before its worker is counted. -/
def commitQueue (m : Manager) (key : String) (subscriber : Subscriber) (now : Time) :
    Option (Manager × StartOutcome) :=
  if m.shuttingDown then
    some (m, .refused (((m.targets.lookup key).map (·.name)).getD ""))
  else match m.targets.lookup key with
  | none => some (m, .refused "")
  | some target => do
    let current ← m.jobs.lookup key
    if current.state = .running then
      return (m.setJob key (addSubscriberLocked current subscriber),
        .joined target.name current.runID)
    let keepalive ← m.keepalives.lookup key
    if keepalive.state ≠ .stopped ∨ 0 < keepalive.workers then return (m, .retry)
    let context := m.nextContext
    let begun := beginJob current subscriber context now
    let m ← { m.setJob key begun with nextContext := context + 1 }.broadcastStateLocked
    let m ← m.signalTargetLocked key
    return ({ m.setJob key { begun with workers := begun.workers + 1 } with
      runWG := m.runWG + 1 }, .started target.name begun.runID context)

omit [Go.NetURL] in
/-- The section of `startKeepalive` after `prepareMode` has failed. -/
def rejectKeepalive (m : Manager) (key : String) : StartOutcome :=
  .refused (((m.targets.lookup key).map (·.name)).getD "")

/-- The keepalive job that a new keepalive run starts from. -/
def beginKeepaliveJob (current : KeepaliveJob) (context : Nat) (now : Time) : KeepaliveJob :=
  { current with
    runID := current.runID + 1
    cancel := some context
    state := .requesting
    requests := 0
    startedAt := now
    lastRequest := 0
    lastSuccess := 0
    lastFailure := 0
    nextRequest := 0
    stoppedAt := 0
    lastError := "" }

/-- The section of `startKeepalive` after `prepareMode` has succeeded. -/
def commitKeepalive (m : Manager) (key : String) (now : Time) :
    Option (Manager × StartOutcome) :=
  if m.shuttingDown then
    some (m, .refused (((m.targets.lookup key).map (·.name)).getD ""))
  else match m.targets.lookup key with
  | none => some (m, .refused "")
  | some target => do
    let current ← m.keepalives.lookup key
    if current.state ≠ .stopped then return (m, .refused target.name)
    let queue ← m.jobs.lookup key
    if queue.state = .running ∨ 0 < queue.workers then return (m, .retry)
    let context := m.nextContext
    let begun := beginKeepaliveJob current context now
    let m ← { m.setKeepalive key begun with nextContext := context + 1 }.broadcastStateLocked
    let m ← m.signalTargetLocked key
    return ({ m.setKeepalive key { begun with workers := begun.workers + 1 } with
      runWG := m.runWG + 1 }, .started target.name begun.runID context)

/-! ### Stopping tasks -/

/-- `StopResult`. -/
structure StopResult where
  stopped : List String := []
  inactive : List String := []
  unknown : List String := []
  deriving DecidableEq, Repr

omit [Go.NetURL] in
/-- One round of the loop of `stop`. -/
def stopKey (now : Time) (progress : Manager × StopResult) (key : String) :
    Option (Manager × StopResult) := do
  let (m, result) := progress
  let target := m.target key
  let current ← m.jobs.lookup key
  let keepalive ← m.keepalives.lookup key
  let stopQueue := current.state = .running ∨ 0 < current.workers
  let stopKeepalive := keepalive.state ≠ .stopped ∨ 0 < keepalive.workers
  let m ← (if stopQueue then m.stopQueueLocked key now else some m)
  let m ← (if stopKeepalive then m.stopKeepaliveLocked key now else some m)
  let arbiter ← m.arbiters.lookup key
  let adhoc := arbiter.owner = .adhoc
  let m := if adhoc then m.stopAdhocLocked key else m
  if stopQueue ∨ stopKeepalive ∨ adhoc then
    return (m, { result with stopped := result.stopped ++ [target.name] })
  else return (m, { result with inactive := result.inactive ++ [target.name] })

/-- `stop`, which `Stop`, `StopTask` and `StopKeepalive` all call. The state has changed exactly
when some target was stopped. -/
def stop (m : Manager) (names : List String) (now : Time) : Option (Manager × StopResult) := do
  let (keys, unknown) := m.resolveLocked names
  let (m, result) ← keys.foldlM (stopKey now) (m, { unknown })
  let m ← (if result.stopped ≠ [] then m.broadcastStateLocked else some m)
  return (m, result)

/-! ### Settings and shutdown -/

omit [Go.NetURL] in
/-- One round of the loop of `UpdateSettings` over the keepalive jobs. -/
def rescheduleKeepalive (now : Time) (draw : String → Nat) (m : Manager) (key : String) :
    Option Manager := do
  let current ← m.keepalives.lookup key
  if current.state = .waitingNext ∧ current.nextRequest ≠ 0 then
    let nextRequest := now + randomDuration m.keepaliveMin m.keepaliveMax (draw key)
    (m.setKeepalive key { current with nextRequest }).signalKeepaliveScheduleLocked key
  else return m

/-- `UpdateSettings`, with a draw of the random source for every key. -/
def updateSettings (m : Manager) (keepaliveMin keepaliveMax : Duration) (maxParallel : Int)
    (successMessage : String) (now : Time) (draw : String → Nat) : Option Manager := do
  let m ← (if keepaliveMin ≠ m.keepaliveMin ∨ keepaliveMax ≠ m.keepaliveMax then
      m.keepalives.keys.foldlM (rescheduleKeepalive now draw) { m with keepaliveMin, keepaliveMax }
    else some m)
  let m := if 0 < maxParallel ∧ maxParallel ≠ m.maxParallel
    then { m with maxParallel }.signalParallelLocked else m
  { m with successMessage }.broadcastStateLocked

omit [Go.NetURL] in
/-- The contexts that `BeginShutdown` cancels. -/
def activeCancels (m : Manager) : List Nat :=
  (Table.values m.jobs).filterMap (·.cancel) ++
    (Table.values m.keepalives).filterMap (·.cancel) ++
    ((Table.values m.arbiters).filter (·.owner = .adhoc)).filterMap (·.cancel)

omit [Go.NetURL] in
/-- `BeginShutdown`. -/
def beginShutdown (m : Manager) : Manager :=
  if m.shuttingDown then m
  else { m with shuttingDown := true, cancelled := m.activeCancels ++ m.cancelled }

omit [Go.NetURL] in
/-- `SetMessenger`. -/
def setMessenger (m : Manager) (messenger : Option Nat) : Manager :=
  { m with messenger }

/-! ### Editing targets -/

omit [Go.NetURL] in
/-- The call of `persist`: an error, or the target it leaves. -/
def runPersist (target : Target) : Persist → Except Error Target
  | .absent => .ok target
  | .failed message => .error (.persist message)
  | .saved saved => .ok saved

/-- `CreateTarget`; a nil target is `none`. -/
def createTarget (m : Manager) (target : Option Target) (persist : Persist) :
    Option (Manager × Except Error Unit) :=
  match target with
  | none => some (m, .error .targetNotFound)
  | some target =>
    if (m.targets.lookup (normalizeName target.name)).isSome then
      some (m, .error .targetConflict)
    else match runPersist target persist with
    | .error error => some (m, .error error)
    | .ok target =>
      if (m.targets.lookup (normalizeName target.name)).isSome then
        some (m, .error .targetConflict)
      else do
        let m ← (m.addTarget target).sortTargetsLocked.broadcastStateLocked
        return (m, .ok ())

/-- The first critical section of `UpdateTarget` and of `DeleteTarget`: the key to wait for. -/
def stopTarget (m : Manager) (id : Int) (now : Time) :
    Option (Manager × Except Error String) :=
  match m.targetKeyByIDLocked id with
  | none => some (m, .error .targetNotFound)
  | some key => do
    let busy ← m.targetBusyLocked key
    if busy then
      let m ← m.stopQueueLocked key now
      let m ← m.stopKeepaliveLocked key now
      let m ← (m.stopAdhocLocked key).broadcastStateLocked
      return (m, .ok key)
    return (m, .ok key)

omit [Go.NetURL] in
/-- The key has a target with another identifier. -/
def conflicts (m : Manager) (key : String) (id : Int) : Bool :=
  (m.targets.lookup key).any fun existing ↦ existing.id ≠ id

omit [Go.NetURL] in
/-- Moves the records of a target to another key. -/
def renameTarget (m : Manager) (oldKey newKey : String) : Option Manager := do
  let currentJob ← m.jobs.lookup oldKey
  let currentKeepalive ← m.keepalives.lookup oldKey
  let currentArbiter ← m.arbiters.lookup oldKey
  return { m with
    targets := m.targets.erase oldKey
    jobs := (m.jobs.erase oldKey).insert newKey currentJob
    keepalives := (m.keepalives.erase oldKey).insert newKey currentKeepalive
    arbiters := (m.arbiters.erase oldKey).insert newKey currentArbiter
    order := m.order.replace oldKey newKey }

/-- The last critical section of `UpdateTarget`. -/
def updateTarget (m : Manager) (id : Int) (target : Target) (persist : Persist) :
    Option (Manager × Except Error Unit) :=
  match m.targetKeyByIDLocked id with
  | none => some (m, .error .targetNotFound)
  | some oldKey => do
    let busy ← m.targetBusyLocked oldKey
    if busy then return (m, .error .targetBusy)
    if m.conflicts (normalizeName target.name) id then return (m, .error .targetConflict)
    match runPersist target persist with
    | .error error => return (m, .error error)
    | .ok target =>
      let newKey := normalizeName target.name
      if m.conflicts newKey id then return (m, .error .targetConflict)
      let m ← (if newKey ≠ oldKey then m.renameTarget oldKey newKey else some m)
      let m ← { m with
        targets := m.targets.insert newKey target }.sortTargetsLocked.broadcastStateLocked
      return (m, .ok ())

/-- The last critical section of `DeleteTarget`. -/
def deleteTarget (m : Manager) (id : Int) (persist : Persist) :
    Option (Manager × Except Error Unit) :=
  match m.targetKeyByIDLocked id with
  | none => some (m, .error .targetNotFound)
  | some key => do
    let busy ← m.targetBusyLocked key
    if busy then return (m, .error .targetBusy)
    match persist with
    | .failed message => return (m, .error (.persist message))
    | _ =>
      let m ← { m with
        targets := m.targets.erase key
        jobs := m.jobs.erase key
        keepalives := m.keepalives.erase key
        arbiters := m.arbiters.erase key
        order := m.order.erase key }.broadcastStateLocked
      return (m, .ok ())

/-! ### Observing -/

/-- `Observe`: the initial snapshot and the identifier of the subscription. -/
def observe (m : Manager) (buffer : Int) : Option (Manager × ManagerSnapshot × Nat) := do
  let capacity := if buffer ≤ 0 then 32 else buffer.toNat
  let id := m.nextObserverID + 1
  let m := { m with nextObserverID := id, observers := m.observers ++ [{ id, capacity }] }
  let snapshot ← m.snapshotLocked
  return (m, snapshot, id)

omit [Go.NetURL] in
/-- `Subscription.Close`: a registered observer is removed and its channel closed. -/
def closeSubscription (m : Manager) (id : Nat) : Manager :=
  { m with
    observers := m.observers.map fun observer ↦
      if observer.id = id ∧ observer.registered then
        { observer with registered := false, closed := true }
      else observer }

omit [Go.NetURL] in
/-- A receive from the event channel of a subscription, when an event is there. -/
def receive (m : Manager) (id : Nat) : Manager :=
  { m with
    observers := m.observers.map fun observer ↦
      if observer.id = id then { observer with buffer := observer.buffer.tail } else observer }

end

end Manager

end CodexQueueBot.Jobs
