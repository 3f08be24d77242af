import CodexQueueBot.Jobs.Locked

/-!
# The critical sections of the worker goroutines

Every function here is one critical section of the manager's mutex, taken by a queue worker, a
keepalive worker or an ad-hoc request: what it returns and the state it leaves. Where the source
function takes the lock more than once, each of its sections is a definition of its own; the control
flow between the sections is in `System`.
-/

set_option autoImplicit false
set_option relaxedAutoImplicit false

namespace CodexQueueBot.Jobs

open Lib

/-! ### The records that the sections write -/

/-- A queue job after the beginning of an attempt. -/
def Job.attempted (job : Job) (now : Time) : Job :=
  { job with attempts := job.attempts + 1, lastAttempt := now, nextAttempt := 0 }

/-- A queue job after a failed attempt. -/
def Job.failed (job : Job) (error : String) : Job :=
  { job with lastError := error, nextAttempt := 0 }

/-- A queue job that has succeeded. -/
def Job.succeeded (job : Job) (now : Time) : Job :=
  { job with
    state := .succeeded
    finishedAt := now
    nextAttempt := 0
    lastError := ""
    cancel := none
    subscribers := ∅ }

/-- A queue job whose worker was cancelled. -/
def Job.cancelled (job : Job) (now : Time) : Job :=
  { job with
    state := .stopped
    finishedAt := now
    nextAttempt := 0
    cancel := none
    subscribers := ∅ }

/-- A keepalive job after the beginning of a request. -/
def KeepaliveJob.requested (keepalive : KeepaliveJob) (now : Time) : KeepaliveJob :=
  { keepalive with
    state := .requesting
    requests := keepalive.requests + 1
    lastRequest := now
    nextRequest := 0 }

/-- A keepalive job after a request, waiting for the next one. -/
def KeepaliveJob.judged (keepalive : KeepaliveJob) (success : Bool) (error : String) (now : Time)
    (nextRequest : Time) : KeepaliveJob :=
  let judged := if success then { keepalive with lastSuccess := now }
    else { keepalive with lastFailure := now, lastError := error }
  { judged with state := .waitingNext, nextRequest }

/-- A keepalive job whose worker was cancelled. -/
def KeepaliveJob.cancelled (keepalive : KeepaliveJob) (now : Time) : KeepaliveJob :=
  { keepalive with state := .stopped, stoppedAt := now, nextRequest := 0, cancel := none }

namespace Manager

/-! ### Slots and processes -/

/-- What a pass through the loop of `acquire` finds: a slot, or the channel to wait on. -/
inductive SlotOutcome
  | acquired
  | wait (changed : Nat)
  deriving DecidableEq, Repr

/-- The critical section of `acquire`. -/
def acquire (m : Manager) : Manager × SlotOutcome :=
  if (m.slotsInUse : Int) < m.maxParallel then
    ({ m with slotsInUse := m.slotsInUse + 1 }, .acquired)
  else (m, .wait m.parallelChanged)

/-- `releaseSlot`. -/
def releaseSlot (m : Manager) : Manager :=
  { m with
    slotsInUse := if 0 < m.slotsInUse then m.slotsInUse - 1 else m.slotsInUse }.signalParallelLocked

section

variable [Go.NetURL]

/-- `finishProcess`. -/
def finishProcess (m : Manager) : Option Manager :=
  { m with
    currentProcesses := if 0 < m.currentProcesses then m.currentProcesses - 1
      else m.currentProcesses
    slotsInUse := if 0 < m.slotsInUse then m.slotsInUse - 1
      else m.slotsInUse }.signalParallelLocked.broadcastStateLocked

/-! ### Queue workers -/

/-- What a pass through the loop of `acquireQueueTarget`, or of the first section of
`beginKeepaliveRequest`, finds. -/
inductive TargetOutcome
  | stale
  | acquired
  | wait (changed : Nat)
  deriving DecidableEq, Repr

omit [Go.NetURL] in
/-- The critical section of `acquireQueueTarget`. -/
def acquireQueueTarget (m : Manager) (key : String) (runID : Nat) :
    Option (Manager × TargetOutcome) := do
  let current ← m.jobs.lookup key
  let arbiter ← m.arbiters.lookup key
  if current.runID ≠ runID ∨ current.state ≠ .running then return (m, .stale)
  if arbiter.owner = .none then
    return (m.setArbiter key { arbiter with owner := .queue, ownerRunID := runID }, .acquired)
  return (m, .wait arbiter.changed)

/-- `beginAttempt`: the number of the attempt and its target, unless the run is over. -/
def beginAttempt (m : Manager) (key : String) (runID : Nat) (now : Time) :
    Option (Manager × Option (Nat × Target)) := do
  let current ← m.jobs.lookup key
  let arbiter ← m.arbiters.lookup key
  if current.runID ≠ runID ∨ current.state ≠ .running ∨ arbiter.owner ≠ .queue ∨
      arbiter.ownerRunID ≠ runID then return (m, none)
  let begun := current.attempted now
  let m ← { m.setJob key begun with
    currentProcesses := m.currentProcesses + 1 }.broadcastStateLocked
  return (m, some (begun.attempts, m.target key))

/-- `markFailure`, and whether the run goes on. -/
def markFailure (m : Manager) (key : String) (runID : Nat) (result : Result) :
    Option (Manager × Bool) := do
  let current ← m.jobs.lookup key
  if current.runID = runID ∧ current.state = .running then
    let failed := current.failed (sanitizeTargetError (m.target key) result.error)
    let m ← (m.setJob key failed).releaseTargetLocked key .queue runID
    let m ← m.broadcastStateLocked
    return (m, true)
  else
    let m ← m.releaseTargetLocked key .queue runID
    return (m, false)

/-- What `markSuccess` returns for the notification: the subscribers and the time elapsed. -/
structure Success where
  subscribers : List Subscriber
  elapsed : Duration
  deriving DecidableEq, Repr

/-- `markSuccess`. -/
def markSuccess (m : Manager) (key : String) (runID : Nat) (now : Time) :
    Option (Manager × Option Success) := do
  let current ← m.jobs.lookup key
  if current.runID ≠ runID ∨ current.state ≠ .running then
    let m ← m.releaseTargetLocked key .queue runID
    return (m, none)
  let m ← ((m.setJob key (current.succeeded now)).callCancel current.cancel).releaseTargetLocked
    key .queue runID
  let m ← m.broadcastStateLocked
  return (m, some ⟨Table.values current.subscribers, now - current.startedAt⟩)

omit [Go.NetURL] in
/-- `formatDuration`: rounded to seconds, as `time.Duration` prints it. -/
def formatDuration (duration : Duration) : String :=
  let second : Int := 1000000000
  let rest := duration % second
  let seconds := (duration / second + if rest + rest < second then 0 else 1).toNat
  if seconds < 1 then "不足 1 秒"
  -- `Sub` and `Round` stop at the longest duration, which is no number of seconds.
  else if 9223372036 < seconds then "2562047h47m16.854775807s"
  else if seconds < 60 then s!"{seconds}s"
  else if seconds < 3600 then s!"{seconds / 60}m{seconds % 60}s"
  else s!"{seconds / 3600}h{seconds / 60 % 60}m{seconds % 60}s"

omit [Go.NetURL] in
/-- The message of `notifySuccess`, which reads the manager under the lock. -/
def notifySuccess (m : Manager) (target : String) (attempt : Nat) (elapsed : Duration) : String :=
  s!"✅ {target}：{m.successMessage}（第 {attempt} 次，耗时 {formatDuration elapsed}）"

/-- `markQueueCancelled`. -/
def markQueueCancelled (m : Manager) (key : String) (runID : Nat) (now : Time) :
    Option Manager := do
  let current ← m.jobs.lookup key
  let m ← m.releaseTargetLocked key .queue runID
  if current.runID ≠ runID ∨ current.state ≠ .running then return m
  let m ← (m.setJob key (current.cancelled now)).signalTargetLocked key
  m.broadcastStateLocked

/-- `finishQueueWorker`. -/
def finishQueueWorker (m : Manager) (key : String) : Option Manager :=
  match m.jobs.lookup key with
  | some current =>
    if 0 < current.workers then
      (m.setJob key { current with workers := current.workers - 1 }).broadcastStateLocked
    else some m
  | none => some m

/-! ### Keepalive workers -/

/-- The first critical section of `beginKeepaliveRequest`. -/
def beginKeepaliveRequest (m : Manager) (key : String) (runID : Nat) :
    Option (Manager × TargetOutcome) := do
  let current ← m.keepalives.lookup key
  let queue ← m.jobs.lookup key
  let arbiter ← m.arbiters.lookup key
  if current.runID ≠ runID ∨ current.state = .stopped then return (m, .stale)
  if queue.state = .running ∨ arbiter.owner ≠ .none then
    let state := if queue.state = .running ∨ arbiter.owner = .queue
      then KeepaliveState.waitingQueue else .requesting
    let m ← (if state ≠ current.state then
        (m.setKeepalive key { current with state }).broadcastStateLocked
      else some m)
    return (m, .wait arbiter.changed)
  let m ← (if current.state ≠ .requesting then
      (m.setKeepalive key { current with state := .requesting }).broadcastStateLocked
    else some m)
  return (m, .acquired)

/-- What the second critical section of `beginKeepaliveRequest` finds. -/
inductive ConfirmOutcome
  | stale
  | wait (changed : Nat)
  | begun (request : Nat) (target : Target)
  deriving DecidableEq, Repr

/-- The second critical section of `beginKeepaliveRequest`, entered with a slot. -/
def confirmKeepaliveRequest (m : Manager) (key : String) (runID : Nat) (now : Time) :
    Option (Manager × ConfirmOutcome) := do
  let current ← m.keepalives.lookup key
  let queue ← m.jobs.lookup key
  let arbiter ← m.arbiters.lookup key
  if current.runID ≠ runID ∨ current.state = .stopped then return (m, .stale)
  if queue.state = .running ∨ arbiter.owner ≠ .none then
    let state := if queue.state = .running ∨ arbiter.owner = .queue
      then KeepaliveState.waitingQueue else current.state
    let m ← (if state ≠ current.state then
        (m.setKeepalive key { current with state }).broadcastStateLocked
      else some m)
    return (m, .wait arbiter.changed)
  let begun := current.requested now
  let m ← { (m.setArbiter key
    { arbiter with owner := .keepalive, ownerRunID := runID }).setKeepalive key begun with
    currentProcesses := m.currentProcesses + 1 }.broadcastStateLocked
  return (m, .begun begun.requests (m.target key))

/-- `finishKeepaliveRequest`, and whether the run goes on. -/
def finishKeepaliveRequest (m : Manager) (key : String) (runID : Nat) (result : Result)
    (now : Time) (draw : Nat) : Option (Manager × Bool) := do
  let current ← m.keepalives.lookup key
  if current.runID ≠ runID ∨ current.state = .stopped then
    let m ← m.releaseTargetLocked key .keepalive runID
    return (m, false)
  let waiting := current.judged result.success
    (sanitizeTargetError (m.target key) result.error) now
    (now + randomDuration m.keepaliveMin m.keepaliveMax draw)
  let m ← (m.setKeepalive key waiting).releaseTargetLocked key .keepalive runID
  let m ← m.broadcastStateLocked
  return (m, true)

omit [Go.NetURL] in
/-- The critical section of `waitKeepaliveNext`: the time of the next request and the channel that
announces a change of it, or `none` when the run is over. -/
def waitKeepaliveNext (m : Manager) (key : String) (runID : Nat) : Option (Time × Nat) := do
  let current ← m.keepalives.lookup key
  if current.runID ≠ runID ∨ current.state = .stopped then none
  return (current.nextRequest, current.scheduleChanged)

/-- `markKeepaliveCancelled`. -/
def markKeepaliveCancelled (m : Manager) (key : String) (runID : Nat) (now : Time) :
    Option Manager := do
  let current ← m.keepalives.lookup key
  let m ← m.releaseTargetLocked key .keepalive runID
  if current.runID ≠ runID ∨ current.state = .stopped then return m
  let m ← (m.setKeepalive key (current.cancelled now)).signalTargetLocked key
  m.broadcastStateLocked

/-- `finishKeepaliveWorker`. -/
def finishKeepaliveWorker (m : Manager) (key : String) : Option Manager :=
  match m.keepalives.lookup key with
  | some current =>
    if 0 < current.workers then
      (m.setKeepalive key { current with workers := current.workers - 1 }).broadcastStateLocked
    else some m
  | none => some m

/-! ### Ad-hoc requests -/

/-- The errors of the manager's operations. -/
inductive Error
  | targetBusy
  | targetNotFound
  | targetConflict
  | adhocUnavailable
  | shuttingDown
  | persist (message : String)
  deriving DecidableEq, Repr

/-- What a `RunAdhoc` call that was accepted goes on with. -/
structure Reservation where
  key : String
  runID : Nat
  context : Nat
  target : Target
  deriving DecidableEq, Repr

/-- The first critical section of `RunAdhoc`: an error, or the reserved target. -/
def reserveAdhoc (m : Manager) (id : Int) : Option (Manager × Except Error Reservation) :=
  if ¬ m.promptRunner then some (m, .error .adhocUnavailable)
  else match m.targetKeyByIDLocked id with
  | none => some (m, .error .targetNotFound)
  | some key =>
    if m.shuttingDown ∨ m.rootDone then some (m, .error .shuttingDown)
    else do
      let busy ← m.targetBusyLocked key
      if busy then return (m, .error .targetBusy)
      let arbiter ← m.arbiters.lookup key
      let runID := m.nextAdhocRunID + 1
      let context := m.nextContext
      let m ← { m.setArbiter key
          { arbiter with owner := .adhoc, ownerRunID := runID, cancel := some context } with
        nextContext := m.nextContext + 1
        nextAdhocRunID := runID
        runWG := m.runWG + 1 }.broadcastStateLocked
      return (m, .ok ⟨key, runID, context, m.target key⟩)

/-- The second critical section of `RunAdhoc`: whether the request may run. -/
def confirmAdhoc (m : Manager) (key : String) (runID : Nat) : Option (Manager × Bool) :=
  match m.arbiters.lookup key with
  | none => some (m, false)
  | some arbiter =>
    if arbiter.owner ≠ .adhoc ∨ arbiter.ownerRunID ≠ runID then some (m, false)
    else do
      let m ← { m with currentProcesses := m.currentProcesses + 1 }.broadcastStateLocked
      return (m, true)

omit [Go.NetURL] in
/-- The process of an ad-hoc request, given back if it was started. -/
def giveBackProcess (m : Manager) (processStarted : Bool) : Manager :=
  if processStarted ∧ 0 < m.currentProcesses
    then { m with currentProcesses := m.currentProcesses - 1 } else m

omit [Go.NetURL] in
/-- The slot of an ad-hoc request, given back if it was acquired. -/
def giveBackSlot (m : Manager) (slotAcquired : Bool) : Manager :=
  if slotAcquired ∧ 0 < m.slotsInUse
    then { m with slotsInUse := m.slotsInUse - 1 }.signalParallelLocked else m

/-- `finishAdhocRequest`, up to the `Done` of the wait group. -/
def finishAdhocRequest (m : Manager) (key : String) (runID : Nat)
    (slotAcquired processStarted : Bool) : Option Manager := do
  let m := (m.giveBackProcess processStarted).giveBackSlot slotAcquired
  let m ← match m.arbiters.lookup key with
    | none => some m
    | some arbiter =>
      if arbiter.owner = .adhoc ∧ arbiter.ownerRunID = runID then
        (m.setArbiter key
          { arbiter with owner := .none, ownerRunID := 0, cancel := none }).signalTargetLocked key
      else some m
  m.broadcastStateLocked

end

end Manager

end CodexQueueBot.Jobs
