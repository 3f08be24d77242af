import CodexQueueBot.Jobs.Calls

/-!
# The manager and its goroutines as a transition system

A state of the system is the manager, the goroutines in the order of their creation, and the
history of what has happened. A goroutine is one of the workers that `startQueue` and
`startKeepalive` create, an accepted `RunAdhoc` call, or a call of another operation that takes the
lock more than once. Each has a program counter; a step of it is one critical section, the return of
a runner call, one outcome of a `select`, or one local decision. The name of a program point is that
of the function called there.

`System.step` is the whole transition function. What a step does not decide is in its label: which
goroutine moves, which case of a `select` it takes, the time, the result of a runner call or of a
persist function, and the draw of the random source. A `select` takes only a case that is ready, so
that a step may have no result; a nil dereference has no result either.
-/

set_option autoImplicit false
set_option relaxedAutoImplicit false

namespace CodexQueueBot.Jobs

open Lib

/-! ### Program points -/

/-- The program points of `run`. `markCancelled` is reached from three places; `holding` tells the
ones after `acquireQueueTarget` from the one before. -/
inductive QueuePC
  | acquireTarget
  | awaitTarget (changed : Nat)
  | acquire
  | awaitSlot (changed : Nat)
  | beginAttempt
  | running (attempt : Nat) (target : Target)
  | finishProcess (attempt : Nat) (target : Target) (result : Result)
  | markSuccess (attempt : Nat) (target : Target)
  | notifySuccess (attempt : Nat) (target : Target) (success : Manager.Success)
  | checkContext (result : Result)
  | markFailure (result : Result)
  | releaseSlot
  | releaseTarget
  | markCancelled (holding : Bool)
  | finishWorker
  | workerDone
  | exited
  deriving DecidableEq, Repr

/-- The program points of `runKeepalive`. After `confirmRequest` the slot may be given back, to wait
for a change of the target or to end. -/
inductive KeepalivePC
  | beginRequest
  | awaitTarget (changed : Nat)
  | acquire
  | awaitSlot (changed : Nat)
  | confirmRequest
  | releaseSlot (changed : Option Nat)
  | running (request : Nat) (target : Target)
  | finishProcess (result : Result)
  | checkContext (result : Result)
  | finishRequest (result : Result)
  | waitNext
  | awaitNext (nextRequest : Time) (changed : Nat)
  | markCancelled (holding : Bool)
  | finishWorker
  | workerDone
  | exited
  deriving DecidableEq, Repr

/-- The program points of `RunAdhoc` once the target is reserved. -/
inductive AdhocPC
  | acquire
  | awaitSlot (changed : Nat)
  | checkContext
  | confirm
  | running
  | finishRequest (slotAcquired processStarted : Bool) (result : Result)
  | workerDone (result : Result)
  | returned (result : Result)
  deriving DecidableEq, Repr

/-- A goroutine made by `startQueue`. -/
structure QueueWorker where
  key : String
  runID : Nat
  context : Nat
  pc : QueuePC := .acquireTarget
  deriving DecidableEq, Repr

/-- A goroutine made by `startKeepalive`. -/
structure KeepaliveWorker where
  key : String
  runID : Nat
  context : Nat
  pc : KeepalivePC := .beginRequest
  deriving DecidableEq, Repr

/-- An accepted `RunAdhoc` call. -/
structure AdhocCall where
  key : String
  runID : Nat
  context : Nat
  target : Target
  started : Time
  pc : AdhocPC := .acquire
  deriving DecidableEq, Repr

/-- Which of `Start` and `StartKeepalive` is called. -/
inductive StartKind
  | queue (subscriber : Subscriber)
  | keepalive
  deriving DecidableEq, Repr

/-- The mode that a call starts. -/
def StartKind.mode : StartKind → Mode
  | .queue _ => .queue
  | .keepalive => .keepalive

/-- The program points of `startQueue` and `startKeepalive`. -/
inductive StartPC
  | prepareMode
  | waitTargetIdle
  | reject
  | commit
  deriving DecidableEq, Repr

/-- A call of `Start` or `StartKeepalive`: the keys still to be started, the first of which is being
worked on, and the result so far. Every name of the result is kept with its key. -/
structure StartCall where
  kind : StartKind
  remaining : List String
  pc : StartPC := .prepareMode
  started : List (String × String) := []
  already : List (String × String) := []
  unknown : List String
  deriving DecidableEq, Repr

/-- Which of `UpdateTarget` and `DeleteTarget` is called. -/
inductive EditKind
  | update (id : Int) (target : Target)
  | delete (id : Int)
  deriving DecidableEq, Repr

/-- The program points of `UpdateTarget` and `DeleteTarget` after their first section. -/
inductive EditPC
  | waitTargetIdle (key : String)
  | commit
  | returned (result : Except Manager.Error Unit)

/-- A call of `UpdateTarget` or `DeleteTarget`. -/
structure EditCall where
  kind : EditKind
  pc : EditPC

/-- A call of `Wait`: whether it has returned, and then whether it returned nil. -/
structure WaitCall where
  returned : Option Bool := none
  deriving DecidableEq, Repr

/-- A goroutine. -/
inductive Proc
  | queue (worker : QueueWorker)
  | keepalive (worker : KeepaliveWorker)
  | adhoc (call : AdhocCall)
  | start (call : StartCall)
  | edit (call : EditCall)
  | wait (call : WaitCall)

/-! ### Inputs, history and effects -/

/-- The case of a `select` that is taken. -/
inductive Wake
  | cancelled
  | changed
  | timer
  deriving DecidableEq, Repr

/-- What a step does not decide itself. -/
structure Input where
  now : Time := 0
  wake : Wake := .timer
  result : Result := ⟨false, "", "", 0, "", 0⟩
  draw : Nat := 0
  persist : Persist := .absent
  deriving DecidableEq, Repr

/-- What the history records: the start of a run with its worker, the registration of a subscriber
by a call, the beginning of a runner call, the success of a run, and what `notifySuccess` is
handed. -/
inductive Happening
  | started (worker : Nat) (mode : Mode) (key : String) (runID : Nat)
  | subscribed (call : Nat) (key : String) (runID : Nat) (subscriber : Subscriber)
  | began (worker : Nat)
  | succeeded (worker : Nat)
  | notified (worker : Nat) (message : String) (subscribers : List Subscriber)
  deriving DecidableEq, Repr

/-- What a step of a goroutine leaves. -/
structure Effect where
  manager : Manager
  proc : Proc
  spawned : List Proc := []
  happenings : List Happening := []

/-- A wait on a context and a channel, as in `waitForChange`: true when the channel was closed. -/
def waitForChange (m : Manager) (contextDone : Bool) (changed : Nat) : Wake → Option Bool
  | .cancelled => if contextDone then some false else none
  | .changed => if m.channelClosed changed then some true else none
  | .timer => none

section

variable [Go.NetURL]

/-! ### Steps of the workers -/

/-- A step of a queue worker. -/
def QueueWorker.step (m : Manager) (self : Nat) (w : QueueWorker) (input : Input) :
    Option Effect :=
  let goto (m : Manager) (pc : QueuePC) (happenings : List Happening) : Option Effect :=
    some { manager := m, proc := .queue { w with pc }, happenings }
  match w.pc with
  | .acquireTarget => do
    let (m, outcome) ← m.acquireQueueTarget w.key w.runID
    match outcome with
    | .stale => goto m (.markCancelled false) []
    | .acquired => goto m .acquire []
    | .wait changed => goto m (.awaitTarget changed) []
  | .awaitTarget changed => do
    let woken ← waitForChange m (m.contextDone w.context) changed input.wake
    goto m (if woken then .acquireTarget else .markCancelled false) []
  | .acquire =>
    match m.acquire with
    | (m, .acquired) => goto m .beginAttempt []
    | (m, .wait changed) => goto m (.awaitSlot changed) []
  | .awaitSlot changed => do
    let woken ← waitForChange m (m.contextDone w.context) changed input.wake
    goto m (if woken then .acquire else .markCancelled true) []
  | .beginAttempt => do
    let (m, begun) ← m.beginAttempt w.key w.runID input.now
    match begun with
    | none => goto m .releaseSlot []
    | some (attempt, target) => goto m (.running attempt target) [.began self]
  | .running attempt target => goto m (.finishProcess attempt target input.result) []
  | .finishProcess attempt target result => do
    let m ← m.finishProcess
    goto m (if result.success then .markSuccess attempt target else .checkContext result) []
  | .markSuccess attempt target => do
    let (m, success) ← m.markSuccess w.key w.runID input.now
    match success with
    | none => goto m .finishWorker []
    | some success => goto m (.notifySuccess attempt target success) [.succeeded self]
  | .notifySuccess attempt target success =>
    goto m .finishWorker [.notified self
      (m.notifySuccess target.name attempt success.elapsed) success.subscribers]
  | .checkContext result =>
    goto m (if m.contextDone w.context then .markCancelled true else .markFailure result) []
  | .markFailure result => do
    let (m, valid) ← m.markFailure w.key w.runID result
    goto m (if valid then .acquireTarget else .finishWorker) []
  | .releaseSlot => goto m.releaseSlot .releaseTarget []
  | .releaseTarget => do
    let m ← m.releaseTargetLocked w.key .queue w.runID
    goto m .finishWorker []
  | .markCancelled _ => do
    let m ← m.markQueueCancelled w.key w.runID input.now
    goto m .finishWorker []
  | .finishWorker => do
    let m ← m.finishQueueWorker w.key
    goto m .workerDone []
  | .workerDone => goto { m with runWG := m.runWG - 1 } .exited []
  | .exited => none

/-- A step of a keepalive worker. -/
def KeepaliveWorker.step (m : Manager) (self : Nat) (w : KeepaliveWorker) (input : Input) :
    Option Effect :=
  let goto (m : Manager) (pc : KeepalivePC) (happenings : List Happening) : Option Effect :=
    some { manager := m, proc := .keepalive { w with pc }, happenings }
  match w.pc with
  | .beginRequest => do
    let (m, outcome) ← m.beginKeepaliveRequest w.key w.runID
    match outcome with
    | .stale => goto m (.markCancelled false) []
    | .acquired => goto m .acquire []
    | .wait changed => goto m (.awaitTarget changed) []
  | .awaitTarget changed => do
    let woken ← waitForChange m (m.contextDone w.context) changed input.wake
    goto m (if woken then .beginRequest else .markCancelled false) []
  | .acquire =>
    match m.acquire with
    | (m, .acquired) => goto m .confirmRequest []
    | (m, .wait changed) => goto m (.awaitSlot changed) []
  | .awaitSlot changed => do
    let woken ← waitForChange m (m.contextDone w.context) changed input.wake
    goto m (if woken then .acquire else .markCancelled false) []
  | .confirmRequest => do
    let (m, outcome) ← m.confirmKeepaliveRequest w.key w.runID input.now
    match outcome with
    | .stale => goto m (.releaseSlot none) []
    | .wait changed => goto m (.releaseSlot (some changed)) []
    | .begun request target => goto m (.running request target) [.began self]
  | .releaseSlot changed =>
    match changed with
    | none => goto m.releaseSlot (.markCancelled false) []
    | some changed => goto m.releaseSlot (.awaitTarget changed) []
  | .running _ _ => goto m (.finishProcess input.result) []
  | .finishProcess result => do
    let m ← m.finishProcess
    goto m (.checkContext result) []
  | .checkContext result =>
    goto m (if m.contextDone w.context then .markCancelled true else .finishRequest result) []
  | .finishRequest result => do
    let (m, valid) ← m.finishKeepaliveRequest w.key w.runID result input.now input.draw
    goto m (if valid then .waitNext else .finishWorker) []
  | .waitNext =>
    match m.waitKeepaliveNext w.key w.runID with
    | none => goto m (.markCancelled false) []
    | some (nextRequest, changed) =>
      goto m (if nextRequest ≤ input.now then .beginRequest else .awaitNext nextRequest changed) []
  | .awaitNext nextRequest changed =>
    if input.wake = .timer then
      if nextRequest ≤ input.now then goto m .beginRequest [] else none
    else do
      let woken ← waitForChange m (m.contextDone w.context) changed input.wake
      goto m (if woken then .waitNext else .markCancelled false) []
  | .markCancelled _ => do
    let m ← m.markKeepaliveCancelled w.key w.runID input.now
    goto m .finishWorker []
  | .finishWorker => do
    let m ← m.finishKeepaliveWorker w.key
    goto m .workerDone []
  | .workerDone => goto { m with runWG := m.runWG - 1 } .exited []
  | .exited => none

/-- The result of a `RunAdhoc` call that was cancelled. -/
def AdhocCall.cancelledResult (call : AdhocCall) (now : Time) : Result where
  success := false
  response := ""
  processOutput := ""
  exitCode := exitCodeUnavailable
  error := "request cancelled"
  duration := now - call.started

/-- A step of an accepted `RunAdhoc` call. Its context is cancelled by the caller, by
`stopAdhocLocked`, by `BeginShutdown`, or, through a function of its own, after the root context. -/
def AdhocCall.step (m : Manager) (self : Nat) (call : AdhocCall) (input : Input) : Option Effect :=
  let goto (m : Manager) (pc : AdhocPC) (happenings : List Happening) : Option Effect :=
    some { manager := m, proc := .adhoc { call with pc }, happenings }
  let contextDone := m.cancelled.contains call.context
  match call.pc with
  | .acquire =>
    match m.acquire with
    | (m, .acquired) => goto m .checkContext []
    | (m, .wait changed) => goto m (.awaitSlot changed) []
  | .awaitSlot changed => do
    let woken ← waitForChange m contextDone changed input.wake
    goto m (if woken then .acquire
      else .finishRequest false false (call.cancelledResult input.now)) []
  | .checkContext =>
    goto m (if contextDone then .finishRequest true false (call.cancelledResult input.now)
      else .confirm) []
  | .confirm => do
    let (m, confirmed) ← m.confirmAdhoc call.key call.runID
    if confirmed then goto m .running [.began self]
    else goto m (.finishRequest true false (call.cancelledResult input.now)) []
  | .running => goto m (.finishRequest true true input.result) []
  | .finishRequest slotAcquired processStarted result => do
    let m ← (m.callCancel (some call.context)).finishAdhocRequest call.key call.runID
      slotAcquired processStarted
    goto m (.workerDone result) []
  | .workerDone result => goto { m with runWG := m.runWG - 1 } (.returned result) []
  | .returned _ => none

/-! ### Steps of the calls -/

omit [Go.NetURL] in
/-- A call after the answer for its first remaining key, which `Start` appends to its result unless
the name is empty. -/
def StartCall.answer (call : StartCall) (key name : String) (rest : List String)
    (started : Bool) : StartCall :=
  let entry := if name = "" then [] else [(key, name)]
  { call with
    remaining := rest
    pc := .prepareMode
    started := if started then call.started ++ entry else call.started
    already := if started then call.already else call.already ++ entry }

omit [Go.NetURL] in
/-- The registration by a call, as the history records it. -/
def StartKind.subscription (kind : StartKind) (self : Nat) (key : String) (runID : Nat) :
    List Happening :=
  match kind with
  | .queue subscriber =>
    if subscriber.recipient = "" then [] else [.subscribed self key runID subscriber]
  | .keepalive => []

omit [Go.NetURL] in
/-- The worker that a call creates. -/
def StartKind.worker (kind : StartKind) (key : String) (runID context : Nat) : Proc :=
  match kind with
  | .queue _ => .queue { key, runID, context }
  | .keepalive => .keepalive { key, runID, context }

omit [Go.NetURL] in
/-- How a call goes on after the outcome of a section for its first remaining key. -/
def StartCall.conclude (m : Manager) (next self : Nat) (call : StartCall) (key : String)
    (rest : List String) : Manager.StartOutcome → Effect
  | .refused name => { manager := m, proc := .start (call.answer key name rest false) }
  | .joined name runID =>
    { manager := m
      proc := .start (call.answer key name rest false)
      happenings := call.kind.subscription self key runID }
  | .retry => { manager := m, proc := .start { call with pc := .prepareMode } }
  | .started name runID context =>
    { manager := m
      proc := .start (call.answer key name rest true)
      spawned := [call.kind.worker key runID context]
      happenings := .started next call.kind.mode key runID ::
        call.kind.subscription self key runID }

/-- The section of a call after `prepareMode` has failed. -/
def StartKind.reject (kind : StartKind) (m : Manager) (key : String) :
    Option (Manager × Manager.StartOutcome) :=
  match kind with
  | .queue subscriber => m.rejectQueue key subscriber
  | .keepalive => some (m, m.rejectKeepalive key)

/-- The section of a call after `prepareMode` has succeeded. -/
def StartKind.commit (kind : StartKind) (m : Manager) (key : String) (now : Time) :
    Option (Manager × Manager.StartOutcome) :=
  match kind with
  | .queue subscriber => m.commitQueue key subscriber now
  | .keepalive => m.commitKeepalive key now

/-- A step of a `Start` or `StartKeepalive` call. The wait for an idle target may give up whenever
it finds the target busy: its deadline has passed, or the root context is done. -/
def StartCall.step (m : Manager) (next self : Nat) (call : StartCall) (input : Input) :
    Option Effect :=
  let goto (m : Manager) (pc : StartPC) : Option Effect :=
    some { manager := m, proc := .start { call with pc } }
  match call.remaining with
  | [] => none
  | key :: rest =>
    match call.pc with
    | .prepareMode => do
      let (m, outcome) ← m.prepareMode key call.kind.mode input.now
      match outcome with
      | .refused => goto m .reject
      | .busy => goto m .waitTargetIdle
      | .ready => goto m .commit
    | .waitTargetIdle => do
      match ← m.waitTargetIdle key with
      | .gone => goto m .reject
      | .idle => goto m .prepareMode
      | .busy => goto m (if input.wake = .timer then .waitTargetIdle else .reject)
    | .reject => do
      let (m, outcome) ← call.kind.reject m key
      return call.conclude m next self key rest outcome
    | .commit => do
      let (m, outcome) ← call.kind.commit m key input.now
      return call.conclude m next self key rest outcome

/-- A step of an `UpdateTarget` or `DeleteTarget` call. -/
def EditCall.step (m : Manager) (call : EditCall) (input : Input) : Option Effect :=
  let goto (m : Manager) (pc : EditPC) : Option Effect :=
    some { manager := m, proc := .edit { call with pc } }
  match call.pc with
  | .waitTargetIdle key => do
    match ← m.waitTargetIdle key with
    | .gone => goto m (.returned (.error .targetBusy))
    | .idle => goto m .commit
    | .busy =>
      goto m (if input.wake = .timer then .waitTargetIdle key
        else .returned (.error .targetBusy))
  | .commit => do
    let (m, result) ← (match call.kind with
      | .update id target => m.updateTarget id target input.persist
      | .delete id => m.deleteTarget id input.persist)
    goto m (.returned result)
  | .returned _ => none

omit [Go.NetURL] in
/-- A step of a `Wait` call: it returns nil when no goroutine is left, or an error when its own
context is done, which may be at any time. -/
def WaitCall.step (m : Manager) (call : WaitCall) (input : Input) : Option Effect :=
  match call.returned with
  | some _ => none
  | none =>
    if input.wake = .cancelled then
      some { manager := m, proc := .wait { returned := some false } }
    else if m.runWG = 0 then some { manager := m, proc := .wait { returned := some true } }
    else none

/-- A step of a goroutine. -/
def Proc.step (m : Manager) (next self : Nat) (proc : Proc) (input : Input) : Option Effect :=
  match proc with
  | .queue worker => worker.step m self input
  | .keepalive worker => worker.step m self input
  | .adhoc call => call.step m self input
  | .start call => call.step m next self input
  | .edit call => call.step m input
  | .wait call => call.step m input

/-! ### The system -/

/-- A state of the system. -/
structure System where
  manager : Manager
  procs : List Proc := []
  trace : List Happening := []

/-- What may happen next: a call of an operation, a context that is done, or a step of a
goroutine. -/
inductive Label
  | start (names : List String) (subscriber : Subscriber)
  | startKeepalive (names : List String)
  | stop (names : List String) (now : Time)
  | runAdhoc (id : Int) (now : Time)
  | createTarget (target : Option Target) (persist : Persist)
  | updateTarget (id : Int) (target : Option Target) (now : Time)
  | deleteTarget (id : Int) (now : Time)
  | updateSettings (keepaliveMin keepaliveMax : Duration) (maxParallel : Int)
      (successMessage : String) (now : Time) (draw : String → Nat)
  | setMessenger (messenger : Option Nat)
  | observe (buffer : Int)
  | closeSubscription (id : Nat)
  | receive (id : Nat)
  | beginShutdown
  | wait
  | cancelRoot
  | cancelAdhoc (call : Nat)
  | advance (proc : Nat) (input : Input)

namespace System

/-- The system as `New` leaves it. -/
def init (settings : Manager.Settings) (targets : List Target) : System :=
  { manager := Manager.new settings targets }

/-- The state with another manager. -/
def withManager (s : System) (m : Manager) : System :=
  { s with manager := m }

/-- The state with another manager and one more goroutine. -/
def spawn (s : System) (m : Manager) (proc : Proc) : System :=
  { s with manager := m, procs := s.procs ++ [proc] }

/-- The state after a step of a goroutine. -/
def apply (s : System) (self : Nat) (effect : Effect) : System where
  manager := effect.manager
  procs := s.procs.set self effect.proc ++ effect.spawned
  trace := s.trace ++ effect.happenings

/-- A call of `Start` or `StartKeepalive`, up to the resolution of the names. -/
def startCall (s : System) (kind : StartKind) (names : List String) : System :=
  let (remaining, unknown) := s.manager.resolveLocked names
  s.spawn s.manager (.start { kind, remaining, unknown })

/-- A call of `UpdateTarget` or `DeleteTarget`, up to its first section. -/
def editCall (s : System) (kind : EditKind) (id : Int) (now : Time) : Option System := do
  let (m, found) ← s.manager.stopTarget id now
  match found with
  | .error error => return s.spawn m (.edit { kind, pc := .returned (.error error) })
  | .ok key => return s.spawn m (.edit { kind, pc := .waitTargetIdle key })

/-- The transition function. -/
def step (s : System) (label : Label) : Option System :=
  match label with
  | .start names subscriber => some (s.startCall (.queue subscriber) names)
  | .startKeepalive names => some (s.startCall .keepalive names)
  | .stop names now => (s.manager.stop names now).map fun outcome ↦ s.withManager outcome.1
  | .runAdhoc id now => do
    let (m, reserved) ← s.manager.reserveAdhoc id
    match reserved with
    | .error _ => return s.withManager m
    | .ok ⟨key, runID, context, target⟩ =>
      return s.spawn m (.adhoc { key, runID, context, target, started := now })
  | .createTarget target persist =>
    (s.manager.createTarget target persist).map fun outcome ↦ s.withManager outcome.1
  | .updateTarget id target now =>
    match target with
    | none => some s
    | some target => s.editCall (.update id target) id now
  | .deleteTarget id now => s.editCall (.delete id) id now
  | .updateSettings keepaliveMin keepaliveMax maxParallel successMessage now draw =>
    (s.manager.updateSettings keepaliveMin keepaliveMax maxParallel successMessage now draw).map
      s.withManager
  | .setMessenger messenger => some (s.withManager (s.manager.setMessenger messenger))
  | .observe buffer => (s.manager.observe buffer).map fun outcome ↦ s.withManager outcome.1
  | .closeSubscription id => some (s.withManager (s.manager.closeSubscription id))
  | .receive id => some (s.withManager (s.manager.receive id))
  | .beginShutdown => some (s.withManager s.manager.beginShutdown)
  | .wait => some (s.spawn s.manager (.wait {}))
  | .cancelRoot => some (s.withManager { s.manager with rootDone := true })
  | .cancelAdhoc call =>
    match s.procs[call]? with
    | some (.adhoc call) => some (s.withManager (s.manager.callCancel (some call.context)))
    | _ => none
  | .advance self input => do
    let proc ← s.procs[self]?
    let effect ← proc.step s.manager s.procs.length self input
    return s.apply self effect

end System

end

end CodexQueueBot.Jobs
