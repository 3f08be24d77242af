import CodexQueueBot.Config.Settings
import CodexQueueBot.Hub.Status
import CodexQueueBot.Lib.Runs
import Mathlib.Logic.Function.Basic

/-!
# The message runtime

`messageRuntime` owns the OpenILink and the Telegram client. A `Reload` replaces both by those of a
new configuration, a `Close` removes them. Each of the two calls holds `reloadMu` to its end, so at
most one of them is under way: its remaining operations are the `rest` of the active `Call`, and
other goroutines run between them. A forwarder takes the statuses of one client to the store that is
shown for its adapter; `setStatusIfCurrent` compares and writes in one section of `r.mu`.

A client changes its own status at any time and in any way (label `emit`). The generation counter
does not wrap. Histories stand beside the state: the calls in the order of their generations, the
generations of those that returned, the statuses of each client, and the writes of the shown stores.
-/

set_option autoImplicit false
set_option relaxedAutoImplicit false

namespace CodexQueueBot.Messages

open Hub Lib

/-! ### State -/

/-- The two message adapters. -/
inductive Adapter
  | openILink
  | telegram
  deriving DecidableEq, Repr

/-- A client: the adapter it is for, the generation of the call that made it, its status store,
whether its context is cancelled, and all the statuses it has had. -/
structure Client where
  adapter : Adapter
  generation : ℕ
  status : StatusStore
  cancelled : Bool
  emitted : List StatusSnapshot

/-- `hub.New` and `telegram.New`: the status of a new client. -/
def Client.new (adapter : Adapter) (generation : ℕ) : Client :=
  ⟨adapter, generation, .new .connecting, false, [⟨.connecting, ""⟩]⟩

/-- A client changes its status. -/
def Client.emit (client : Client) (state : Status) (errorText : String) : Client :=
  let status := client.status.set state errorText
  { client with status, emitted := client.emitted ++ [status.snapshot] }

/-- The calls of `Reload`, by the configuration of its snapshot, and of `Close`. -/
inductive Request
  | reload (cfg : CodexQueueBot.Config)
  | close
  deriving DecidableEq, Repr

/-- The operations of a call after its first section of `r.mu`. -/
inductive Action
  | clearProxy (adapter : Adapter)
  | clearDefault
  | stop (adapter : Adapter)
  | disable (adapter : Adapter)
  | create (adapter : Adapter)
  | setProxy (adapter : Adapter)
  | setDefault (adapter : Adapter)
  | connecting (adapter : Adapter)
  | install (adapter : Adapter)
  | forward (adapter : Adapter)
  deriving DecidableEq, Repr

/-- The start of an adapter's client in `Reload`. -/
def startActions (adapter : Adapter) : List Action :=
  [.create adapter, .setProxy adapter, .setDefault adapter, .connecting adapter, .install adapter,
    .forward adapter]

/-- The operations of `Reload` and of `Close`, in the order of the source. -/
def actions : Request → List Action
  | .reload cfg =>
    [.clearProxy .openILink, .clearProxy .telegram, .clearDefault, .stop .openILink,
      .stop .telegram, .disable .openILink, .disable .telegram] ++
    (if cfg.openILink.isOpenILinkEnabled ∧ cfg.openILink.token ≠ "" then
      startActions .openILink else []) ++
    (if cfg.telegram.isTelegramEnabled ∧ cfg.telegram.token ≠ "" then
      startActions .telegram else [])
  | .close =>
    [.stop .openILink, .stop .telegram, .clearProxy .openILink, .clearProxy .telegram,
      .clearDefault, .disable .openILink, .disable .telegram]

/-- The call that holds `reloadMu`: its generation, the clients it took out, the clients it has
made, and what is left to do. -/
structure Call where
  generation : ℕ
  old : Adapter → Option ℕ
  made : Adapter → Option ℕ
  rest : List Action

/-- Where a `forwardStatus` goroutine stands. -/
inductive ForwarderPC
  | start
  | offer (update : StatusSnapshot)
  | waiting
  | closing
  | done
  deriving DecidableEq, Repr

/-- A `forwardStatus` goroutine: its arguments, the number of its subscription, and its place. -/
structure Forwarder where
  generation : ℕ
  client : ℕ
  adapter : Adapter
  observer : ℕ
  pc : ForwarderPC
  deriving DecidableEq, Repr

/-- Who writes to a shown store. -/
inductive Origin
  | call (generation : ℕ)
  | client (client : ℕ)
  deriving DecidableEq, Repr

/-- A write to a shown store: what `Set` is called with, and the generation counter at that time. -/
structure Write where
  adapter : Adapter
  generation : ℕ
  status : StatusSnapshot
  origin : Origin
  deriving DecidableEq, Repr

/-- `messageRuntime`. Clients and forwarders are numbered in the order of their creation. -/
structure Runtime where
  generation : ℕ
  current : Adapter → Option ℕ
  proxy : Adapter → Option ℕ
  defaultProxy : Option Adapter
  status : Adapter → StatusStore
  rootCancelled : Bool
  clients : List Client
  forwarders : List Forwarder
  active : Option Call
  calls : List Request
  returned : List ℕ
  writes : List Write

namespace Runtime

/-- `newMessageRuntime`, with the stores that `main` makes. -/
def new : Runtime where
  generation := 0
  current := fun _ ↦ none
  proxy := fun _ ↦ none
  defaultProxy := none
  status := fun _ ↦ .new .disabled
  rootCancelled := false
  clients := []
  forwarders := []
  active := none
  calls := []
  returned := []
  writes := []

/-! ### Steps -/

/-- `Set` on a shown store. -/
def write (runtime : Runtime) (adapter : Adapter) (status : StatusSnapshot) (origin : Origin) :
    Runtime :=
  { runtime with
    status := Function.update runtime.status adapter
      ((runtime.status adapter).set status.state status.error)
    writes := runtime.writes ++ [⟨adapter, runtime.generation, status, origin⟩] }

/-- The start of a call: it locks `reloadMu`, counts the generation up and takes the clients out. -/
def start (runtime : Runtime) (request : Request) : Runtime :=
  { runtime with
    generation := runtime.generation + 1
    current := fun _ ↦ none
    active := some ⟨runtime.generation + 1, runtime.current, fun _ ↦ none, actions request⟩
    calls := runtime.calls ++ [request] }

/-- The cancellation of a client that a call took out. -/
def stop (runtime : Runtime) (client : Option ℕ) : Runtime :=
  match client with
  | none => runtime
  | some index =>
    { runtime with
      clients := runtime.clients.modify index fun client ↦ { client with cancelled := true } }

/-- One operation of the active call, which has been taken from its `rest`. -/
def perform (runtime : Runtime) (call : Call) : Action → Option Runtime
  | .clearProxy adapter =>
    some { runtime with proxy := Function.update runtime.proxy adapter none }
  | .clearDefault => some { runtime with defaultProxy := none }
  | .stop adapter => some (runtime.stop (call.old adapter))
  | .disable adapter => some (runtime.write adapter ⟨.disabled, ""⟩ (.call call.generation))
  | .create adapter =>
    some { runtime with
      clients := runtime.clients ++ [.new adapter call.generation]
      active := some { call with
        made := Function.update call.made adapter (some runtime.clients.length) } }
  | .setProxy adapter =>
    some { runtime with proxy := Function.update runtime.proxy adapter (call.made adapter) }
  | .setDefault .openILink => some { runtime with defaultProxy := some .openILink }
  | .setDefault .telegram =>
    -- The Telegram proxy becomes the default only where OpenILink has not.
    some { runtime with defaultProxy := runtime.defaultProxy.or (some .telegram) }
  | .connecting adapter =>
    some (runtime.write adapter ⟨.connecting, ""⟩ (.call call.generation))
  | .install adapter =>
    some { runtime with current := Function.update runtime.current adapter (call.made adapter) }
  | .forward adapter => do
    let client ← call.made adapter
    return { runtime with
      forwarders := runtime.forwarders ++ [⟨call.generation, client, adapter, 0, .start⟩] }

/-- The next operation of the active call, or its return at the end. -/
def advance (runtime : Runtime) : Option Runtime := do
  let call ← runtime.active
  match call.rest with
  | [] =>
    return { runtime with
      active := none
      returned := runtime.returned ++ [call.generation] }
  | action :: rest =>
    perform { runtime with active := some { call with rest } } { call with rest } action

/-- `Set` on the store of a client. -/
def emit (runtime : Runtime) (index : ℕ) (state : Status) (errorText : String) :
    Option Runtime :=
  if index < runtime.clients.length then
    some { runtime with clients := runtime.clients.modify index (·.emit state errorText) }
  else none

/-- A forwarder and its client move on. -/
def moveForwarder (runtime : Runtime) (index : ℕ) (forwarder : Forwarder) (status : StatusStore) :
    Runtime :=
  { runtime with
    clients := runtime.clients.modify forwarder.client fun client ↦ { client with status }
    forwarders := runtime.forwarders.set index forwarder }

/-- `setStatusIfCurrent`, from the goroutine at the number `index`. -/
def setStatusIfCurrent (runtime : Runtime) (index : ℕ) (forwarder : Forwarder)
    (update : StatusSnapshot) : Runtime :=
  if forwarder.generation = runtime.generation ∧
      runtime.current forwarder.adapter = some forwarder.client then
    { (runtime.write forwarder.adapter update (.client forwarder.client)) with
      forwarders := runtime.forwarders.set index { forwarder with pc := .waiting } }
  else
    { runtime with forwarders := runtime.forwarders.set index { forwarder with pc := .closing } }

/-- The next step of a `forwardStatus` goroutine. Where it waits, `done` chooses the case of the
`select`. -/
def forward (runtime : Runtime) (index : ℕ) (done : Bool) : Option Runtime := do
  let forwarder ← runtime.forwarders[index]?
  let client ← runtime.clients[forwarder.client]?
  match forwarder.pc with
  | .start =>
    let (initial, observer, status) := client.status.observe 16
    return runtime.moveForwarder index { forwarder with observer, pc := .offer initial } status
  | .offer update => return runtime.setStatusIfCurrent index forwarder update
  | .waiting =>
    if done then
      if client.cancelled ∨ runtime.rootCancelled then
        return runtime.moveForwarder index { forwarder with pc := .closing } client.status
      else none
    else
      let (update, status) ← client.status.receive forwarder.observer
      match update with
      | some update =>
        return runtime.moveForwarder index { forwarder with pc := .offer update } status
      | none => return runtime.moveForwarder index { forwarder with pc := .closing } status
  | .closing =>
    return runtime.moveForwarder index { forwarder with pc := .done }
      (client.status.close forwarder.observer)
  | .done => none

/-- What can happen next. -/
inductive Label
  | call (request : Request)
  | advance
  | emit (client : ℕ) (state : Status) (errorText : String)
  | forward (forwarder : ℕ) (done : Bool)
  | cancelRoot
  deriving DecidableEq, Repr

/-- One step of the runtime. -/
def step (runtime : Runtime) : Label → Option Runtime
  | .call request => if runtime.active.isNone then some (runtime.start request) else none
  | .advance => runtime.advance
  | .emit client state errorText => runtime.emit client state errorText
  | .forward forwarder done => runtime.forward forwarder done
  | .cancelRoot => some { runtime with rootCancelled := true }

/-- A state that some interleaving reaches. -/
def Reachable (runtime : Runtime) : Prop :=
  Steps step (fun _ _ ↦ True) new runtime

end Runtime

end CodexQueueBot.Messages
