import CodexQueueBot.Hub.Status
import CodexQueueBot.Storage.Sequences
import CodexQueueBot.Web.Requests

/-!
# The Web server and its handlers

The state of `Server` with the tables of the store, the manager and the requests that are being
served, and its steps. A step of a handler is one critical section, one operation of the store, one
operation of the manager, or a local computation between them; the handlers take their steps in any
order. An operation of the store is one step: it holds the only connection in its transactions, and
between its commit and the load after it no other operation can write, since all that write hold
`configWriteMu`.

`Session` values are kept with the account that the login verified, where there was one. The stored
account is numbered: every commit of `SetupAdmin` and `UpdateAccount` makes a new one. The numbers
and the list of tokens in use are there for what is said about runs, and no step depends on them.

A channel that is closed and replaced is a number, and is closed when it is not the current one.
`events` subscribes to the manager and to the statuses of the two hubs, which their clients set at
any time, and its `select` takes an update only when one is in the channel. What ends a request, the
heartbeat, the time that passes, the tokens of the random source and the answers of the database are
up to the label.
-/

set_option autoImplicit false
set_option relaxedAutoImplicit false

namespace CodexQueueBot.Web

open Go Storage Lib

/-! ### Program points -/

/-- `observerBuffer`, which `main` leaves at its default. -/
def observerBuffer : Int :=
  32

/-- The subscriptions of `events`, by their numbers. -/
structure Subscriptions where
  manager : Option ℕ := none
  status : Option ℕ := none
  telegramStatus : Option ℕ := none
  deriving DecidableEq, Repr

/-- The variables of the loop of `events`: when its timer fires, the channels it waits on, and the
`config_revision` of the last payload it wrote. -/
structure Stream where
  deadline : Jobs.Time
  configurationChanges : ℕ
  sessionChanges : ℕ
  revision : Int
  deriving DecidableEq, Repr

/-- The program points of `events`. `writeState` has a payload with its revision to write, and
`last` writes the last event of the stream. -/
inductive StreamPC
  | observe
  | observeStatus
  | observeTelegramStatus
  | dashboardPayload
  | writeSnapshot (revision : Int)
  | expires (revision : Int)
  | configurationChanges (revision : Int) (deadline : Jobs.Time)
  | sessionChanges (revision : Int) (deadline : Jobs.Time) (configurationChanges : ℕ)
  | select (stream : Stream)
  | configurationChanged (stream : Stream)
  | statePayload (stream : Stream)
  | writeState (stream : Stream) (revision : Int)
  | sessionsChanged (stream : Stream)
  | sessionExists (stream : Stream)
  | heartbeat (stream : Stream)
  | last
  deriving DecidableEq, Repr

/-- The program points of the handlers. The first three are those of the routes and of
`requireSession`; `verifyAdmin` to `storeSession` are those of `login` and `establishSession`. -/
inductive PC
  | arrived
  | requireSession (now : Jobs.Time)
  | authorized
  | verifyAdmin (username password : String)
  | rotate (username : String)
  | establishSession (username : String)
  | storeSession (username token : String) (now : Jobs.Time)
  | stream (pc : StreamPC)
  | lock
  | locked
  | currentPassword (current : Snapshot) (username newPassword password : String)
  | write (op : Write)
  | createTarget (target : Target)
  | stopTarget (op : Write)
  | edit (proc : ℕ) (op : Write)
  | applyRuntimeConfiguration (snapshot : Snapshot)
  | setConfiguration (snapshot : Snapshot)
  | revokeSessions (snapshot : Snapshot)
  | unlock (reply : Reply)
  | done (reply : Reply)

/-- A request that is being served: its cookie, the session that `requireSession` has found, the
account that its login has verified, the account that was stored before its operation of the store,
and the subscriptions of its stream. -/
structure Handler where
  request : Request
  cookie : Option String
  session : Option (String × Session) := none
  verified : Option ℕ := none
  before : Option ℕ := none
  subscriptions : Subscriptions := {}
  pc : PC := .arrived

/-! ### The server -/

/-- A session with the account that its login verified. -/
structure Entry where
  session : Session
  account : Option ℕ
  deriving DecidableEq, Repr

/-- The state of the server. -/
structure Server where
  configStore : Store
  sessionTTL : Jobs.Duration
  positive : 0 < sessionTTL
  now : Jobs.Time
  tables : Tables
  account : ℕ
  jobs : Jobs.System
  status : Hub.StatusStore
  telegramStatus : Hub.StatusStore
  configSnapshot : Snapshot
  configChanged : ℕ
  configWriteMu : Option ℕ
  sessions : Table String Entry
  sessionsChanged : ℕ
  tokens : List String
  shutdown : Bool
  handlers : List Handler

namespace Server

/-- A server with a loaded snapshot and a manager, before its first request. -/
def new (configStore : Store) (sessionTTL : {duration : Jobs.Duration // 0 < duration})
    (now : Jobs.Time) (tables : Tables) (jobs : Jobs.System) (configSnapshot : Snapshot) :
    Server where
  configStore := configStore
  sessionTTL := sessionTTL
  positive := sessionTTL.2
  now := now
  tables := tables
  account := 0
  jobs := jobs
  status := .new .disabled
  telegramStatus := .new .disabled
  configSnapshot := configSnapshot
  configChanged := 0
  configWriteMu := none
  sessions := ∅
  sessionsChanged := 0
  tokens := []
  shutdown := false
  handlers := []

/-! ### Sessions -/

/-- `signalSessionsChangedLocked`. -/
def signalSessionsChangedLocked (s : Server) : Server :=
  { s with sessionsChanged := s.sessionsChanged + 1 }

/-- The section of `logout` and of the rotation in `login`. -/
def removeSession (s : Server) (sessionID : String) : Server :=
  { s with sessions := s.sessions.erase sessionID }.signalSessionsChangedLocked

/-- `purgeExpiredSessionsLocked`. -/
def purgeExpiredSessionsLocked (s : Server) (now : Jobs.Time) : Server :=
  { s with sessions := s.sessions.filter fun entry ↦ now < entry.session.expiresAt }

/-- The session that `establishSession` makes. -/
def newSession (s : Server) (username : String) (now : Jobs.Time) : Session :=
  ⟨username, now + s.sessionTTL⟩

/-- The section of `establishSession`. -/
def storeSession (s : Server) (token : String) (entry : Entry) (now : Jobs.Time) : Server :=
  ({ s with
    sessions := s.sessions.insert token entry
    tokens := token :: s.tokens }.purgeExpiredSessionsLocked now).signalSessionsChangedLocked

/-- `revokeSessions`. -/
def revokeSessions (s : Server) : Server :=
  { s with sessions := ∅ }.signalSessionsChangedLocked

/-- `sessionExists`, which reads the clock under the lock. -/
def sessionExists (s : Server) (sessionID : String) : Bool :=
  (s.sessions.lookup sessionID).any fun entry ↦ s.now < entry.session.expiresAt

/-! ### Configuration -/

/-- `setConfiguration`. -/
def setConfiguration (s : Server) (snapshot : Snapshot) : Server :=
  { s with configSnapshot := snapshot, configChanged := s.configChanged + 1 }

/-- `Manager.TargetByID`. -/
def targetByID (s : Server) (id : Int) : Option Target :=
  (s.jobs.manager.targetKeyByIDLocked id).map s.jobs.manager.target

end Server

/-! ### Steps of the handlers -/

/-- The case of the `select` of `events` that is taken. The receives from the three subscriptions
get an update, or find that the channel was closed. -/
inductive Wake
  | requestDone
  | shutdown
  | expires
  | managerEvent (ok : Bool)
  | status (ok : Bool)
  | telegramStatus (ok : Bool)
  | configurationChanges
  | sessionChanges
  | heartbeat
  deriving DecidableEq, Repr

/-- What a step of a handler does not decide itself: the answers of the database, the token that the
random source gives, the case of a `select`, whether an event could be written, and for the manager
the case of its wait and the draws of its random source. -/
structure Input where
  answers : List (Answer SQLError) := []
  token : Option String := none
  wake : Wake := .heartbeat
  written : Bool := true
  managerWake : Jobs.Wake := .timer
  draw : String → Nat := fun _ ↦ 0

/-- What a step of a handler leaves: the server without the handler's own progress, and the
handler. -/
abbrev Progress := Server × Handler

/-- The handler goes on. -/
def Handler.goto (h : Handler) (s : Server) (pc : PC) : Option Progress :=
  some (s, { h with pc })

/-- The answer of a handler that holds `configWriteMu` if its request is one that takes it. -/
def Handler.finish (h : Handler) (reply : Reply) : PC :=
  match h.request with
  | .login _ => .done reply
  | _ => .unlock reply

/-- Where the `select` of `events` goes on. Whether a subscription is ready is left to `receive`. -/
def Stream.wake (s : Server) (stream : Stream) : Wake → Option PC
  | .requestDone => some (.done .other)
  | .shutdown => if s.shutdown then some (.stream .last) else none
  | .expires => if stream.deadline ≤ s.now then some (.stream .last) else none
  | .managerEvent ok | .status ok | .telegramStatus ok =>
    some (if ok then .stream (.statePayload stream) else .done .other)
  | .configurationChanges =>
    if stream.configurationChanges ≠ s.configChanged then
      some (.stream (.configurationChanged stream))
    else none
  | .sessionChanges =>
    if stream.sessionChanges ≠ s.sessionsChanged then some (.stream (.sessionsChanged stream))
    else none
  | .heartbeat => some (.stream (.heartbeat stream))

/-- Where `events` goes on after a program point. -/
def StreamPC.next (s : Server) (sessionID : String) (session : Session) (input : Input) :
    StreamPC → Option PC
  | .observe => some (.stream .observeStatus)
  | .observeStatus => some (.stream .observeTelegramStatus)
  | .observeTelegramStatus => some (.stream .dashboardPayload)
  | .dashboardPayload => some (.stream (.writeSnapshot s.configSnapshot.revision))
  | .writeSnapshot revision =>
    some (if input.written then .stream (.expires revision) else .done .other)
  | .expires revision =>
    some (.stream (.configurationChanges revision (max s.now session.expiresAt)))
  | .configurationChanges revision deadline =>
    some (.stream (.sessionChanges revision deadline s.configChanged))
  | .sessionChanges revision deadline changes =>
    some (.stream (.select ⟨deadline, changes, s.sessionsChanged, revision⟩))
  | .select stream => stream.wake s input.wake
  | .configurationChanged stream =>
    some (.stream (.statePayload { stream with configurationChanges := s.configChanged }))
  | .statePayload stream => some (.stream (.writeState stream s.configSnapshot.revision))
  | .writeState stream revision =>
    some (if input.written then .stream (.select { stream with revision }) else .done .other)
  | .sessionsChanged stream =>
    some (.stream (.sessionExists { stream with sessionChanges := s.sessionsChanged }))
  | .sessionExists stream =>
    some (.stream (if s.sessionExists sessionID then .select stream else .last))
  | .heartbeat stream =>
    some (if input.written then .stream (.select stream) else .done .other)
  | .last => some (.done .other)

/-- An operation makes a new account if it commits. -/
def setsAccount : Write → Bool
  | .setupAdmin _ _ | .updateAccount _ _ => true
  | _ => false

section

variable [GCM String] [Argon2] [NetURL] [Net]

/-- An operation of the store, alone on the connection: its result and the server with the tables it
leaves. -/
def Server.perform (s : Server) (op : Write) (answers : List (Answer SQLError)) :
    Option (Except StoreError (Snapshot × Option Target) × Server) := do
  let (result, tables) ←
    (s.configStore.write op).run.run .txDone cancelled answers s.tables none
  let account :=
    if setsAccount op ∧ tables.configRevision ≠ s.tables.configRevision then s.account + 1
    else s.account
  return (result, { s with tables, account })

/-- `VerifyAdmin`, which only reads. -/
def Server.verifyAdmin (s : Server) (username password : String)
    (answers : List (Answer SQLError)) : Option (Except StoreError (String × Bool)) :=
  ((Storage.verifyAdmin username password).run.run .txDone cancelled answers s.tables none).map
    (·.1)

/-! ### Subscriptions -/

omit [GCM String] [Argon2] [Net] in
/-- A receive from the subscription to the manager, if it is ready: an event is in the channel, or
the channel is empty and closed. -/
def receiveEvent (jobs : Jobs.System) (id : ℕ) (ok : Bool) : Option Jobs.System := do
  let observer ← jobs.manager.observers.find? (·.id = id)
  match observer.buffer with
  | [] => if observer.closed ∧ ok = false then some jobs else none
  | _ :: _ => if ok then jobs.step (.receive id) else none

omit [GCM String] [Argon2] [NetURL] [Net] in
/-- A receive from a subscription to a status. -/
def receiveStatus (store : Hub.StatusStore) (observer : ℕ) (ok : Bool) :
    Option Hub.StatusStore := do
  let (update, store) ← store.receive observer
  if update.isSome = ok then some store else none

/-- The receive of a case of the `select`. The other cases leave the subscriptions alone. -/
def Server.receive (s : Server) (subscriptions : Subscriptions) : Wake → Option Server
  | .managerEvent ok => do
    let jobs ← receiveEvent s.jobs (← subscriptions.manager) ok
    return { s with jobs }
  | .status ok => do
    let status ← receiveStatus s.status (← subscriptions.status) ok
    return { s with status }
  | .telegramStatus ok => do
    let telegramStatus ← receiveStatus s.telegramStatus (← subscriptions.telegramStatus) ok
    return { s with telegramStatus }
  | _ => some s

/-- The cases of the `select` of `events` that the server decides. The end of the request and the
heartbeat come from outside. -/
def serverWakes : List Wake :=
  [.shutdown, .expires, .managerEvent true, .managerEvent false, .status true, .status false,
    .telegramStatus true, .telegramStatus false, .configurationChanges, .sessionChanges]

/-- The `select` of `events` is blocked: no case that the server decides is ready. -/
def Stream.Blocked (s : Server) (subscriptions : Subscriptions) (stream : Stream) : Prop :=
  ∀ wake ∈ serverWakes, (stream.wake s wake).isNone ∨ (s.receive subscriptions wake).isNone

instance (s : Server) (subscriptions : Subscriptions) (stream : Stream) :
    Decidable (stream.Blocked s subscriptions) :=
  inferInstanceAs (Decidable (∀ wake ∈ serverWakes, _))

/-- What a step of `events` does to its subscriptions. -/
def StreamPC.subscribe (s : Server) (subscriptions : Subscriptions) (input : Input) :
    StreamPC → Option (Server × Subscriptions)
  | .observe => do
    let jobs ← s.jobs.step (.observe observerBuffer)
    return ({ s with jobs }, { subscriptions with manager := jobs.manager.nextObserverID })
  | .observeStatus =>
    let (_, observer, status) := s.status.observe 8
    some ({ s with status }, { subscriptions with status := observer })
  | .observeTelegramStatus =>
    let (_, observer, telegramStatus) := s.telegramStatus.observe 8
    some ({ s with telegramStatus }, { subscriptions with telegramStatus := observer })
  | .select _ => (s.receive subscriptions input.wake).map fun s ↦ (s, subscriptions)
  | _ => some (s, subscriptions)

/-- The deferred calls of `Close`, when `events` returns. -/
def Server.unsubscribe (s : Server) (subscriptions : Subscriptions) : PC → Option Server
  | .done _ => do
    let jobs ← s.jobs.step (.closeSubscription (← subscriptions.manager))
    return { s with
      jobs
      status := s.status.close (← subscriptions.status)
      telegramStatus := s.telegramStatus.close (← subscriptions.telegramStatus) }
  | _ => some s

/-! ### Edits of targets -/

omit [GCM String] [Argon2] [NetURL] [Net] in
/-- The `persist` of a handler, given what the operation of the store has returned. -/
def persistOf : Except StoreError (Snapshot × Option Target) → Jobs.Persist
  | .error _ => .failed ""
  | .ok (_, none) => .absent
  | .ok (_, some target) => .saved target

omit [GCM String] [Argon2] [NetURL] [Net] in
/-- A section of the manager gets as far as the call of `persist`: with one that fails, it fails
with the error of it. -/
def callsPersist {α : Type} (run : Jobs.Persist → Option (α × Except Jobs.Manager.Error Unit)) :
    Bool :=
  match run (.failed "") with
  | some (_, .error (.persist _)) => true
  | _ => false

/-- A section of the manager whose `persist` is an operation of the store: the server, and the
snapshot that the operation has left in the handler's variable, or the answer to the error. -/
def Server.editWith (s : Server)
    (run : Jobs.Persist → Option (Jobs.System × Except Jobs.Manager.Error Unit)) (op : Write)
    (answers : List (Answer SQLError)) : Option (Server × Except Rejection Snapshot) :=
  if callsPersist run then do
    let (stored, s) ← s.perform op answers
    let (jobs, result) ← run (persistOf stored)
    return ({ s with jobs }, match stored, result with
      | .error error, _ => .error (writeTargetError error)
      | .ok (snapshot, _), .ok _ => .ok snapshot
      | .ok _, .error error => .error (writeManagerError error))
  else do
    let (jobs, result) ← run .absent
    match result with
    | .error error => return ({ s with jobs }, .error (writeManagerError error))
    | .ok _ => none

/-- `Manager.CreateTarget`. -/
def Server.createSection (s : Server) (target : Target) (persist : Jobs.Persist) :
    Option (Jobs.System × Except Jobs.Manager.Error Unit) :=
  (s.jobs.manager.createTarget (some target) persist).map fun (m, result) ↦
    (s.jobs.withManager m, result)

/-- The last section of the call of `UpdateTarget` or `DeleteTarget` that a handler waits for. -/
def Server.editSection (s : Server) (proc : ℕ) (persist : Jobs.Persist) :
    Option (Jobs.System × Except Jobs.Manager.Error Unit) := do
  let jobs ← s.jobs.step (.advance proc { now := s.now, persist })
  match jobs.procs[proc]? with
  | some (.edit ⟨_, .returned result⟩) => return (jobs, result)
  | _ => none

/-- The call of the manager that stops a target before it is updated or deleted. -/
def stopLabel (now : Jobs.Time) : Write → Option Jobs.Label
  | .updateTarget id target _ => some (.updateTarget id (some target) now)
  | .deleteTarget id => some (.deleteTarget id now)
  | _ => none

/-- What a handler does when the section with its `persist` has returned, given the account before
it. -/
def Handler.afterEdit (h : Handler) (account : ℕ) :
    Server × Except Rejection Snapshot → Option Progress
  | (s, .ok snapshot) =>
    some (s, { h with before := some account, pc := .setConfiguration snapshot })
  | (s, .error rejection) => h.goto s (.unlock (.rejected rejection))

/-! ### Under the lock -/

/-- What `updateAccount` does after its checks of the passwords. -/
def accountChange (current : Snapshot) (username newPassword : String) : PC :=
  if username = current.config.web.adminUsername ∧ newPassword = "" then
    .unlock (.rejected (.error 400 "没有需要保存的账号变更"))
  else .write (.updateAccount username newPassword)

/-- What a handler does first when it has got `configWriteMu`. -/
def Server.locked (s : Server) : Request → PC
  | .setup (some request) =>
    .write (.setupAdmin (Strings.trimSpace request.username) request.password)
  | .updateCodexConfig (some request) => .write (.updateCodex request.value)
  | .updateOpenILinkConfig (some request) =>
    let value := request.value s.configSnapshot.config.openILink.token
    match Config.validateOpenILink value with
    | .error message => .unlock (.rejected (.invalid message))
    | .ok _ => .write (.updateOpenILink value request.chosenToken)
  | .updateTelegramConfig (some request) =>
    let value := request.value s.configSnapshot.config.telegram.token
    match Config.validateTelegram value with
    | .error message => .unlock (.rejected (.invalid message))
    | .ok _ => .write (.updateTelegram value request.chosenToken)
  | .updateWebConfig (some request) => .write (.updateWeb request.value)
  | .updateAccount (some request) =>
    let current := s.configSnapshot
    let username := request.chosenUsername current.config.web.adminUsername
    match request.check with
    | .error rejection => .unlock (.rejected rejection)
    | .ok _ =>
      if request.currentPassword ≠ "" then
        .currentPassword current username request.chosenPassword request.currentPassword
      else accountChange current username request.chosenPassword
  | .createTarget (some request) => .createTarget (targetFromRequest request)
  | .updateTarget text (some request) =>
    match parseTargetID text with
    | .error rejection => .unlock (.rejected rejection)
    | .ok id =>
      match s.targetByID id with
      | none => .unlock (.rejected (.error 404 "target 不存在"))
      | some current =>
        let target := request.edited id current
        match Config.validateTarget (Config.normalizeTarget target) with
        | .error message => .unlock (.rejected (.invalid message))
        | .ok _ => .stopTarget (.updateTarget id target request.chosenKey)
  | .deleteTarget text =>
    match parseTargetID text with
    | .error rejection => .unlock (.rejected rejection)
    | .ok id => .stopTarget (.deleteTarget id)
  | _ => .unlock (.rejected malformed)

/-- What follows an operation of the store that has succeeded. `applyRuntimeConfiguration` is called
by the handlers of two sections. -/
def afterWrite (snapshot : Snapshot) : Write → PC
  | .updateCodex _ | .updateWeb _ => .applyRuntimeConfiguration snapshot
  | _ => .setConfiguration snapshot

/-- What follows `setConfiguration`. -/
def Request.afterConfiguration (snapshot : Snapshot) : Request → PC
  | .setup (some request) => .establishSession (Strings.trimSpace request.username)
  | .updateAccount _ => .revokeSessions snapshot
  | _ => .unlock (.saved snapshot)

/-- The `UpdateSettings` of `applyRuntimeConfiguration`. -/
def settingsLabel (snapshot : Snapshot) (now : Jobs.Time) (draw : String → Nat) : Jobs.Label :=
  let cfg := snapshot.config
  .updateSettings cfg.keepaliveMin cfg.keepaliveMax cfg.codex.maxParallel cfg.codex.successMessage
    now draw

/-- A step of a handler. -/
def Handler.step (s : Server) (self : ℕ) (h : Handler) (input : Input) : Option Progress :=
  match h.pc with
  | .arrived =>
    match h.request with
    | .login none => h.goto s (.done (.rejected (.error 400 "用户名或密码错误")))
    | .login (some request) => h.goto s (.verifyAdmin request.username request.password)
    | .setup _ => h.goto s (match h.request.precheck with
      | .error rejection => .done (.rejected rejection)
      | .ok _ => .lock)
    | _ =>
      match h.cookie with
      | none | some "" => h.goto s (.done (.rejected unauthorized))
      | some _ => h.goto s (.requireSession s.now)
  | .requireSession now => do
    let sessionID ← h.cookie
    match s.sessions.lookup sessionID with
    | none => h.goto s (.done (.rejected unauthorized))
    | some entry =>
      if entry.session.expiresAt ≤ now then
        h.goto { s with sessions := s.sessions.erase sessionID } (.done (.rejected unauthorized))
      else some (s, { h with session := some (sessionID, entry.session), pc := .authorized })
  | .authorized =>
    match h.request with
    | .logout => do
      let (sessionID, _) ← h.session
      h.goto (s.removeSession sessionID) (.done .loggedOut)
    | .events => h.goto s (.stream .observe)
    | .other => h.goto s (.done .other)
    | _ => h.goto s (match h.request.precheck with
      | .error rejection => .done (.rejected rejection)
      | .ok _ => .lock)
  | .verifyAdmin username password => do
    match ← s.verifyAdmin username password input.answers with
    | .error _ => h.goto s (.done (.rejected (.error 500 "暂时无法登录")))
    | .ok (_, false) => h.goto s (.done (.rejected (.error 401 "用户名或密码错误")))
    | .ok (stored, true) => some (s, { h with verified := some s.account, pc := .rotate stored })
  | .rotate username =>
    match h.cookie with
    | none | some "" => h.goto s (.establishSession username)
    | some previous => h.goto (s.removeSession previous) (.establishSession username)
  | .establishSession username =>
    match input.token with
    | none => h.goto s (h.finish (.rejected (match h.request with
      | .login _ => .error 500 "暂时无法登录"
      | _ => .error 500 "管理员已创建，请重新登录")))
    | some token => h.goto s (.storeSession username token s.now)
  | .storeSession username token now =>
    let session := s.newSession username now
    h.goto (s.storeSession token ⟨session, h.verified⟩ now) (h.finish (.session session))
  | .stream pc => do
    let (sessionID, session) ← h.session
    let pc' ← pc.next s sessionID session input
    let (s, subscriptions) ← pc.subscribe s h.subscriptions input
    let s ← s.unsubscribe subscriptions pc'
    some (s, { h with subscriptions, pc := pc' })
  | .lock =>
    match s.configWriteMu with
    | some _ => none
    | none => h.goto { s with configWriteMu := some self } .locked
  | .locked => h.goto s (s.locked h.request)
  | .currentPassword current username newPassword password => do
    let (_, session) ← h.session
    match ← s.verifyAdmin session.username password input.answers with
    | .error error => h.goto s (.unlock (.rejected (writeConfigurationError error)))
    | .ok (_, false) => h.goto s (.unlock (.rejected (.error 401 "当前密码不正确")))
    | .ok (_, true) => h.goto s (accountChange current username newPassword)
  | .write op => do
    let (result, s') ← s.perform op input.answers
    match result, op with
    | .error error, .setupAdmin _ _ => h.goto s' (.unlock (.rejected (writeSetupError error)))
    | .error error, _ => h.goto s' (.unlock (.rejected (writeConfigurationError error)))
    | .ok (snapshot, _), _ =>
      some (s', { h with before := some s.account, pc := afterWrite snapshot op })
  | .createTarget target => do
    h.afterEdit s.account
      (← s.editWith (s.createSection target) (.createTarget target) input.answers)
  | .stopTarget op => do
    let jobs ← s.jobs.step (← stopLabel s.now op)
    h.goto { s with jobs } (.edit s.jobs.procs.length op)
  | .edit proc op =>
    match s.jobs.procs[proc]? with
    | some (.edit ⟨_, .waitTargetIdle _⟩) => do
      let jobs ← s.jobs.step (.advance proc { now := s.now, wake := input.managerWake })
      h.goto { s with jobs } (.edit proc op)
    | some (.edit ⟨_, .commit⟩) => do
      h.afterEdit s.account (← s.editWith (s.editSection proc) op input.answers)
    | some (.edit ⟨_, .returned (.error error)⟩) =>
      h.goto s (.unlock (.rejected (writeManagerError error)))
    | _ => none
  | .applyRuntimeConfiguration snapshot => do
    let jobs ← s.jobs.step (settingsLabel snapshot s.now input.draw)
    h.goto { s with jobs } (.setConfiguration snapshot)
  | .setConfiguration snapshot =>
    h.goto (s.setConfiguration snapshot) (h.request.afterConfiguration snapshot)
  | .revokeSessions snapshot =>
    h.goto s.revokeSessions (.unlock (.reauthenticate snapshot.revision))
  | .unlock reply => h.goto { s with configWriteMu := none } (.done reply)
  | .done _ => none

/-! ### The system -/

/-- What can happen next: a request arrives, a handler takes a step, time passes, the process begins
to stop, a hub sets its status, or the manager and its goroutines take a step that is not one of a
handler. -/
inductive Label
  | request (request : Request) (cookie : Option String)
  | advance (handler : ℕ) (input : Input)
  | tick (elapsed : ℕ)
  | shutdown
  | setStatus (state : Hub.Status) (errorText : String)
  | setTelegramStatus (state : Hub.Status) (errorText : String)
  | jobs (label : Jobs.Label)

omit [GCM String] [Argon2] [NetURL] [Net] in
/-- The calls of `Observe` and `Close`, and the receives of observers. -/
def observes : Jobs.Label → Bool
  | .observe _ | .closeSubscription _ | .receive _ => true
  | _ => false

omit [GCM String] [Argon2] [NetURL] [Net] in
/-- The calls of the manager that change targets and limits. -/
def edits (jobs : Jobs.System) : Jobs.Label → Bool
  | .createTarget _ _ | .updateTarget _ _ _ | .deleteTarget _ _ => true
  | .updateSettings _ _ _ _ _ _ => true
  | .advance proc _ =>
    match jobs.procs[proc]? with
    | some (.edit _) => true
    | _ => false
  | _ => false

namespace Server

/-- The transition function. -/
def step (s : Server) : Label → Option Server
  | .request request cookie =>
    some { s with handlers := s.handlers ++ [{ request, cookie }] }
  | .advance self input => do
    let h ← s.handlers[self]?
    let (s', h') ← h.step s self input
    return { s' with handlers := s.handlers.set self h' }
  | .tick elapsed => some { s with now := s.now + elapsed }
  | .shutdown => some { s with shutdown := true }
  | .setStatus state errorText => some { s with status := s.status.set state errorText }
  | .setTelegramStatus state errorText =>
    some { s with telegramStatus := s.telegramStatus.set state errorText }
  | .jobs label =>
    -- Only the handlers subscribe, and change targets and limits.
    if observes label ∨ edits s.jobs label then none
    else (s.jobs.step label).map fun jobs ↦ { s with jobs }

end Server

end

end CodexQueueBot.Web
