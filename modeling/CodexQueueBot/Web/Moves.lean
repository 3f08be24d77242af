import CodexQueueBot.Web.Server

/-!
# What a step of a handler does

The sessions, the cached configuration with its channel, and the tables of the store are what the
handlers of different requests share besides the manager. A step of a handler leaves them as they
were, except at a few program points: `Moves` lists what a step can do to them, together with what
becomes of the handler.
-/

set_option autoImplicit false
set_option relaxedAutoImplicit false

namespace CodexQueueBot.Web

open Go Storage Lib

/-- What handlers share besides the manager. -/
structure Shared where
  now : Jobs.Time
  tables : Tables
  account : ℕ
  sessions : Table String Entry
  sessionsChanged : ℕ
  tokens : List String
  configSnapshot : Snapshot
  configChanged : ℕ

/-- What the handlers of a server share. -/
def Server.shared (s : Server) : Shared where
  now := s.now
  tables := s.tables
  account := s.account
  sessions := s.sessions
  sessionsChanged := s.sessionsChanged
  tokens := s.tokens
  configSnapshot := s.configSnapshot
  configChanged := s.configChanged

/-- The end of an `updateAccount` that has succeeded. -/
def PC.reauthenticates : PC → Bool
  | .unlock (.reauthenticate _) | .done (.reauthenticate _) => true
  | _ => false

/-- The program points that follow an operation of the store that has succeeded, up to the end of
`updateAccount`. -/
def PC.saved : PC → Bool
  | .applyRuntimeConfiguration _ | .setConfiguration _ | .revokeSessions _ => true
  | pc => pc.reauthenticates

/-- The program points that a handler can reach from many others. Those of `requireSession` and of
`events`, and those after an operation of the store that has succeeded, are not among them. -/
def PC.plain : PC → Bool
  | .requireSession _ | .authorized | .stream _ => false
  | pc => !pc.saved

/-! ### Steps of `events` -/

/-- What the `select` of `events` can go on with. -/
theorem Stream.wake_cases {s : Server} {stream : Stream} {wake : Wake} {pc : PC}
    (h : stream.wake s wake = some pc) :
    pc = .done .other ∨ ∃ next, pc = .stream next ∧
      (next = .last ∨ next = .statePayload stream ∨ next = .configurationChanged stream ∨
        next = .sessionsChanged stream ∨ next = .heartbeat stream) := by
  cases wake with
  | requestDone =>
    cases h
    exact Or.inl rfl
  | shutdown | expires | configurationChanges | sessionChanges =>
    simp only [Stream.wake] at h
    split_ifs at h
    cases h
    exact Or.inr ⟨_, rfl, by simp⟩
  | managerEvent ok | status ok | telegramStatus ok =>
    cases h
    cases ok with
    | false => exact Or.inl rfl
    | true => exact Or.inr ⟨_, rfl, by simp⟩
  | heartbeat =>
    cases h
    exact Or.inr ⟨_, rfl, by simp⟩

/-- `events` goes on to its own program points, or ends. -/
theorem StreamPC.next_cases {s : Server} {pc : StreamPC} {pc' : PC} {sessionID : String}
    {session : Session} {input : Input} (hnext : pc.next s sessionID session input = some pc') :
    (∃ next, pc' = .stream next) ∨ pc' = .done .other := by
  cases pc with
  | select stream =>
    rcases Stream.wake_cases hnext with hdone | ⟨next, heq, -⟩
    · exact Or.inr hdone
    · exact Or.inl ⟨next, heq⟩
  | writeSnapshot | writeState | heartbeat =>
    cases hnext
    split_ifs
    · exact Or.inl ⟨_, rfl⟩
    · exact Or.inr rfl
  | last =>
    cases hnext
    exact Or.inr rfl
  | _ =>
    cases hnext
    exact Or.inl ⟨_, rfl⟩

/-! ### Steps of handlers -/

section

variable [GCM String] [Argon2] [NetURL] [Net]

/-- What a step of a handler does to what handlers share, and what becomes of the handler. -/
inductive Handler.Moves (s : Server) (h : Handler) (input : Input) : Shared → Handler → Prop
  | plain (pc : PC) (hplain : pc.plain = true) : Moves s h input s.shared { h with pc }
  | clock : Moves s h input s.shared { h with pc := .requireSession s.now }
  | expired (sessionID : String) (entry : Entry) (now : Jobs.Time)
      (hpc : h.pc = .requireSession now) (hentry : s.sessions.lookup sessionID = some entry)
      (hexpired : entry.session.expiresAt ≤ now) :
      Moves s h input { s.shared with sessions := s.sessions.erase sessionID }
        { h with pc := .done (.rejected unauthorized) }
  | admitted (sessionID : String) (entry : Entry)
      (hentry : s.sessions.lookup sessionID = some entry) :
      Moves s h input s.shared
        { h with session := some (sessionID, entry.session), pc := .authorized }
  | verified (username : String) :
      Moves s h input s.shared { h with verified := some s.account, pc := .rotate username }
  | removed (sessionID : String) (pc : PC) (hplain : pc.plain = true) :
      Moves s h input (s.removeSession sessionID).shared { h with pc }
  | stored (username token : String) (now : Jobs.Time) (pc : PC) (hplain : pc.plain = true)
      (hpc : h.pc = .storeSession username token now) :
      Moves s h input (s.storeSession token ⟨s.newSession username now, h.verified⟩ now).shared
        { h with pc }
  | wrote (op : Write) (result : Except StoreError (Snapshot × Option Target)) (s₁ : Server)
      (pc : PC) (hperform : s.perform op input.answers = some (result, s₁))
      (hplain : pc.plain = true) : Moves s h input s₁.shared { h with pc }
  | saved (op : Write) (snapshot : Snapshot) (target : Option Target) (s₁ : Server) (pc : PC)
      (hperform : s.perform op input.answers = some (.ok (snapshot, target), s₁))
      (hpc : pc = .applyRuntimeConfiguration snapshot ∨ pc = .setConfiguration snapshot) :
      Moves s h input s₁.shared { h with before := some s.account, pc }
  | applied (snapshot : Snapshot) (hpc : h.pc = .applyRuntimeConfiguration snapshot) :
      Moves s h input s.shared { h with pc := .setConfiguration snapshot }
  | configured (snapshot : Snapshot) (pc : PC) (hpc : h.pc = .setConfiguration snapshot)
      (hnext : pc.plain = true ∨ pc = .revokeSessions snapshot) :
      Moves s h input (s.setConfiguration snapshot).shared { h with pc }
  | revoked (snapshot : Snapshot) (hpc : h.pc = .revokeSessions snapshot) :
      Moves s h input s.revokeSessions.shared
        { h with pc := .unlock (.reauthenticate snapshot.revision) }
  | released (revision : Int) (hpc : h.pc = .unlock (.reauthenticate revision)) :
      Moves s h input s.shared { h with pc := .done (.reauthenticate revision) }
  | events (hpc : h.pc = .authorized) :
      Moves s h input s.shared { h with pc := .stream .observe }
  | stream (pc : StreamPC) (pc' : PC) (sessionID : String) (session : Session)
      (subscriptions : Subscriptions) (hpc : h.pc = .stream pc)
      (hsession : h.session = some (sessionID, session))
      (hnext : pc.next s sessionID session input = some pc') :
      Moves s h input s.shared { h with subscriptions, pc := pc' }

variable {s s' : Server} {self : ℕ} {h h' : Handler} {input : Input}

/-- An operation of the store touches the tables alone. -/
theorem Server.perform_frame {op : Write} {answers : List (Answer SQLError)}
    {result : Except StoreError (Snapshot × Option Target)}
    (h : s.perform op answers = some (result, s')) :
    s' = { s with tables := s'.tables, account := s'.account } := by
  obtain ⟨_, -, hreturn⟩ := Option.bind_eq_some_iff.mp h
  cases hreturn
  rfl

/-- What `events` does to the server with its subscriptions. -/
structure Server.Subscribes (s s' : Server) : Prop where
  frame : s' = { s with jobs := s'.jobs, status := s'.status, telegramStatus := s'.telegramStatus }
  jobs : s'.jobs = s.jobs ∨ ∃ label, observes label = true ∧ s.jobs.step label = some s'.jobs

omit [GCM String] [Argon2] [Net] in
theorem Server.subscribes_refl (s : Server) : s.Subscribes s :=
  ⟨rfl, Or.inl rfl⟩

omit [GCM String] [Argon2] [Net] in
/-- A receive is one from the manager, or leaves it alone. -/
theorem Server.receive_subscribes {subscriptions : Subscriptions} {wake : Wake}
    (h : s.receive subscriptions wake = some s') : s.Subscribes s' := by
  cases wake with
  | managerEvent ok =>
    obtain ⟨id, -, h⟩ := Option.bind_eq_some_iff.mp h
    obtain ⟨jobs, hreceive, h⟩ := Option.bind_eq_some_iff.mp h
    cases h
    refine ⟨rfl, ?_⟩
    obtain ⟨observer, -, hreceive⟩ := Option.bind_eq_some_iff.mp hreceive
    split at hreceive
    · split_ifs at hreceive
      exact Or.inl (Option.some.inj hreceive).symm
    · split_ifs at hreceive
      exact Or.inr ⟨_, rfl, hreceive⟩
  | status ok | telegramStatus ok =>
    obtain ⟨observer, -, h⟩ := Option.bind_eq_some_iff.mp h
    obtain ⟨store, -, h⟩ := Option.bind_eq_some_iff.mp h
    cases h
    exact ⟨rfl, Or.inl rfl⟩
  | _ =>
    cases h
    exact s.subscribes_refl

/-- A blocked `select` takes no case that the server decides. -/
theorem Stream.Blocked.step_eq_none {stream : Stream}
    (hblocked : stream.Blocked s h.subscriptions) (hpc : h.pc = .stream (.select stream))
    (hwake : input.wake ∈ serverWakes) : h.step s self input = none := by
  simp only [Handler.step, hpc]
  cases h.session with
  | none => rfl
  | some session =>
    rcases hblocked input.wake hwake with hnone | hnone
    · simp [StreamPC.next, Option.isNone_iff_eq_none.mp hnone]
    · simp [StreamPC.subscribe, Option.isNone_iff_eq_none.mp hnone]

omit [GCM String] [Argon2] [Net] in
/-- A step of `events` subscribes, receives, or leaves the subscriptions alone. -/
theorem StreamPC.subscribe_subscribes {pc : StreamPC} {subscriptions after : Subscriptions}
    (h : pc.subscribe s subscriptions input = some (s', after)) : s.Subscribes s' := by
  cases pc with
  | observe =>
    obtain ⟨jobs, hobserve, h⟩ := Option.bind_eq_some_iff.mp h
    cases h
    exact ⟨rfl, Or.inr ⟨_, rfl, hobserve⟩⟩
  | observeStatus | observeTelegramStatus =>
    cases h
    exact ⟨rfl, Or.inl rfl⟩
  | select stream =>
    obtain ⟨s₁, hreceive, h⟩ := Option.map_eq_some_iff.mp h
    cases h
    exact Server.receive_subscribes hreceive
  | _ =>
    cases h
    exact s.subscribes_refl

omit [GCM String] [Argon2] [Net] in
/-- The return of `events` closes its subscriptions. -/
theorem Server.unsubscribe_subscribes {subscriptions : Subscriptions} {pc : PC}
    (h : s.unsubscribe subscriptions pc = some s') : s.Subscribes s' := by
  cases pc with
  | done reply =>
    obtain ⟨id, -, h⟩ := Option.bind_eq_some_iff.mp h
    obtain ⟨jobs, hclose, h⟩ := Option.bind_eq_some_iff.mp h
    obtain ⟨status, -, h⟩ := Option.bind_eq_some_iff.mp h
    obtain ⟨telegramStatus, -, h⟩ := Option.bind_eq_some_iff.mp h
    cases h
    exact ⟨rfl, Or.inr ⟨_, rfl, hclose⟩⟩
  | _ =>
    cases h
    exact s.subscribes_refl

omit [GCM String] [Argon2] [Net] in
/-- What handlers share is not touched. -/
theorem Server.Subscribes.shared (h : s.Subscribes s') : s'.shared = s.shared := by
  rw [h.frame]
  rfl

/-- A section of the manager with its `persist` is an operation of the store for what handlers
share, or nothing; a snapshot comes from an operation that has succeeded. -/
theorem Server.editWith_shared
    {run : Jobs.Persist → Option (Jobs.System × Except Jobs.Manager.Error Unit)} {op : Write}
    {answers : List (Answer SQLError)} {outcome : Except Rejection Snapshot}
    (h : s.editWith run op answers = some (s', outcome)) :
    (s'.shared = s.shared ∧ ∃ rejection, outcome = .error rejection) ∨
    ∃ result s₁, s.perform op answers = some (result, s₁) ∧ s'.shared = s₁.shared ∧
      ((∃ rejection, outcome = .error rejection) ∨
        ∃ snapshot target, outcome = .ok snapshot ∧ result = .ok (snapshot, target)) := by
  unfold Server.editWith at h
  split_ifs at h
  · obtain ⟨⟨stored, s₁⟩, hperform, h⟩ := Option.bind_eq_some_iff.mp h
    obtain ⟨⟨jobs, result⟩, -, h⟩ := Option.bind_eq_some_iff.mp h
    refine Or.inr ⟨stored, s₁, hperform, ?_⟩
    rcases stored with error | ⟨snapshot, target⟩
    · cases h
      exact ⟨rfl, Or.inl ⟨_, rfl⟩⟩
    · cases result with
      | error error =>
        cases h
        exact ⟨rfl, Or.inl ⟨_, rfl⟩⟩
      | ok _ =>
        cases h
        exact ⟨rfl, Or.inr ⟨snapshot, target, rfl, rfl⟩⟩
  · obtain ⟨⟨jobs, result⟩, -, h⟩ := Option.bind_eq_some_iff.mp h
    cases result <;> cases h
    exact Or.inl ⟨rfl, _, rfl⟩

/-- What a section of the manager with its `persist` and the step after it do. -/
theorem Handler.afterEdit_moves {s₁ : Server} {op : Write} {outcome : Except Rejection Snapshot}
    {run : Jobs.Persist → Option (Jobs.System × Except Jobs.Manager.Error Unit)}
    (hedit : s.editWith run op input.answers = some (s₁, outcome))
    (hstep : h.afterEdit s.account (s₁, outcome) = some (s', h')) :
    h.Moves s input s'.shared h' := by
  rcases Server.editWith_shared hedit with ⟨hshared, rejection, rfl⟩ |
    ⟨result, s₂, hperform, hshared, ⟨rejection, rfl⟩ | ⟨snapshot, target, rfl, rfl⟩⟩
  · cases hstep
    rw [hshared]
    exact .plain _ rfl
  · cases hstep
    rw [hshared]
    exact .wrote op result s₂ _ hperform rfl
  · cases hstep
    rw [hshared]
    exact .saved op snapshot target s₂ _ hperform (Or.inr rfl)

omit [GCM String] [Argon2] [NetURL] [Net] in
/-- `updateAccount` goes on to the store, or rejects the request. -/
theorem plain_accountChange (current : Snapshot) (username newPassword : String) :
    (accountChange current username newPassword).plain = true := by
  unfold accountChange
  split_ifs <;> rfl

omit [GCM String] [Argon2] [Net] in
/-- What a handler does first under the lock. -/
theorem Server.plain_locked (s : Server) (request : Request) :
    (s.locked request).plain = true := by
  cases request with
  | updateOpenILinkConfig body | updateTelegramConfig body =>
    cases body with
    | none => rfl
    | some request =>
      simp only [Server.locked]
      split <;> rfl
  | updateAccount body =>
    cases body with
    | none => rfl
    | some request =>
      simp only [Server.locked]
      split
      · rfl
      · split_ifs
        · rfl
        · exact plain_accountChange _ _ _
  | updateTarget text body =>
    cases body with
    | none => rfl
    | some request =>
      simp only [Server.locked]
      split
      · rfl
      · split
        · rfl
        · split <;> rfl
  | deleteTarget text =>
    simp only [Server.locked]
    split <;> rfl
  | setup body | updateCodexConfig body | updateWebConfig body | createTarget body =>
    cases body <;> rfl
  | login body | logout | events | other => rfl

/-- A handler that goes to a plain program point. -/
theorem Handler.moves_goto {s₁ : Server} {pc : PC} (hshared : s₁.shared = s.shared)
    (hplain : pc.plain = true) (hstep : h.goto s₁ pc = some (s', h')) :
    h.Moves s input s'.shared h' := by
  cases hstep
  rw [hshared]
  exact .plain pc hplain

/-- What a step of a handler does. -/
theorem Handler.step_moves (hstep : h.step s self input = some (s', h')) :
    h.Moves s input s'.shared h' := by
  unfold Handler.step at hstep
  cases hpc : h.pc <;> simp only [hpc] at hstep
  case arrived =>
    split at hstep
    · exact moves_goto rfl rfl hstep
    · exact moves_goto rfl rfl hstep
    · refine moves_goto rfl ?_ hstep
      split <;> rfl
    · split at hstep
      · exact moves_goto rfl rfl hstep
      · exact moves_goto rfl rfl hstep
      · cases hstep
        exact .clock
  case requireSession now =>
    obtain ⟨sessionID, -, hstep⟩ := Option.bind_eq_some_iff.mp hstep
    split at hstep
    · exact moves_goto rfl rfl hstep
    · split_ifs at hstep with hexpired
      · cases hstep
        exact .expired sessionID _ now hpc (by assumption) hexpired
      · cases hstep
        exact .admitted sessionID _ (by assumption)
  case authorized =>
    split at hstep
    · obtain ⟨⟨sessionID, session⟩, -, hstep⟩ := Option.bind_eq_some_iff.mp hstep
      cases hstep
      exact .removed sessionID _ rfl
    · cases hstep
      exact .events hpc
    · exact moves_goto rfl rfl hstep
    · refine moves_goto rfl ?_ hstep
      split <;> rfl
  case verifyAdmin username password =>
    obtain ⟨result, -, hstep⟩ := Option.bind_eq_some_iff.mp hstep
    split at hstep
    · exact moves_goto rfl rfl hstep
    · exact moves_goto rfl rfl hstep
    · cases hstep
      exact .verified _
  case rotate username =>
    split at hstep
    · exact moves_goto rfl rfl hstep
    · exact moves_goto rfl rfl hstep
    · cases hstep
      exact .removed _ _ rfl
  case establishSession username =>
    split at hstep
    · refine moves_goto rfl ?_ hstep
      unfold Handler.finish
      split <;> rfl
    · exact moves_goto rfl rfl hstep
  case storeSession username token now =>
    cases hstep
    refine .stored username token now _ ?_ hpc
    unfold Handler.finish
    split <;> rfl
  case stream pc =>
    obtain ⟨⟨sessionID, session⟩, hsession, hstep⟩ := Option.bind_eq_some_iff.mp hstep
    obtain ⟨pc', hnext, hstep⟩ := Option.bind_eq_some_iff.mp hstep
    obtain ⟨⟨s₁, subscriptions⟩, hsubscribe, hstep⟩ := Option.bind_eq_some_iff.mp hstep
    obtain ⟨s₂, hunsubscribe, hstep⟩ := Option.bind_eq_some_iff.mp hstep
    cases hstep
    rw [(Server.unsubscribe_subscribes hunsubscribe).shared,
      (StreamPC.subscribe_subscribes hsubscribe).shared]
    exact .stream pc pc' sessionID session subscriptions hpc hsession hnext
  case lock =>
    split at hstep
    · cases hstep
    · have hshared : { s with configWriteMu := some self }.shared = s.shared := rfl
      exact moves_goto hshared rfl hstep
  case locked => exact moves_goto rfl (s.plain_locked h.request) hstep
  case currentPassword current username newPassword password =>
    obtain ⟨⟨sessionID, session⟩, -, hstep⟩ := Option.bind_eq_some_iff.mp hstep
    obtain ⟨result, -, hstep⟩ := Option.bind_eq_some_iff.mp hstep
    split at hstep
    · exact moves_goto rfl rfl hstep
    · exact moves_goto rfl rfl hstep
    · exact moves_goto rfl (plain_accountChange _ _ _) hstep
  case write op =>
    obtain ⟨⟨result, s₁⟩, hperform, hstep⟩ := Option.bind_eq_some_iff.mp hstep
    simp only at hstep
    split at hstep
    · cases hstep
      exact .wrote _ _ _ _ hperform rfl
    · cases hstep
      exact .wrote _ _ _ _ hperform rfl
    · cases hstep
      refine .saved op _ _ _ _ hperform ?_
      unfold afterWrite
      split
      · exact Or.inl rfl
      · exact Or.inl rfl
      · exact Or.inr rfl
  case createTarget target =>
    obtain ⟨⟨s₁, outcome⟩, hedit, hstep⟩ := Option.bind_eq_some_iff.mp hstep
    exact afterEdit_moves hedit hstep
  case stopTarget op =>
    obtain ⟨label, -, hstep⟩ := Option.bind_eq_some_iff.mp hstep
    obtain ⟨jobs, -, hstep⟩ := Option.bind_eq_some_iff.mp hstep
    have hshared : { s with jobs }.shared = s.shared := rfl
    exact moves_goto hshared rfl hstep
  case edit proc op =>
    split at hstep
    · obtain ⟨jobs, -, hstep⟩ := Option.bind_eq_some_iff.mp hstep
      have hshared : { s with jobs }.shared = s.shared := rfl
      exact moves_goto hshared rfl hstep
    · obtain ⟨⟨s₁, outcome⟩, hedit, hstep⟩ := Option.bind_eq_some_iff.mp hstep
      exact afterEdit_moves hedit hstep
    · exact moves_goto rfl rfl hstep
    · cases hstep
  case applyRuntimeConfiguration snapshot =>
    obtain ⟨jobs, -, hstep⟩ := Option.bind_eq_some_iff.mp hstep
    cases hstep
    exact .applied snapshot hpc
  case setConfiguration snapshot =>
    cases hstep
    refine .configured snapshot _ hpc ?_
    unfold Request.afterConfiguration
    split
    · exact Or.inl rfl
    · exact Or.inr rfl
    · exact Or.inl rfl
  case revokeSessions snapshot =>
    cases hstep
    exact .revoked snapshot hpc
  case unlock reply =>
    cases hstep
    cases reply with
    | reauthenticate revision => exact .released revision hpc
    | _ => exact .plain _ rfl
  case done => cases hstep

/-- What a step of the server does: a handler takes a step, or requests may arrive while time may
pass. -/
theorem Server.step_cases {label : Label} (hstep : s.step label = some s') :
    (∃ self input h h', label = .advance self input ∧ s.handlers[self]? = some h ∧
      h.Moves s input s'.shared h' ∧ s'.handlers = s.handlers.set self h') ∨
    (∃ (arrived : List (Request × Option String)) (elapsed : ℕ),
      s'.handlers = s.handlers ++ arrived.map (fun r ↦ { request := r.1, cookie := r.2 }) ∧
      s'.shared = { s.shared with now := s.now + elapsed }) := by
  have hquiet : s'.handlers = s.handlers → s'.shared = s.shared →
      ∃ (arrived : List (Request × Option String)) (elapsed : ℕ),
        s'.handlers = s.handlers ++ arrived.map (fun r ↦ { request := r.1, cookie := r.2 }) ∧
        s'.shared = { s.shared with now := s.now + elapsed } := by
    intro hhandlers hshared
    refine ⟨[], 0, by rw [hhandlers, List.map_nil, List.append_nil], ?_⟩
    rw [hshared, Int.natCast_zero, Int.add_zero]
    rfl
  cases label with
  | request request cookie =>
    cases hstep
    refine Or.inr ⟨[(request, cookie)], 0, rfl, ?_⟩
    rw [Int.natCast_zero, Int.add_zero]
    rfl
  | advance self input =>
    obtain ⟨h, hget, hstep⟩ := Option.bind_eq_some_iff.mp hstep
    obtain ⟨⟨s₁, h'⟩, hmove, hstep⟩ := Option.bind_eq_some_iff.mp hstep
    cases hstep
    have hmoves : h.Moves s input s₁.shared h' := Handler.step_moves hmove
    exact Or.inl ⟨self, input, h, h', rfl, hget, hmoves, rfl⟩
  | tick elapsed =>
    cases hstep
    exact Or.inr ⟨[], elapsed, by rw [List.map_nil, List.append_nil], rfl⟩
  | shutdown | setStatus | setTelegramStatus =>
    cases hstep
    exact Or.inr (hquiet rfl rfl)
  | jobs label =>
    simp only [Server.step] at hstep
    split_ifs at hstep
    obtain ⟨jobs, -, rfl⟩ := Option.map_eq_some_iff.mp hstep
    exact Or.inr (hquiet rfl rfl)

end

end CodexQueueBot.Web
