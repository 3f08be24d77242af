import CodexQueueBot.Lib.Channel
import CodexQueueBot.Web.Accounts

/-!
# Streams of events

`events` waits on two channels that are closed and replaced, one for the configuration and one for
the sessions. In its loop it takes the new channel before it reads what the channel stands for, so
that no change is missed: a stream that waits on the current channel of the configuration has
written the current revision (`payload_shown`), and one that waits on the current channel of the
sessions has a session that is there or has expired (`stream_attended`).

Before the loop the order is the other way round: the first payload is built, and the session is
looked up, before the channels are taken. Both results are about runs in which nothing changes in
between. `stale_payload` and `revoked_stream` are runs in which something does.
-/

set_option autoImplicit false
set_option relaxedAutoImplicit false

namespace CodexQueueBot.Web

open Go Storage Lib

section

variable [GCM String] [Argon2] [NetURL] [Net] {s s' : Server} {h h' : Handler} {input : Input}
  {shared : Shared} {label : Label}

/-- A handler that is in its stream after a step begins it, or was in it before. -/
theorem Handler.Moves.stream_cases (hmoves : h.Moves s input shared h') {pc' : StreamPC}
    (hpc' : h'.pc = .stream pc') :
    shared = s.shared ∧ h'.session = h.session ∧
      ((pc' = .observe ∧ h.pc = .authorized) ∨ ∃ pc sessionID session, h.pc = .stream pc ∧
        h.session = some (sessionID, session) ∧
        pc.next s sessionID session input = some (.stream pc')) := by
  have hplain : ∀ pc : PC, pc.plain = true → pc ≠ .stream pc' := by
    rintro pc hplain rfl
    cases hplain
  cases hmoves with
  | plain pc hpc => exact absurd hpc' (hplain pc hpc)
  | removed _ pc hpc => exact absurd hpc' (hplain pc hpc)
  | stored _ _ _ pc hpc => exact absurd hpc' (hplain pc hpc)
  | wrote _ _ _ pc _ hpc => exact absurd hpc' (hplain pc hpc)
  | configured snapshot pc _ hnext =>
    rcases hnext with hnext | rfl
    · exact absurd hpc' (hplain pc hnext)
    · cases hpc'
  | saved op snapshot target s₁ pc _ hpc => rcases hpc with rfl | rfl <;> cases hpc'
  | events hpc =>
    cases hpc'
    exact ⟨rfl, rfl, Or.inl ⟨rfl, hpc⟩⟩
  | stream pc _ sessionID session _ hpc hsession hnext =>
    obtain rfl : _ = PC.stream pc' := hpc'
    exact ⟨rfl, rfl, Or.inr ⟨pc, sessionID, session, hpc, hsession, hnext⟩⟩
  | clock | expired | admitted | verified | applied | revoked | released => cases hpc'

/-! ### The revision of the payload -/

/-- What a stream that waits for a change of the configuration relies on: the revision that it has
written, or is about to write, is the current one as long as its channel is. -/
def StreamPC.Informed (s : Server) : StreamPC → Prop
  | .sessionChanges revision _ changes =>
    Attends changes s.configChanged (revision = s.configSnapshot.revision)
  | .select stream | .sessionsChanged stream | .sessionExists stream | .heartbeat stream =>
    Attends stream.configurationChanges s.configChanged
      (stream.revision = s.configSnapshot.revision)
  | .writeState stream revision =>
    Attends stream.configurationChanges s.configChanged (revision = s.configSnapshot.revision)
  | .configurationChanged stream | .statePayload stream =>
    Attends stream.configurationChanges s.configChanged True
  | _ => True

omit [GCM String] [Argon2] [NetURL] [Net] in
/-- What a stream relies on is kept by a step that keeps the configuration, or replaces it with its
channel. -/
theorem StreamPC.Informed.kept {pc : StreamPC} (hinformed : pc.Informed s)
    (hconfiguration : (s'.configSnapshot = s.configSnapshot ∧ s'.configChanged = s.configChanged) ∨
      s'.configChanged = s.configChanged + 1) : pc.Informed s' := by
  have hkept : ∀ (channel : ℕ) (revision : Int),
      Attends channel s.configChanged (revision = s.configSnapshot.revision) →
      Attends channel s'.configChanged (revision = s'.configSnapshot.revision) := by
    intro channel revision hattends
    rcases hconfiguration with ⟨hsnapshot, hchanged⟩ | hchanged
    · rw [hsnapshot, hchanged]
      exact hattends
    · rw [hchanged]
      exact hattends.signal
  have hbounded : ∀ channel : ℕ, Attends channel s.configChanged True →
      Attends channel s'.configChanged True := by
    intro channel hattends
    rcases hconfiguration with ⟨-, hchanged⟩ | hchanged
    · rw [hchanged]
      exact hattends
    · rw [hchanged]
      exact hattends.signal
  cases pc with
  | sessionChanges | select | sessionsChanged | sessionExists | heartbeat | writeState =>
    exact hkept _ _ hinformed
  | configurationChanged | statePayload => exact hbounded _ hinformed
  | _ => trivial

omit [GCM String] [Argon2] [NetURL] [Net] in
/-- A stream goes on with what it relies on, if the revision of its first payload is current when it
takes its first channel. -/
theorem StreamPC.Informed.next {pc pc' : StreamPC} {sessionID : String} {session : Session}
    (hinformed : pc.Informed s)
    (hfirst : ∀ revision deadline, pc = .configurationChanges revision deadline →
      revision = s.configSnapshot.revision)
    (hnext : pc.next s sessionID session input = some (.stream pc')) : pc'.Informed s := by
  cases pc with
  | observe | observeStatus | observeTelegramStatus | dashboardPayload | expires =>
    cases hnext
    trivial
  | last => cases hnext
  | writeSnapshot revision =>
    simp only [StreamPC.next] at hnext
    split_ifs at hnext <;> cases hnext
    trivial
  | configurationChanges revision deadline =>
    cases hnext
    exact .capture (hfirst revision deadline rfl)
  | sessionChanges revision deadline changes =>
    cases hnext
    exact hinformed
  | select stream =>
    rcases Stream.wake_cases hnext with hdone | ⟨next, heq, hcase⟩
    · cases hdone
    · cases heq
      rcases hcase with rfl | rfl | rfl | rfl | rfl
      · trivial
      · exact hinformed.keep fun _ ↦ trivial
      · exact hinformed.keep fun _ ↦ trivial
      · exact hinformed
      · exact hinformed
  | configurationChanged stream =>
    cases hnext
    exact .capture trivial
  | statePayload stream =>
    cases hnext
    exact hinformed.keep fun _ ↦ rfl
  | writeState stream revision =>
    simp only [StreamPC.next] at hnext
    split_ifs at hnext <;> cases hnext
    exact hinformed
  | sessionsChanged stream =>
    cases hnext
    exact hinformed
  | sessionExists stream =>
    simp only [StreamPC.next] at hnext
    split_ifs at hnext <;> cases hnext
    · exact hinformed
    · trivial
  | heartbeat stream =>
    simp only [StreamPC.next] at hnext
    split_ifs at hnext <;> cases hnext
    exact hinformed

/-- A step of a handler keeps the configuration, or replaces it with its channel. -/
theorem Handler.Moves.configuration (hmoves : h.Moves s input shared h') :
    (shared.configSnapshot = s.configSnapshot ∧ shared.configChanged = s.configChanged) ∨
      shared.configChanged = s.configChanged + 1 := by
  cases hmoves with
  | configured => exact Or.inr rfl
  | wrote op result s₁ pc hperform =>
    rw [Server.perform_frame hperform]
    exact Or.inl ⟨rfl, rfl⟩
  | saved op snapshot target s₁ pc hperform =>
    rw [Server.perform_frame hperform]
    exact Or.inl ⟨rfl, rfl⟩
  | _ => exact Or.inl ⟨rfl, rfl⟩

namespace Server

/-- No configuration is set between the payload that begins a stream and the taking of its first
channel. -/
def Settled (s : Server) (label : Label) : Prop :=
  ∀ self input h revision deadline, label = .advance self input → s.handlers[self]? = some h →
    h.pc = .stream (.configurationChanges revision deadline) →
    revision = s.configSnapshot.revision

/-- What all streams rely on. -/
def Informs (s : Server) : Prop :=
  ∀ h ∈ s.handlers, ∀ pc, h.pc = .stream pc → pc.Informed s

/-- A step keeps what streams rely on. -/
theorem step_informs (hinforms : s.Informs) (hsettled : s.Settled label)
    (hstep : s.step label = some s') : s'.Informs := by
  intro other hother pc' hpc'
  rcases step_cases hstep with ⟨self, input, h, h', rfl, hget, hmoves, hhandlers⟩ |
    ⟨arrived, elapsed, hhandlers, hshared⟩
  · rw [hhandlers] at hother
    rcases List.mem_or_eq_of_mem_set hother with hold | rfl
    · exact (hinforms other hold pc' hpc').kept hmoves.configuration
    · obtain ⟨-, -, ⟨rfl, -⟩ | ⟨pc, sessionID, session, hpc, -, hnext⟩⟩ := hmoves.stream_cases hpc'
      · trivial
      · refine StreamPC.Informed.kept ?_ hmoves.configuration
        refine (hinforms h (List.mem_of_getElem? hget) pc hpc).next ?_ hnext
        rintro revision deadline rfl
        exact hsettled self input h revision deadline rfl hget hpc
  · have hconfiguration : s'.configSnapshot = s.configSnapshot ∧
        s'.configChanged = s.configChanged :=
      ⟨congrArg Shared.configSnapshot hshared, congrArg Shared.configChanged hshared⟩
    rw [hhandlers] at hother
    rcases List.mem_append.mp hother with hold | hnew
    · exact (hinforms other hold pc' hpc').kept (Or.inl hconfiguration)
    · obtain ⟨r, -, rfl⟩ := List.mem_map.mp hnew
      cases hpc'

/-- In every run from a new server in which no configuration is set between the payload that begins
a stream and the taking of its first channel: a stream that waits on the current channel of the
configuration has written the current revision in its last payload. -/
theorem payload_shown (configStore : Store)
    (sessionTTL : {duration : Jobs.Duration // 0 < duration}) (now : Jobs.Time) (tables : Tables)
    (jobs : Jobs.System) (configSnapshot : Snapshot)
    (hrun : Steps step Settled (new configStore sessionTTL now tables jobs configSnapshot) s)
    {stream : Stream} (hmem : h ∈ s.handlers) (hselect : h.pc = .stream (.select stream))
    (hcurrent : stream.configurationChanges = s.configChanged) :
    stream.revision = s.configSnapshot.revision := by
  have hinforms : s.Informs := by
    refine hrun.invariant (P := Informs) (fun s s' label ↦ step_informs) ?_
    intro h hmem
    cases hmem
  have hattends : Attends stream.configurationChanges s.configChanged
      (stream.revision = s.configSnapshot.revision) := hinforms h hmem _ hselect
  exact hattends.2 hcurrent

end Server

/-! ### The session of the stream -/

/-- A session is there, or it has expired. -/
def Server.Alive (s : Server) (sessionID : String) (session : Session) : Prop :=
  sessionID ∈ s.sessions ∨ session.expiresAt ≤ s.now

/-- What a stream that waits for a change of the sessions relies on: its session is there or has
expired as long as its channel is current. -/
def StreamPC.Watchful (s : Server) (sessionID : String) (session : Session) : StreamPC → Prop
  | .select stream | .configurationChanged stream | .statePayload stream | .writeState stream _ |
    .heartbeat stream =>
    Attends stream.sessionChanges s.sessionsChanged (s.Alive sessionID session)
  | .sessionsChanged stream | .sessionExists stream =>
    Attends stream.sessionChanges s.sessionsChanged True
  | _ => True

omit [GCM String] [Argon2] [NetURL] [Net] in
/-- What a stream relies on is kept by a step that keeps its session, or closes and replaces the
channel. -/
theorem StreamPC.Watchful.kept {pc : StreamPC} {sessionID : String} {session : Session}
    (hwatchful : pc.Watchful s sessionID session)
    (hsessions : (s'.sessionsChanged = s.sessionsChanged ∧
        (s.Alive sessionID session → s'.Alive sessionID session)) ∨
      s'.sessionsChanged = s.sessionsChanged + 1) : pc.Watchful s' sessionID session := by
  have hkept : ∀ (channel : ℕ) (condition after : Prop), (condition → after) ∨
      s'.sessionsChanged = s.sessionsChanged + 1 →
      s'.sessionsChanged = s.sessionsChanged ∨ s'.sessionsChanged = s.sessionsChanged + 1 →
      Attends channel s.sessionsChanged condition → Attends channel s'.sessionsChanged after := by
    intro channel condition after himp hchanged hattends
    rcases hchanged with hchanged | hchanged
    · rw [hchanged]
      exact hattends.keep (himp.resolve_right (by omega))
    · rw [hchanged]
      exact hattends.signal
  have hchanged : s'.sessionsChanged = s.sessionsChanged ∨
      s'.sessionsChanged = s.sessionsChanged + 1 := hsessions.imp And.left id
  cases pc with
  | select | configurationChanged | statePayload | writeState | heartbeat =>
    exact hkept _ _ _ (hsessions.imp And.right id) hchanged hwatchful
  | sessionsChanged | sessionExists =>
    exact hkept _ _ _ (Or.inl fun _ ↦ trivial) hchanged hwatchful
  | _ => trivial

omit [GCM String] [Argon2] [NetURL] [Net] in
/-- A stream goes on with what it relies on, if its session is there or has expired when it takes
its first channel. -/
theorem StreamPC.Watchful.next {pc pc' : StreamPC} {sessionID : String} {session : Session}
    (hwatchful : pc.Watchful s sessionID session)
    (hfirst : ∀ revision deadline changes, pc = .sessionChanges revision deadline changes →
      s.Alive sessionID session)
    (hnext : pc.next s sessionID session input = some (.stream pc')) :
    pc'.Watchful s sessionID session := by
  cases pc with
  | observe | observeStatus | observeTelegramStatus | dashboardPayload | expires
  | configurationChanges =>
    cases hnext
    trivial
  | last => cases hnext
  | writeSnapshot revision =>
    simp only [StreamPC.next] at hnext
    split_ifs at hnext <;> cases hnext
    trivial
  | sessionChanges revision deadline changes =>
    cases hnext
    exact .capture (hfirst revision deadline changes rfl)
  | select stream =>
    rcases Stream.wake_cases hnext with hdone | ⟨next, heq, hcase⟩
    · cases hdone
    · cases heq
      rcases hcase with rfl | rfl | rfl | rfl | rfl
      · trivial
      · exact hwatchful
      · exact hwatchful
      · exact hwatchful.keep fun _ ↦ trivial
      · exact hwatchful
  | configurationChanged stream | statePayload stream =>
    cases hnext
    exact hwatchful
  | writeState stream revision =>
    simp only [StreamPC.next] at hnext
    split_ifs at hnext <;> cases hnext
    exact hwatchful
  | sessionsChanged stream =>
    cases hnext
    exact .capture trivial
  | sessionExists stream =>
    simp only [StreamPC.next] at hnext
    split_ifs at hnext with hexists <;> cases hnext
    · obtain ⟨entry, hlookup, -⟩ := (Option.any_eq_true _ _).mp hexists
      exact hwatchful.keep fun _ ↦ Or.inl (Table.mem_of_lookup hlookup)
    · trivial
  | heartbeat stream =>
    simp only [StreamPC.next] at hnext
    split_ifs at hnext <;> cases hnext
    exact hwatchful

/-- What a step of a handler does to the sessions: it keeps them, deletes an expired one, or closes
and replaces their channel. -/
theorem Handler.Moves.sessions_cases (hmoves : h.Moves s input shared h') :
    shared.now = s.now ∧
    ((shared.sessionsChanged = s.sessionsChanged ∧ shared.sessions = s.sessions) ∨
      (∃ sessionID entry now, h.pc = .requireSession now ∧
        s.sessions.lookup sessionID = some entry ∧ entry.session.expiresAt ≤ now ∧
        shared.sessionsChanged = s.sessionsChanged ∧
        shared.sessions = s.sessions.erase sessionID) ∨
      shared.sessionsChanged = s.sessionsChanged + 1) := by
  cases hmoves with
  | expired sessionID entry now hpc hentry hexpired =>
    exact ⟨rfl, Or.inr (Or.inl ⟨sessionID, entry, now, hpc, hentry, hexpired, rfl, rfl⟩)⟩
  | removed | stored | revoked => exact ⟨rfl, Or.inr (Or.inr rfl)⟩
  | wrote op result s₁ pc hperform =>
    rw [Server.perform_frame hperform]
    exact ⟨rfl, Or.inl ⟨rfl, rfl⟩⟩
  | saved op snapshot target s₁ pc hperform =>
    rw [Server.perform_frame hperform]
    exact ⟨rfl, Or.inl ⟨rfl, rfl⟩⟩
  | _ => exact ⟨rfl, Or.inl ⟨rfl, rfl⟩⟩

/-- The tokens in use stay so. -/
theorem Handler.Moves.tokens (hmoves : h.Moves s input shared h') {token : String}
    (hmem : token ∈ s.tokens) : token ∈ shared.tokens := by
  cases hmoves with
  | stored => exact List.mem_cons_of_mem _ hmem
  | wrote op result s₁ pc hperform =>
    rw [Server.perform_frame hperform]
    exact hmem
  | saved op snapshot target s₁ pc hperform =>
    rw [Server.perform_frame hperform]
    exact hmem
  | _ => exact hmem

/-- What a handler knows of its session: the clock that it has read is not ahead, a token that it
has found is in use, and the session under it, if there is one, is the one it has found. -/
structure Handler.Knowing (s : Server) (h : Handler) : Prop where
  clock : ∀ now, h.pc = .requireSession now → now ≤ s.now
  found : ∀ sessionID session, h.session = some (sessionID, session) → sessionID ∈ s.tokens ∧
    ∀ entry, s.sessions.lookup sessionID = some entry → entry.session = session
  has : h.pc = .authorized ∨ (∃ pc, h.pc = .stream pc) → ∃ sessionID session,
    h.session = some (sessionID, session)

/-- The clock of a handler and its session after one of its steps. -/
theorem Handler.Moves.session_cases (hmoves : h.Moves s input shared h') :
    (∀ now, h'.pc = .requireSession now → now = s.now) ∧
    (h'.session = h.session ∧ h'.pc ≠ .authorized ∨ ∃ sessionID entry,
      s.sessions.lookup sessionID = some entry ∧ shared = s.shared ∧
      h'.session = some (sessionID, entry.session)) := by
  have hplain : ∀ pc : PC, pc.plain = true →
      (∀ now, pc = .requireSession now → now = s.now) ∧ pc ≠ .authorized := by
    intro pc hplain
    constructor
    · rintro now rfl
      cases hplain
    · rintro rfl
      cases hplain
  cases hmoves with
  | plain pc hpc => exact ⟨(hplain pc hpc).1, Or.inl ⟨rfl, (hplain pc hpc).2⟩⟩
  | removed _ pc hpc => exact ⟨(hplain pc hpc).1, Or.inl ⟨rfl, (hplain pc hpc).2⟩⟩
  | stored _ _ _ pc hpc => exact ⟨(hplain pc hpc).1, Or.inl ⟨rfl, (hplain pc hpc).2⟩⟩
  | wrote _ _ _ pc _ hpc => exact ⟨(hplain pc hpc).1, Or.inl ⟨rfl, (hplain pc hpc).2⟩⟩
  | configured snapshot pc _ hnext =>
    rcases hnext with hnext | rfl
    · exact ⟨(hplain pc hnext).1, Or.inl ⟨rfl, (hplain pc hnext).2⟩⟩
    · exact ⟨fun _ heq ↦ (nomatch heq), Or.inl ⟨rfl, fun heq ↦ (nomatch heq)⟩⟩
  | saved op snapshot target s₁ pc _ hpc =>
    rcases hpc with rfl | rfl <;>
      exact ⟨fun _ heq ↦ (nomatch heq), Or.inl ⟨rfl, fun heq ↦ (nomatch heq)⟩⟩
  | stream pc pc' sessionID session _ hpc hsession hnext =>
    rcases StreamPC.next_cases hnext with ⟨next, rfl⟩ | rfl <;>
      exact ⟨fun _ heq ↦ (nomatch heq), Or.inl ⟨rfl, fun heq ↦ (nomatch heq)⟩⟩
  | clock =>
    refine ⟨fun now heq ↦ ?_, Or.inl ⟨rfl, fun heq ↦ (nomatch heq)⟩⟩
    cases heq
    rfl
  | admitted sessionID entry hentry =>
    exact ⟨fun _ heq ↦ (nomatch heq), Or.inr ⟨sessionID, entry, hentry, rfl, rfl⟩⟩
  | expired | verified | applied | revoked | released | events =>
    exact ⟨fun _ heq ↦ (nomatch heq), Or.inl ⟨rfl, fun heq ↦ (nomatch heq)⟩⟩

namespace Server

/-- The random source gives a token that is not in use. -/
def Unused (s : Server) (label : Label) : Prop :=
  ∀ self input h username token now, label = .advance self input → s.handlers[self]? = some h →
    h.pc = .storeSession username token now → token ∉ s.tokens

/-- The session of a stream is not revoked before the stream takes its first channel. -/
def Attended (s : Server) (label : Label) : Prop :=
  ∀ self input h revision deadline changes sessionID session, label = .advance self input →
    s.handlers[self]? = some h → h.pc = .stream (.sessionChanges revision deadline changes) →
    h.session = some (sessionID, session) → s.Alive sessionID session

/-- The tokens of the sessions are in use, handlers know their sessions, and streams can rely on
what they wait for. -/
structure Watches (s : Server) : Prop where
  issued : ∀ sessionID entry, s.sessions.lookup sessionID = some entry → sessionID ∈ s.tokens
  knowing : ∀ h ∈ s.handlers, h.Knowing s
  watchful : ∀ h ∈ s.handlers, ∀ pc sessionID session, h.pc = .stream pc →
    h.session = some (sessionID, session) → pc.Watchful s sessionID session

/-- An entry that is found after a step with an unused token was there before, or its token was not
in use. -/
theorem entry_or_unused (hunused : s.Unused label) (hstep : s.step label = some s')
    {sessionID : String} {entry : Entry} (hentry : s'.sessions.lookup sessionID = some entry) :
    s.sessions.lookup sessionID = some entry ∨
      (sessionID ∉ s.tokens ∧ sessionID ∈ s'.tokens) := by
  rcases step_cases hstep with ⟨self, input, h, h', rfl, hget, hmoves, -⟩ |
    ⟨arrived, elapsed, -, hshared⟩
  · rcases hmoves.entry hentry with hold | ⟨username, now, hpc, -, htoken⟩
    · exact Or.inl hold
    · exact Or.inr ⟨hunused self input h username sessionID now rfl hget hpc, htoken⟩
  · have hsessions : s'.sessions = s.sessions := congrArg Shared.sessions hshared
    exact Or.inl (hsessions ▸ hentry)

/-- The tokens in use stay so in a step, and time goes on. -/
theorem step_tokens (hstep : s.step label = some s') :
    (∀ token ∈ s.tokens, token ∈ s'.tokens) ∧ s.now ≤ s'.now := by
  rcases step_cases hstep with ⟨self, input, h, h', rfl, hget, hmoves, -⟩ |
    ⟨arrived, elapsed, -, hshared⟩
  · exact ⟨fun token hmem ↦ hmoves.tokens hmem, hmoves.sessions_cases.1.ge⟩
  · have htokens : s'.tokens = s.tokens := congrArg Shared.tokens hshared
    have hnow : s'.now = s.now + elapsed := congrArg Shared.now hshared
    rw [htokens, hnow]
    exact ⟨fun token hmem ↦ hmem, Int.le_add_of_nonneg_right (Int.natCast_nonneg elapsed)⟩

/-- What a handler knows of its session outlives a step of the server. -/
theorem knowing_of_step (hunused : s.Unused label) (hstep : s.step label = some s')
    (hknowing : h.Knowing s) : h.Knowing s' := by
  obtain ⟨htokens, hnow⟩ := step_tokens hstep
  refine ⟨fun now hpc ↦ (hknowing.clock now hpc).trans hnow, ?_, hknowing.has⟩
  intro sessionID session hsession
  obtain ⟨hmem, hsame⟩ := hknowing.found sessionID session hsession
  refine ⟨htokens sessionID hmem, fun entry hentry ↦ ?_⟩
  rcases entry_or_unused hunused hstep hentry with hold | ⟨hnot, -⟩
  · exact hsame entry hold
  · exact absurd hmem hnot

/-- What a step does to the session of a handler that knows it: the session lives on or has expired,
or the channel of the sessions is closed and replaced. -/
theorem alive_of_step (hwatches : s.Watches) (hknowing : h.Knowing s)
    (hstep : s.step label = some s') {sessionID : String} {session : Session}
    (hsession : h.session = some (sessionID, session)) :
    (s'.sessionsChanged = s.sessionsChanged ∧
      (s.Alive sessionID session → s'.Alive sessionID session)) ∨
    s'.sessionsChanged = s.sessionsChanged + 1 := by
  have hnow := (step_tokens hstep).2
  have hsame : s'.sessions = s.sessions → s.Alive sessionID session →
      s'.Alive sessionID session := by
    intro hsessions halive
    exact halive.imp (fun hmem ↦ hsessions ▸ hmem) fun hexpired ↦ hexpired.trans hnow
  rcases step_cases hstep with ⟨self, input, moved, moved', rfl, hget, hmoves, -⟩ |
    ⟨arrived, elapsed, -, hshared⟩
  · obtain ⟨-, ⟨hchanged, hsessions⟩ |
      ⟨expiredID, entry, now, hpc, hentry, hexpired, hchanged, hsessions⟩ | hchanged⟩ :=
      hmoves.sessions_cases
    · exact Or.inl ⟨hchanged, hsame hsessions⟩
    · refine Or.inl ⟨hchanged, fun halive ↦ ?_⟩
      by_cases heq : sessionID = expiredID
      · -- The deleted session is that of the stream, and had expired when the clock was read.
        subst heq
        have hfound := (hknowing.found sessionID session hsession).2 entry hentry
        have hread := (hwatches.knowing moved (List.mem_of_getElem? hget)).clock now hpc
        rw [hfound] at hexpired
        exact Or.inr ((hexpired.trans hread).trans hnow)
      · refine halive.imp (fun hmem ↦ ?_) fun hexpired ↦ hexpired.trans hnow
        have hsessions : s'.sessions = s.sessions.erase expiredID := hsessions
        rw [hsessions]
        exact AList.mem_erase.mpr ⟨heq, hmem⟩
    · exact Or.inr hchanged
  · exact Or.inl ⟨congrArg Shared.sessionsChanged hshared,
      hsame (congrArg Shared.sessions hshared)⟩

/-- A step with an unused token keeps what handlers know and what streams rely on. -/
theorem step_watches (hwatches : s.Watches) (hunused : s.Unused label)
    (hattended : s.Attended label) (hstep : s.step label = some s') : s'.Watches := by
  have hold : ∀ h ∈ s.handlers, h.Knowing s' := fun h hmem ↦
    knowing_of_step hunused hstep (hwatches.knowing h hmem)
  have hkept : ∀ h ∈ s.handlers, ∀ (pc : StreamPC) sessionID session,
      pc.Watchful s sessionID session → h.session = some (sessionID, session) →
      pc.Watchful s' sessionID session := by
    intro h hmem pc sessionID session hwatchful hsession
    exact hwatchful.kept (alive_of_step hwatches (hwatches.knowing h hmem) hstep hsession)
  have hissued : ∀ sessionID entry, s'.sessions.lookup sessionID = some entry →
      sessionID ∈ s'.tokens := by
    intro sessionID entry hentry
    rcases entry_or_unused hunused hstep hentry with hbefore | ⟨-, hmem⟩
    · exact (step_tokens hstep).1 sessionID (hwatches.issued sessionID entry hbefore)
    · exact hmem
  rcases step_cases hstep with ⟨self, input, h, h', rfl, hget, hmoves, hhandlers⟩ |
    ⟨arrived, elapsed, hhandlers, -⟩
  · have hmem := List.mem_of_getElem? hget
    have hhas : h'.pc = .authorized ∨ (∃ pc, h'.pc = .stream pc) →
        ∃ sessionID session, h'.session = some (sessionID, session) := by
      rintro hpc'
      rcases hmoves.session_cases.2 with ⟨hsession, hnot⟩ | ⟨sessionID, entry, -, -, hsession⟩
      · obtain ⟨pc', hpc'⟩ := hpc'.resolve_left hnot
        rw [hsession]
        obtain ⟨-, -, ⟨-, hpc⟩ | ⟨pc, -, -, hpc, -⟩⟩ := hmoves.stream_cases hpc'
        · exact (hwatches.knowing h hmem).has (Or.inl hpc)
        · exact (hwatches.knowing h hmem).has (Or.inr ⟨pc, hpc⟩)
      · exact ⟨sessionID, entry.session, hsession⟩
    have hfound : ∀ sessionID session, h'.session = some (sessionID, session) →
        sessionID ∈ s'.tokens ∧ ∀ entry, s'.sessions.lookup sessionID = some entry →
          entry.session = session := by
      intro sessionID session hsession'
      rcases hmoves.session_cases.2 with ⟨hsession, -⟩ | ⟨foundID, entry, hentry, hshared, hsession⟩
      · exact (hold h hmem).found sessionID session (hsession ▸ hsession')
      · have heq := hsession.symm.trans hsession'
        obtain ⟨rfl, rfl⟩ := Prod.mk.inj (Option.some.inj heq)
        refine ⟨(step_tokens hstep).1 foundID (hwatches.issued foundID entry hentry), ?_⟩
        intro other hother
        have hsessions : s'.sessions = s.sessions := congrArg Shared.sessions hshared
        rw [hsessions, hentry] at hother
        cases hother
        rfl
    have hclock : ∀ now, h'.pc = .requireSession now → now ≤ s'.now := by
      intro now hpc'
      rw [hmoves.session_cases.1 now hpc']
      exact (step_tokens hstep).2
    refine ⟨hissued, fun other hother ↦ ?_, fun other hother ↦ ?_⟩
    · rw [hhandlers] at hother
      rcases List.mem_or_eq_of_mem_set hother with hother | rfl
      · exact hold other hother
      · exact ⟨hclock, hfound, hhas⟩
    · rw [hhandlers] at hother
      intro pc' sessionID session hpc' hsession'
      rcases List.mem_or_eq_of_mem_set hother with hother | rfl
      · exact hkept other hother pc' sessionID session
          (hwatches.watchful other hother pc' sessionID session hpc' hsession') hsession'
      · obtain ⟨-, hsession, ⟨rfl, -⟩ | ⟨pc, streamID, found, hpc, hstream, hnext⟩⟩ :=
          hmoves.stream_cases hpc'
        · trivial
        · rw [hsession] at hsession'
          have heq := hstream.symm.trans hsession'
          obtain ⟨rfl, rfl⟩ := Prod.mk.inj (Option.some.inj heq)
          refine hkept h hmem pc' streamID found ?_ hstream
          refine (hwatches.watchful h hmem pc streamID found hpc hstream).next ?_ hnext
          rintro revision deadline changes rfl
          exact hattended self input h revision deadline changes streamID found rfl hget hpc
            hstream
  · refine ⟨hissued, fun other hother ↦ ?_, fun other hother ↦ ?_⟩
    · rw [hhandlers] at hother
      rcases List.mem_append.mp hother with hother | hnew
      · exact hold other hother
      · obtain ⟨r, -, rfl⟩ := List.mem_map.mp hnew
        exact ⟨fun _ heq ↦ (nomatch heq), fun _ _ heq ↦ (nomatch heq),
          fun heq ↦ (nomatch heq)⟩
    · rw [hhandlers] at hother
      intro pc' sessionID session hpc' hsession'
      rcases List.mem_append.mp hother with hother | hnew
      · exact hkept other hother pc' sessionID session
          (hwatches.watchful other hother pc' sessionID session hpc' hsession') hsession'
      · obtain ⟨r, -, rfl⟩ := List.mem_map.mp hnew
        cases hpc'

/-- Assumes: the random source gives tokens that are not in use. In every run from a new server in
which no session of a stream is revoked before the stream takes its first channel: the session of a
stream that waits on the current channel of the sessions is there, or has expired. -/
theorem stream_attended (configStore : Store)
    (sessionTTL : {duration : Jobs.Duration // 0 < duration}) (now : Jobs.Time) (tables : Tables)
    (jobs : Jobs.System) (configSnapshot : Snapshot)
    (hrun : Steps step (fun s label ↦ s.Unused label ∧ s.Attended label)
      (new configStore sessionTTL now tables jobs configSnapshot) s)
    {stream : Stream} (hmem : h ∈ s.handlers) (hselect : h.pc = .stream (.select stream))
    (hcurrent : stream.sessionChanges = s.sessionsChanged) :
    ∃ sessionID session, h.session = some (sessionID, session) ∧
      (sessionID ∈ s.sessions ∨ session.expiresAt ≤ s.now) := by
  have hwatches : s.Watches := by
    refine hrun.invariant (P := Watches)
      (fun s s' label hwatches hallowed ↦ step_watches hwatches hallowed.1 hallowed.2) ⟨?_, ?_, ?_⟩
    · intro sessionID entry hentry
      cases hentry
    · intro h hmem
      cases hmem
    · intro h hmem
      cases hmem
  obtain ⟨sessionID, session, hsession⟩ := (hwatches.knowing h hmem).has (Or.inr ⟨_, hselect⟩)
  have hattends : Attends stream.sessionChanges s.sessionsChanged (s.Alive sessionID session) :=
    hwatches.watchful h hmem _ sessionID session hselect hsession
  exact ⟨sessionID, session, hsession, hattends.2 hcurrent⟩

end Server

end

/-! ### Runs -/

/-- The labels by which a handler begins a stream with the session `t0`, up to its payload. -/
def beginStream (self : ℕ) : List Label :=
  .request .events (some "t0") :: [{}, {}, {}, {}, {}, {}, {}, {}, {}].map (.advance self)

/-- The labels by which a handler of a stream takes its channels. -/
def takeChannels (self : ℕ) : List Label :=
  [.advance self {}, .advance self {}]

/-- The labels by which a handler saves the Web section. -/
def saveWeb (self : ℕ) : List Label :=
  .request (.updateWebConfig (some ⟨":8080", false, [], 100⟩)) (some "t0") ::
    [{}, {}, {}, {}, {}, { answers := fineAnswers }, {}, {}, {}].map (.advance self)

/-- The labels by which a handler logs out. -/
def logOut (self : ℕ) : List Label :=
  .request .logout (some "t0") :: [{}, {}, {}].map (.advance self)

/-- A guard that settled steps pass. -/
def settles (s : Server) : Label → Bool
  | .advance self _ =>
    match s.handlers[self]? with
    | some ⟨_, _, _, _, _, _, .stream (.configurationChanges revision _)⟩ =>
      revision = s.configSnapshot.revision
    | _ => true
  | _ => true

/-- Steps that pass the guard are settled. -/
theorem settled_of_settles (s : Server) (label : Label) (hpass : settles s label = true) :
    s.Settled label := by
  rintro self input ⟨_, _, _, _, _, _, _⟩ revision deadline rfl hget rfl
  simp only [settles, hget, decide_eq_true_eq] at hpass
  exact hpass

/-- A guard that steps pass with unused tokens and streams whose sessions are there. -/
def attends (s : Server) : Label → Bool
  | .advance self _ =>
    match s.handlers[self]? with
    | some ⟨_, _, _, _, _, _, .storeSession _ token _⟩ => token ∉ s.tokens
    | some ⟨_, _, some (sessionID, _), _, _, _, .stream (.sessionChanges _ _ _)⟩ =>
      sessionID ∈ s.sessions.keys
    | _ => true
  | _ => true

/-- Steps that pass the guard use new tokens, and their streams have their sessions. -/
theorem attended_of_attends (s : Server) (label : Label) (hpass : attends s label = true) :
    s.Unused label ∧ s.Attended label := by
  constructor
  · rintro self input ⟨_, _, _, _, _, _, _⟩ username token now rfl hget rfl
    simp only [attends, hget, decide_eq_true_eq] at hpass
    exact hpass
  · rintro self input ⟨_, _, _, _, _, _, _⟩ revision deadline changes sessionID session rfl hget
      rfl rfl
    simp only [attends, hget, decide_eq_true_eq] at hpass
    exact Or.inl (AList.mem_keys.mpr hpass)

/-- The loop variables of a handler that waits in the `select` of its stream. -/
def Handler.selects? (h : Handler) : Option Stream :=
  match h.pc with
  | .stream (.select stream) => some stream
  | _ => none

/-- A handler has loop variables only where it waits in its `select`. -/
theorem Handler.pc_of_selects? {h : Handler} {stream : Stream}
    (hselects : h.selects? = some stream) :
    h.pc = .stream (.select stream) := by
  unfold Handler.selects? at hselects
  split at hselects
  · cases hselects
    assumption
  · cases hselects

/-- A stream that has been told of a change of the Web section waits with the new revision. -/
theorem payload_shown_saved : ∃ s, Steps sampleStep Server.Settled sampleServer s ∧
    ∃ h ∈ s.handlers, ∃ stream : Stream, h.pc = .stream (.select stream) ∧
      stream.configurationChanges = s.configChanged ∧ stream.revision = 3 ∧
      stream.revision = s.configSnapshot.revision := by
  have heval : ((runLabels sampleStep settles sampleServer
      (setupSteps ++ beginStream 1 ++ takeChannels 1 ++ saveWeb 2 ++
        [.advance 1 { wake := .configurationChanges }, .advance 1 {}, .advance 1 {},
          .advance 1 {}])).any fun s ↦ s.handlers.any fun h ↦ h.selects?.any fun stream ↦
            stream.configurationChanges = s.configChanged ∧ stream.revision = 3) = true := by
    decide +kernel
  obtain ⟨s, hrun, htest⟩ := Steps.exists_of_runLabels settled_of_settles heval
  obtain ⟨h, hmem, hselects⟩ := List.any_eq_true.mp htest
  obtain ⟨stream, hstream, htest⟩ := (Option.any_eq_true _ _).mp hselects
  obtain ⟨hcurrent, hrevision⟩ := of_decide_eq_true htest
  have hselect := Handler.pc_of_selects? hstream
  exact ⟨s, hrun, h, hmem, stream, hselect, hcurrent, hrevision,
    @Server.payload_shown GCM.transparent Argon2.transparent Config.hostOnly Net.portOnly s h
      _ _ _ _ _ _ hrun stream hmem hselect hcurrent⟩

/-- A change of the account between the payload that begins a stream and the taking of its channels:
the stream is blocked on the current channel with an outdated revision. -/
theorem stale_payload : ∃ s, Steps sampleStep (fun _ _ ↦ True) sampleServer s ∧
    ∃ h ∈ s.handlers, ∃ stream : Stream, h.pc = .stream (.select stream) ∧
      @Stream.Blocked Config.hostOnly s h.subscriptions stream ∧
      stream.configurationChanges = s.configChanged ∧
      stream.revision ≠ s.configSnapshot.revision := by
  have heval : ((runLabels sampleStep (fun _ _ ↦ true) sampleServer
      (setupSteps ++ beginStream 1 ++ accountSteps 2 "abcde" ++ takeChannels 1)).any fun s ↦
        s.handlers.any fun h ↦ h.selects?.any fun stream ↦
          @Stream.Blocked Config.hostOnly s h.subscriptions stream ∧
            stream.configurationChanges = s.configChanged ∧
              stream.revision ≠ s.configSnapshot.revision) = true := by
    decide +kernel
  obtain ⟨s, hrun, htest⟩ := Steps.exists_of_runLabels (fun _ _ _ ↦ trivial) heval
  obtain ⟨h, hmem, hselects⟩ := List.any_eq_true.mp htest
  obtain ⟨stream, hstream, htest⟩ := (Option.any_eq_true _ _).mp hselects
  obtain ⟨hblocked, hcurrent, hrevision⟩ := of_decide_eq_true htest
  exact ⟨s, hrun, h, hmem, stream, Handler.pc_of_selects? hstream, hblocked, hcurrent, hrevision⟩

/-- A stream goes on through a login of another browser: it has taken the new channel, and its
session is there. -/
theorem stream_attended_login : ∃ s,
    Steps sampleStep (fun s label ↦ s.Unused label ∧ s.Attended label) sampleServer s ∧
      ∃ h ∈ s.handlers, ∃ stream : Stream,
    h.pc = .stream (.select stream) ∧ stream.sessionChanges = s.sessionsChanged ∧
      s.sessions.keys = ["t1", "t0"] ∧ ∃ sessionID session,
        h.session = some (sessionID, session) ∧
          (sessionID ∈ s.sessions ∨ session.expiresAt ≤ s.now) := by
  have heval : ((runLabels sampleStep attends sampleServer
      (setupSteps ++ beginStream 1 ++ takeChannels 1 ++ loginSteps 2 "12345" "t1" ++
        [.advance 2 {}, .advance 1 { wake := .sessionChanges }, .advance 1 {}, .advance 1 {}])).any
        fun s ↦ s.handlers.any fun h ↦ h.selects?.any fun stream ↦
          stream.sessionChanges = s.sessionsChanged ∧ s.sessions.keys = ["t1", "t0"]) = true := by
    decide +kernel
  obtain ⟨s, hrun, htest⟩ := Steps.exists_of_runLabels attended_of_attends heval
  obtain ⟨h, hmem, hselects⟩ := List.any_eq_true.mp htest
  obtain ⟨stream, hstream, htest⟩ := (Option.any_eq_true _ _).mp hselects
  obtain ⟨hcurrent, hkeys⟩ := of_decide_eq_true htest
  have hselect := Handler.pc_of_selects? hstream
  exact ⟨s, hrun, h, hmem, stream, hselect, hcurrent, hkeys,
    @Server.stream_attended GCM.transparent Argon2.transparent Config.hostOnly Net.portOnly s h
      _ _ _ _ _ _ hrun stream hmem hselect hcurrent⟩

/-- A logout between the payload that begins a stream and the taking of its channels: the stream
waits on the current channel, although its session is not there and has not expired. -/
theorem revoked_stream : ∃ s, Steps sampleStep (fun _ _ ↦ True) sampleServer s ∧
    ∃ h ∈ s.handlers, ∃ (stream : Stream) (sessionID : String) (session : Session),
      h.pc = .stream (.select stream) ∧ stream.sessionChanges = s.sessionsChanged ∧
      h.session = some (sessionID, session) ∧
      ¬ (sessionID ∈ s.sessions ∨ session.expiresAt ≤ s.now) := by
  have heval : ((runLabels sampleStep (fun _ _ ↦ true) sampleServer
      (setupSteps ++ beginStream 1 ++ logOut 2 ++ takeChannels 1)).any fun s ↦
        s.handlers.any fun h ↦ h.selects?.any fun stream ↦
          stream.sessionChanges = s.sessionsChanged ∧ h.session = some ("t0", ⟨"admin", 100⟩) ∧
            s.sessions.keys = [] ∧ s.now = 0) = true := by
    decide +kernel
  obtain ⟨s, hrun, htest⟩ := Steps.exists_of_runLabels (fun _ _ _ ↦ trivial) heval
  obtain ⟨h, hmem, hselects⟩ := List.any_eq_true.mp htest
  obtain ⟨stream, hstream, htest⟩ := (Option.any_eq_true _ _).mp hselects
  obtain ⟨hcurrent, hsession, hkeys, hnow⟩ := of_decide_eq_true htest
  refine ⟨s, hrun, h, hmem, stream, "t0", ⟨"admin", 100⟩, Handler.pc_of_selects? hstream, hcurrent,
    hsession, ?_⟩
  rw [AList.mem_keys, hkeys, hnow]
  decide

end CodexQueueBot.Web
