import CodexQueueBot.Storage.Revisions
import CodexQueueBot.Web.Moves

/-!
# Accounts and their sessions

`login` verifies the credentials against the stored account, and takes `s.mu` later to store the
session; `updateAccount` replaces the account and then revokes all sessions. As long as no login
stores a session after the account that it has verified was replaced and the sessions were revoked,
no session of a replaced account is left when an `updateAccount` has succeeded: `account_revoked`. A
login that is overtaken stores a session of the old account, which then stays: `login_overtakes`.

The accounts are numbered. A step that keeps the number keeps the row of the administrator, and an
`UpdateAccount` that succeeds makes a new number.
-/

set_option autoImplicit false
set_option relaxedAutoImplicit false

namespace CodexQueueBot.Web

open Go Storage Lib

/-! ### The number of the account -/

section

variable [GCM String] [Argon2] [NetURL] [Net] {s s' : Server} {label : Label}

/-- What an operation of the store does to the account. -/
theorem Server.perform_account {op : Write} {answers : List (Answer SQLError)}
    {result : Except StoreError (Snapshot × Option Target)}
    (h : s.perform op answers = some (result, s')) :
    (s'.account = s.account ∧ s'.tables.administrator = s.tables.administrator ∧
      ∀ value, result = .ok value → setsAccount op = false) ∨
    s'.account = s.account + 1 := by
  obtain ⟨⟨result, tables⟩, hrun, hreturn⟩ := Option.bind_eq_some_iff.mp h
  cases hreturn
  have hsame : tables = s.tables ∨ ∃ target, Commits s.configStore s.tables op tables target := by
    cases result with
    | error error => exact (write_outcome hrun).imp id And.left
    | ok value => exact Or.inr ⟨_, (write_outcome hrun).1⟩
  dsimp only
  split_ifs with hsets
  · exact Or.inr rfl
  · refine Or.inl ⟨rfl, ?_, ?_⟩
    · rcases hsame with rfl | ⟨target, hcommits⟩
      · rfl
      · have hrevision := hcommits.configRevision
        have hnot : setsAccount op = false := by
          by_contra hop
          exact hsets ⟨by simpa using hop, by omega⟩
        cases hcommits with
        | createTarget _ _ _ _ _ _ _ hinsert =>
          obtain ⟨-, -, rfl⟩ := Tables.insertTarget_eq_ok.mp hinsert
          rfl
        | updateTarget _ _ _ _ _ _ _ _ _ _ _ _ hupdate =>
          obtain ⟨-, rfl⟩ := Tables.updateTarget_eq_ok.mp hupdate
          rfl
        | setupAdmin | updateAccount => cases hnot
        | _ => rfl
    · rintro value rfl
      by_contra hop
      have hrevision := (write_outcome hrun).1.configRevision
      exact hsets ⟨by simpa using hop, by omega⟩

/-- A step that keeps the number of the account keeps the row of the administrator. -/
theorem Server.step_administrator (hstep : s.step label = some s')
    (haccount : s'.account = s.account) : s'.tables.administrator = s.tables.administrator := by
  have hwrote : ∀ (op : Write) (answers : List (Answer SQLError))
      (result : Except StoreError (Snapshot × Option Target)) (s₁ : Server),
      s.perform op answers = some (result, s₁) → s'.shared = s₁.shared →
      s'.tables.administrator = s.tables.administrator := by
    intro op answers result s₁ hperform hshared
    have htables : s'.tables = s₁.tables := congrArg Shared.tables hshared
    have hnumber : s'.account = s₁.account := congrArg Shared.account hshared
    rw [htables]
    rcases Server.perform_account hperform with ⟨-, hsame, -⟩ | hnew
    · exact hsame
    · omega
  rcases Server.step_cases hstep with ⟨self, input, h, h', -, -, hmoves, -⟩ |
    ⟨arrived, elapsed, -, hshared⟩
  · generalize hshared : s'.shared = shared at hmoves
    cases hmoves with
    | wrote op result s₁ _ hperform => exact hwrote op _ result s₁ hperform hshared
    | saved op _ _ s₁ _ hperform => exact hwrote op _ _ s₁ hperform hshared
    | _ => exact congrArg (fun shared : Shared ↦ shared.tables.administrator) hshared
  · exact congrArg (fun shared : Shared ↦ shared.tables.administrator) hshared

end

/-! ### What steps do to the sessions -/

/-- What a lookup finds after the section of `establishSession`. -/
theorem Server.lookup_storeSession (s : Server) (token sessionID : String) (entry : Entry)
    (now : Jobs.Time) : (s.storeSession token entry now).sessions.lookup sessionID =
      (if sessionID = token then some entry else s.sessions.lookup sessionID).filter
        fun entry ↦ now < entry.session.expiresAt := by
  rw [← Table.lookup_insert_apply]
  exact Table.lookup_filter _ _ _

/-- An entry that is found after the section of `establishSession` is the new one, or was there
before. -/
theorem Server.entry_of_storeSession {s : Server} {token sessionID : String} {entry found : Entry}
    {now : Jobs.Time}
    (h : (s.storeSession token entry now).sessions.lookup sessionID = some found) :
    (sessionID = token ∧ found = entry) ∨
      (sessionID ≠ token ∧ s.sessions.lookup sessionID = some found) := by
  rw [Server.lookup_storeSession, Option.filter_eq_some_iff] at h
  obtain ⟨h, -⟩ := h
  split_ifs at h with heq
  · cases h
    exact Or.inl ⟨heq, rfl⟩
  · exact Or.inr ⟨heq, h⟩

/-- An entry that is found after a deletion was there before. -/
theorem entry_of_erase {sessions : Table String Entry} {removed sessionID : String} {found : Entry}
    (h : (sessions.erase removed).lookup sessionID = some found) :
    sessions.lookup sessionID = some found := by
  rw [Table.lookup_erase_apply] at h
  split_ifs at h
  exact h

section

variable [GCM String] [Argon2] [NetURL] [Net] {s : Server} {h h' : Handler} {input : Input}
  {shared : Shared}

/-- An entry that is found after a step of a handler was there before, or the handler has just
stored it, with the account that it has verified, under a token that is in use from then on. -/
theorem Handler.Moves.entry (hmoves : h.Moves s input shared h') {sessionID : String}
    {entry : Entry} (hentry : shared.sessions.lookup sessionID = some entry) :
    s.sessions.lookup sessionID = some entry ∨
      ∃ username now, h.pc = .storeSession username sessionID now ∧
        entry = ⟨s.newSession username now, h.verified⟩ ∧ sessionID ∈ shared.tokens := by
  cases hmoves with
  | expired => exact Or.inl (entry_of_erase hentry)
  | removed => exact Or.inl (entry_of_erase hentry)
  | stored username token now pc _ hpc =>
    rcases Server.entry_of_storeSession hentry with ⟨rfl, hnew⟩ | ⟨-, hold⟩
    · exact Or.inr ⟨username, now, hpc, hnew, List.mem_cons_self⟩
    · exact Or.inl hold
  | wrote op result s₁ pc hperform =>
    rw [Server.perform_frame hperform] at hentry
    exact Or.inl hentry
  | saved op _ _ s₁ _ hperform =>
    rw [Server.perform_frame hperform] at hentry
    exact Or.inl hentry
  | revoked => cases hentry
  | _ => exact Or.inl hentry

/-! ### Revocation -/

omit [GCM String] [Argon2] [NetURL] [Net] in
/-- No program point that many others lead to follows an operation of the store that has
succeeded. -/
theorem PC.not_saved_of_plain {pc : PC} (hplain : pc.plain = true) : pc.saved = false := by
  unfold PC.plain at hplain
  split at hplain
  · cases hplain
  · cases hplain
  · cases hplain
  · simpa using hplain

omit [GCM String] [Argon2] [NetURL] [Net] in
/-- What ends an `updateAccount` follows an operation of the store that has succeeded. -/
theorem PC.saved_of_reauthenticates {pc : PC} (h : pc.reauthenticates = true) :
    pc.saved = true := by
  unfold PC.saved
  split
  · rfl
  · rfl
  · rfl
  · exact h

/-- A handler whose operation of the store has succeeded knows the account before it. -/
def Handler.Knows (h : Handler) : Prop :=
  h.pc.saved = true → ∃ account, h.before = some account

/-- A step keeps what the handler knows. -/
theorem Handler.Moves.knows (hmoves : h.Moves s input shared h') (hknows : h.Knows) : h'.Knows := by
  have hplain : ∀ pc, PC.plain pc = true → ({ h with pc } : Handler).Knows := by
    intro pc hplain hsaved
    rw [PC.not_saved_of_plain hplain] at hsaved
    cases hsaved
  cases hmoves with
  | plain pc hpc => exact hplain pc hpc
  | removed _ pc hpc => exact hplain pc hpc
  | stored _ _ _ pc hpc => exact hplain pc hpc
  | wrote _ _ _ pc _ hpc => exact hplain pc hpc
  | saved => exact fun _ ↦ ⟨_, rfl⟩
  | applied snapshot hpc => exact fun _ ↦ hknows (by rw [hpc]; rfl)
  | configured snapshot pc hpc => exact fun _ ↦ hknows (by rw [hpc]; rfl)
  | revoked snapshot hpc => exact fun _ ↦ hknows (by rw [hpc]; rfl)
  | released revision hpc => exact fun _ ↦ hknows (by rw [hpc]; rfl)
  | stream pc pc' sessionID session _ hpc hsession hnext =>
    intro hsaved
    rcases StreamPC.next_cases hnext with ⟨next, rfl⟩ | rfl <;> cases hsaved
  | clock | expired | admitted | verified | events =>
    intro hsaved
    cases hsaved

/-- A handler of `updateAccount` has replaced an account and revoked the sessions after that. -/
def Handler.Revoked (h : Handler) (account : ℕ) : Prop :=
  h.before = some account ∧ h.pc.reauthenticates = true

instance (h : Handler) (account : ℕ) : Decidable (h.Revoked account) :=
  inferInstanceAs (Decidable (_ ∧ _))

/-- A handler that has revoked the sessions had done so before, or does it with this step. -/
theorem Handler.Moves.revoked_cases (hmoves : h.Moves s input shared h') {account : ℕ}
    (hrevoked : h'.Revoked account) : h.Revoked account ∨ shared.sessions = ∅ := by
  have hplain : ∀ pc, PC.plain pc = true → ¬ ({ h with pc } : Handler).Revoked account := by
    intro pc hplain hrevoked
    have hsaved := PC.saved_of_reauthenticates hrevoked.2
    rw [PC.not_saved_of_plain hplain] at hsaved
    cases hsaved
  cases hmoves with
  | plain pc hpc => exact absurd hrevoked (hplain pc hpc)
  | removed _ pc hpc => exact absurd hrevoked (hplain pc hpc)
  | stored _ _ _ pc hpc => exact absurd hrevoked (hplain pc hpc)
  | wrote _ _ _ pc _ hpc => exact absurd hrevoked (hplain pc hpc)
  | configured snapshot pc hpc hnext =>
    rcases hnext with hnext | rfl
    · exact absurd hrevoked (hplain pc hnext)
    · cases hrevoked.2
  | revoked => exact Or.inr rfl
  | released revision hpc => exact Or.inl ⟨hrevoked.1, by rw [hpc]; rfl⟩
  | saved op snapshot target s₁ pc _ hpc => rcases hpc with rfl | rfl <;> cases hrevoked.2
  | stream pc pc' sessionID session _ hpc hsession hnext =>
    rcases StreamPC.next_cases hnext with ⟨next, rfl⟩ | rfl <;> cases hrevoked.2
  | clock | expired | admitted | verified | applied | events => cases hrevoked.2

namespace Server

variable {s' : Server} {label : Label} {self : ℕ}

/-- No login stores its session after an `updateAccount` that has replaced the verified account has
revoked the sessions. -/
def Timely (s : Server) (label : Label) : Prop :=
  ∀ self input h username token now account, label = .advance self input →
    s.handlers[self]? = some h → h.pc = .storeSession username token now →
    h.verified = some account → ∀ other ∈ s.handlers, ¬ other.Revoked account

/-- Handlers know the accounts that they have replaced, and no session of such an account is left
when its replacement has revoked the sessions. -/
structure Clean (s : Server) : Prop where
  knows : ∀ h ∈ s.handlers, h.Knows
  left : ∀ h ∈ s.handlers, ∀ account, h.Revoked account → ∀ sessionID entry,
    s.sessions.lookup sessionID = some entry → entry.account ≠ some account

/-- Handlers know the accounts that they have replaced after a step as well. -/
theorem step_knows (hknows : ∀ h ∈ s.handlers, h.Knows) (hstep : s.step label = some s') :
    ∀ h ∈ s'.handlers, h.Knows := by
  intro other hother
  rcases step_cases hstep with ⟨self, input, h, h', rfl, hget, hmoves, hhandlers⟩ |
    ⟨arrived, elapsed, hhandlers, -⟩
  · rw [hhandlers] at hother
    rcases List.mem_or_eq_of_mem_set hother with hold | rfl
    · exact hknows other hold
    · exact hmoves.knows (hknows h (List.mem_of_getElem? hget))
  · rw [hhandlers] at hother
    rcases List.mem_append.mp hother with hold | hnew
    · exact hknows other hold
    · obtain ⟨r, -, rfl⟩ := List.mem_map.mp hnew
      intro hsaved
      cases hsaved

/-- A timely step leaves no session of a replaced account. -/
theorem step_clean (hclean : s.Clean) (htimely : s.Timely label) (hstep : s.step label = some s') :
    s'.Clean := by
  refine ⟨step_knows hclean.knows hstep, ?_⟩
  intro other hother account hrevoked sessionID entry hentry
  rcases step_cases hstep with ⟨self, input, h, h', rfl, hget, hmoves, hhandlers⟩ |
    ⟨arrived, elapsed, hhandlers, hshared⟩
  · have hmem := List.mem_of_getElem? hget
    -- The other handler has revoked the sessions before this step, or the sessions are empty now.
    have hbefore : (∃ before ∈ s.handlers, before.Revoked account) ∨ s'.sessions = ∅ := by
      rw [hhandlers] at hother
      rcases List.mem_or_eq_of_mem_set hother with hold | rfl
      · exact Or.inl ⟨other, hold, hrevoked⟩
      · exact (hmoves.revoked_cases hrevoked).imp (fun hold ↦ ⟨h, hmem, hold⟩) id
    rcases hbefore with ⟨before, hold, hrevoked⟩ | hempty
    · rcases hmoves.entry hentry with hentry | ⟨username, now, hpc, rfl, -⟩
      · exact hclean.left before hold account hrevoked sessionID entry hentry
      · intro hverified
        exact htimely self input h username sessionID now account rfl hget hpc hverified before
          hold hrevoked
    · rw [hempty] at hentry
      cases hentry
  · have hsessions : s'.sessions = s.sessions := congrArg Shared.sessions hshared
    rw [hsessions] at hentry
    rw [hhandlers] at hother
    rcases List.mem_append.mp hother with hold | hnew
    · exact hclean.left other hold account hrevoked sessionID entry hentry
    · obtain ⟨r, -, rfl⟩ := List.mem_map.mp hnew
      cases hrevoked.1

/-- In every run from a new server in which no login stores its session after the replacement of the
verified account has revoked the sessions: after an `updateAccount` has succeeded, no entry of the
sessions was created by a login that has verified the account it replaced. -/
theorem account_revoked (configStore : Store)
    (sessionTTL : {duration : Jobs.Duration // 0 < duration}) (now : Jobs.Time) (tables : Tables)
    (jobs : Jobs.System) (configSnapshot : Snapshot)
    (hrun : Steps step Timely (new configStore sessionTTL now tables jobs configSnapshot) s)
    {revision : Int} (hmem : h ∈ s.handlers) (hdone : h.pc = .done (.reauthenticate revision)) :
    ∃ account, h.before = some account ∧ ∀ sessionID entry,
      s.sessions.lookup sessionID = some entry → entry.account ≠ some account := by
  have hclean : s.Clean := by
    refine hrun.invariant (P := Clean) (fun s s' label ↦ step_clean) ⟨?_, ?_⟩
    · intro h hmem
      cases hmem
    · intro h hmem
      cases hmem
  have hends : h.pc.reauthenticates = true := by rw [hdone]; rfl
  obtain ⟨account, hbefore⟩ := hclean.knows h hmem (PC.saved_of_reauthenticates hends)
  exact ⟨account, hbefore, hclean.left h hmem account ⟨hbefore, hends⟩⟩

/-- A login that stores its session too late leaves a session of the replaced account. -/
theorem exists_session_of_late (hget : s.handlers[self]? = some h) {username token : String}
    {now : Jobs.Time} {account : ℕ} (hpc : h.pc = .storeSession username token now)
    (hverified : h.verified = some account)
    (hstep : s.step (.advance self input) = some s') :
    ∃ entry, s'.sessions.lookup token = some entry ∧ entry.account = some account := by
  have hmove : h.step s self input = some
      (s.storeSession token ⟨s.newSession username now, h.verified⟩ now,
        { h with pc := h.finish (.session (s.newSession username now)) }) := by
    unfold Handler.step
    rw [hpc]
    rfl
  simp only [step, hget, Option.bind_eq_bind, Option.bind_some, hmove, Option.pure_def,
    Option.some.injEq] at hstep
  refine ⟨⟨s.newSession username now, h.verified⟩, ?_, hverified⟩
  rw [← hstep, lookup_storeSession, if_pos rfl]
  refine Option.filter_eq_some_iff.mpr ⟨rfl, ?_⟩
  exact decide_eq_true (Int.lt_add_of_pos_right now s.positive)

end Server

end

/-! ### Runs -/

/-- Answers of a database on which all calls go through. -/
def fineAnswers : List (Answer SQLError) :=
  List.replicate 30 (.fine 0)

/-- A server on a fresh database, before its first request. -/
def sampleServer : Server :=
  .new sampleStore ⟨100, by decide⟩ 0 freshTables
    (.init ⟨true, none, 2700000000000, 3300000000000, 2, "开蹬"⟩ [])
    (freshTables.snapshotOf Config.defaultDatabaseConfig)

/-- The steps of the sample server. -/
def sampleStep : Server → Label → Option Server :=
  @Server.step GCM.transparent Argon2.transparent Config.hostOnly Net.portOnly

/-- The labels by which the administrator is set up, with the session `t0`. -/
def setupSteps : List Label :=
  .request (.setup (some ⟨"admin", "12345"⟩)) none ::
    [{}, {}, {}, { answers := fineAnswers }, {}, { token := some "t0" }, {}, {}].map (.advance 0)

/-- The labels by which a handler logs in up to the storing of its session. -/
def loginSteps (self : ℕ) (password token : String) : List Label :=
  .request (.login (some ⟨"admin", password⟩)) none ::
    [{}, { answers := fineAnswers }, {}, { token := some token }].map (.advance self)

/-- The labels by which a handler gives the account a new password. -/
def accountSteps (self : ℕ) (newPassword : String) : List Label :=
  .request (.updateAccount (some ⟨"", "", newPassword, ""⟩)) (some "t0") ::
    [{}, {}, {}, {}, {}, { answers := fineAnswers }, {}, {}, {}].map (.advance self)

/-- A handler has finished an `updateAccount`. -/
def Handler.reauthenticated (h : Handler) : Bool :=
  h.pc matches .done (.reauthenticate _)

/-- A guard that timely steps pass. -/
def punctual (s : Server) : Label → Bool
  | .advance self _ =>
    match s.handlers[self]? with
    | some ⟨_, _, _, some account, _, _, .storeSession _ _ _⟩ =>
      s.handlers.all fun other ↦ ¬ other.Revoked account
    | _ => true
  | _ => true

/-- Steps that pass the guard are timely. -/
theorem timely_of_punctual (s : Server) (label : Label) (hpass : punctual s label = true) :
    s.Timely label := by
  rintro self input ⟨_, _, _, _, _, _, _⟩ username token now account rfl hget rfl rfl other hother
  simp only [punctual, hget, List.all_eq_true, decide_eq_true_eq] at hpass
  exact hpass other hother

/-- After a change of the password and a login with the new one, there is a session, and none of
the replaced account. -/
theorem account_revoked_changed : ∃ s, Steps sampleStep Server.Timely sampleServer s ∧
    s.sessions.keys = ["t1"] ∧ ∃ h ∈ s.handlers, ∃ account, h.before = some account ∧
      ∀ sessionID entry, s.sessions.lookup sessionID = some entry →
        entry.account ≠ some account := by
  have heval : ((runLabels sampleStep punctual sampleServer
      (setupSteps ++ accountSteps 1 "abcde" ++ loginSteps 2 "abcde" "t1" ++ [.advance 2 {}])).any
        fun s ↦ decide (s.sessions.keys = ["t1"]) && s.handlers.any Handler.reauthenticated) =
      true := by
    decide +kernel
  obtain ⟨s, hrun, htest⟩ := Steps.exists_of_runLabels timely_of_punctual heval
  obtain ⟨hkeys, hends⟩ := Bool.and_eq_true_iff.mp htest
  obtain ⟨h, hmem, hdone⟩ := List.any_eq_true.mp hends
  refine ⟨s, hrun, of_decide_eq_true hkeys, h, hmem, ?_⟩
  unfold Handler.reauthenticated at hdone
  split at hdone
  · next revision hpc =>
    exact @Server.account_revoked GCM.transparent Argon2.transparent Config.hostOnly Net.portOnly
      s h _ _ _ _ _ _ hrun revision hmem hpc
  · cases hdone

/-- A login that has verified the old password and stores its session when the change of the
password has succeeded: the session stays. -/
theorem login_overtakes : ∃ s, Steps sampleStep (fun _ _ ↦ True) sampleServer s ∧
    ∃ h ∈ s.handlers, ∃ revision account sessionID entry,
      h.pc = .done (.reauthenticate revision) ∧ h.before = some account ∧
      s.sessions.lookup sessionID = some entry ∧ entry.account = some account := by
  have heval : ((runLabels sampleStep (fun _ _ ↦ true) sampleServer
      (setupSteps ++ loginSteps 1 "12345" "t1" ++ accountSteps 2 "abcde" ++ [.advance 1 {}])).any
        fun s ↦ (s.sessions.lookup "t1").any (fun entry ↦ entry.account = some 1) &&
          s.handlers.any fun h ↦ h.reauthenticated && decide (h.before = some 1)) = true := by
    decide +kernel
  obtain ⟨s, hrun, htest⟩ := Steps.exists_of_runLabels (fun _ _ _ ↦ trivial) heval
  obtain ⟨hentry, hends⟩ := Bool.and_eq_true_iff.mp htest
  obtain ⟨entry, hlookup, haccount⟩ := (Option.any_eq_true _ _).mp hentry
  obtain ⟨h, hmem, hends⟩ := List.any_eq_true.mp hends
  obtain ⟨hdone, hbefore⟩ := Bool.and_eq_true_iff.mp hends
  unfold Handler.reauthenticated at hdone
  split at hdone
  · next revision hpc =>
    exact ⟨s, hrun, h, hmem, revision, 1, "t1", entry, hpc, of_decide_eq_true hbefore, hlookup,
      of_decide_eq_true haccount⟩
  · cases hdone

end CodexQueueBot.Web
