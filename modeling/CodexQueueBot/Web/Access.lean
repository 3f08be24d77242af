import CodexQueueBot.Web.Streams

/-!
# Who gets past `requireSession`

Every session was made by a login, whose credentials fit the account that was stored when they were
verified, or by the setup that created the first account. A handler that has answered with a session
is the witness of it, so that the history of the accounts and the handlers say where each session
comes from (`admitted_by_administrator`). A request that needs a session gets no further without
one; no session exists before the first account; and the setup succeeds once at most.
-/

set_option autoImplicit false
set_option relaxedAutoImplicit false

namespace CodexQueueBot.Web

open Go Storage Lib

/-! ### Credentials -/

section

variable [Argon2]

/-- The credentials fit an account. -/
def Accepts (account : Administrator) (username password : String) : Prop :=
  usernameKey (Strings.trimSpace username) = usernameKey account.username ∧
    verifyPassword password account.passwordHash = .ok true

/-- `VerifyAdmin` accepts the credentials that fit the stored account, and no others. -/
theorem Server.accepts_of_verifyAdmin {s : Server} {username password stored : String}
    {answers : List (Answer SQLError)}
    (h : s.verifyAdmin username password answers = some (.ok (stored, true))) :
    ∃ account, s.tables.administrator = some account ∧ stored = account.username ∧
      Accepts account username password := by
  obtain ⟨⟨result, new⟩, hrun, hresult⟩ := Option.map_eq_some_iff.mp h
  obtain rfl : result = .ok (stored, true) := hresult
  have hready : Prog.Ready ⟨cancelled, Eq, fun _ _ ↦ False, Eq⟩
      (fun result _ ↦ ∀ name, result = .ok (name, true) →
        ∃ account, s.tables.administrator = some account ∧ name = account.username ∧
          Accepts account username password)
      (Storage.verifyAdmin username password).run false s.tables none := by
    refine ⟨s.tables, rfl, by simp, run_wp ?_⟩
    unfold Storage.verifyAdmin
    rw [wp_bind, wp_inContext, wp_direct]
    rintro base rfl
    refine ⟨fun _ _ name hname ↦ (by cases hname), by simp, ?_⟩
    intro administrator read hread
    obtain ⟨rfl, rfl⟩ := Prod.mk.inj (Except.ok.inj hread)
    refine ⟨rfl, ?_⟩
    cases hstored : s.tables.administrator with
    | none =>
      simp only [wp_pure]
      intro name hname
      cases hname
    | some account =>
      dsimp only
      rw [inContext_ofExcept, wp_bind, wp_ofExcept]
      cases hverify : verifyPassword password account.passwordHash with
      | error error =>
        intro name hname
        cases hname
      | ok right =>
        simp only [Except.mapError, after, wp_pure]
        intro name hname
        obtain ⟨rfl, hright⟩ := Prod.mk.inj (Except.ok.inj hname)
        rw [decide_eq_true_eq] at hright
        obtain ⟨husername, rfl⟩ := hright
        exact ⟨account, rfl, rfl, husername, hverify⟩
  obtain ⟨phase, -, hpost⟩ := hready.run hrun
  exact hpost stored rfl

/-! ### Where a session comes from -/

/-- The administrator by the number of the account. -/
abbrev Accounts := List (Option Administrator)

/-- The user name of a handler was granted: by a login whose credentials fit the account that it has
verified, or by the setup that has created the first account. -/
inductive Granted (accounts : Accounts) (h : Handler) (username : String) : Prop
  | login (body : LoginRequest) (number : ℕ) (account : Administrator)
      (hrequest : h.request = .login (some body)) (hverified : h.verified = some number)
      (haccount : accounts[number]? = some (some account))
      (haccepts : Accepts account body.username body.password)
      (hname : username = account.username)
  | setup (body : SetupRequest) (number : ℕ) (salt : List UInt8)
      (hrequest : h.request = .setup (some body)) (hbefore : h.before = some number)
      (hnone : accounts[number]? = some none)
      (haccount : accounts[number + 1]? =
        some (some ⟨username, hashPassword salt body.password⟩))
      (hname : username = Strings.trimSpace body.username)

variable {accounts : Accounts} {h : Handler} {username : String}

/-- What was granted stays so when accounts are replaced. -/
theorem Granted.append (hgranted : Granted accounts h username) (more : Accounts) :
    Granted (accounts ++ more) h username := by
  have hkeep : ∀ {number : ℕ} {row : Option Administrator}, accounts[number]? = some row →
      (accounts ++ more)[number]? = some row := by
    intro number row hrow
    rw [List.getElem?_append_left (List.getElem?_eq_some_iff.mp hrow).1]
    exact hrow
  cases hgranted with
  | login body number account hrequest hverified haccount haccepts hname =>
    exact .login body number account hrequest hverified (hkeep haccount) haccepts hname
  | setup body number salt hrequest hbefore hnone haccount hname =>
    exact .setup body number salt hrequest hbefore (hkeep hnone) (hkeep haccount) hname

/-- What was granted to a handler does not depend on where it stands, nor on its session. -/
theorem Granted.goto (hgranted : Granted accounts h username) (pc : PC)
    (session : Option (String × Session)) : Granted accounts { h with pc, session } username := by
  cases hgranted with
  | login body number account hrequest hverified haccount haccepts hname =>
    exact .login body number account hrequest hverified haccount haccepts hname
  | setup body number salt hrequest hbefore hnone haccount hname =>
    exact .setup body number salt hrequest hbefore hnone haccount hname

/-- A handler answers with a session. -/
def Handler.Answers (h : Handler) (session : Session) : Prop :=
  h.pc = .unlock (.session session) ∨ h.pc = .done (.session session)

/-- A handler that was granted a session. -/
def Handler.Witness (accounts : Accounts) (h : Handler) (session : Session) : Prop :=
  h.Answers session ∧ Granted accounts h session.username

/-- The request is that of the setup. -/
def Handler.IsSetup (h : Handler) : Prop :=
  ∃ body, h.request = .setup body

/-- The setup has created the administrator. -/
def Handler.HasSetUp (h : Handler) : Prop :=
  h.IsSetup ∧ h.before ≠ none

/-- The request needs a session. -/
def Handler.Protected (h : Handler) : Prop :=
  ∀ body, h.request ≠ .login body ∧ ¬ h.IsSetup

/-- Where a request that needs a session stands before it has got one, or has been turned away. -/
def PC.outside : PC → Bool
  | .arrived | .requireSession _ | .done (.rejected _) => true
  | _ => false

/-- The program points of a login, and those of an answer with a session. -/
def PC.grants : PC → Bool
  | .verifyAdmin _ _ | .rotate _ | .establishSession _ | .storeSession _ _ _ => true
  | .unlock (.session _) | .done (.session _) => true
  | _ => false

/-- What a handler has reason to be at its program point. -/
def Handler.Proven (accounts : Accounts) (h : Handler) : Prop :=
  match h.pc with
  | .verifyAdmin username password =>
    ∃ body, h.request = .login (some body) ∧ username = body.username ∧ password = body.password
  | .rotate username => Granted accounts h username
  | .establishSession username => Granted accounts h username
  | .storeSession username _ _ => Granted accounts h username
  | .unlock (.session session) => Granted accounts h session.username
  | .done (.session session) => Granted accounts h session.username
  | .write op => h.IsSetup → ∃ body, h.request = .setup (some body) ∧
      op = .setupAdmin (Strings.trimSpace body.username) body.password
  | .setConfiguration _ => ∀ body, h.request = .setup (some body) →
      Granted accounts h (Strings.trimSpace body.username)
  | .currentPassword _ _ _ _ => ¬ h.IsSetup
  | .createTarget _ => ¬ h.IsSetup
  | .stopTarget _ => ¬ h.IsSetup
  | .edit _ _ => ¬ h.IsSetup
  | .applyRuntimeConfiguration _ => ¬ h.IsSetup
  | _ => True

end

/-! ### Accounts -/

section

variable [GCM String] [Argon2] [NetURL] [Net] {s s' : Server} {h h' : Handler} {self : ℕ}
  {input : Input} {accounts : Accounts}

/-- The row of the administrator that a step has put into the place of the one before. -/
def Server.renewed (s s' : Server) : Accounts :=
  if s'.account = s.account then [] else [s'.tables.administrator]

/-- The accounts of a run: each has its number, and after the first there was always one. -/
structure Server.Numbers (accounts : Accounts) (s : Server) : Prop where
  length : accounts.length = s.account + 1
  current : accounts[s.account]? = some s.tables.administrator
  later : ∀ number, accounts[number + 1]? ≠ some none

/-- The operations of the store that succeed have committed what they say, and make a new account
if they are those of the account. -/
theorem Server.perform_ok {op : Write} {answers : List (Answer SQLError)}
    {value : Snapshot × Option Target} (h : s.perform op answers = some (.ok value, s')) :
    Commits s.configStore s.tables op s'.tables value.2 ∧
      (setsAccount op = true → s'.account = s.account + 1) := by
  obtain ⟨⟨result, tables⟩, hrun, hreturn⟩ := Option.bind_eq_some_iff.mp h
  cases hreturn
  have hcommits := (write_outcome hrun).1
  refine ⟨hcommits, fun hsets ↦ if_pos ⟨hsets, ?_⟩⟩
  have hrevision := hcommits.configRevision
  omega

/-- An operation of the store keeps the row of the administrator with its number, or puts an account
into its place under the next number. -/
theorem Server.perform_row {op : Write} {answers : List (Answer SQLError)}
    {result : Except StoreError (Snapshot × Option Target)}
    (h : s.perform op answers = some (result, s')) :
    (s'.account = s.account ∧ s'.tables.administrator = s.tables.administrator) ∨
      (s'.account = s.account + 1 ∧ s'.tables.administrator ≠ none) := by
  rcases Server.perform_account h with ⟨hnumber, hrow, -⟩ | hnumber
  · exact Or.inl ⟨hnumber, hrow⟩
  · refine Or.inr ⟨hnumber, ?_⟩
    obtain ⟨⟨result, tables⟩, hrun, hreturn⟩ := Option.bind_eq_some_iff.mp h
    cases hreturn
    dsimp only at hnumber
    split_ifs at hnumber with hsets
    · have hcommits : ∃ target, Commits s.configStore s.tables op tables target := by
        cases result with
        | error error =>
          rcases write_outcome hrun with hsame | ⟨hcommits, -⟩
          · exact absurd (congrArg Tables.configRevision hsame) hsets.2
          · exact hcommits
        | ok value => exact ⟨_, (write_outcome hrun).1⟩
      obtain ⟨target, hcommits⟩ := hcommits
      cases hcommits with
      | setupAdmin | updateAccount => exact Option.some_ne_none _
      | _ => cases hsets.1
    · omega

/-- So does a step of a handler. -/
theorem Handler.step_row (hstep : h.step s self input = some (s', h')) :
    (s'.account = s.account ∧ s'.tables.administrator = s.tables.administrator) ∨
      (s'.account = s.account + 1 ∧ s'.tables.administrator ≠ none) := by
  have hmoves := Handler.step_moves hstep
  have hsame : ∀ {shared : Shared}, s'.shared = shared → shared.account = s.account →
      shared.tables = s.tables →
      s'.account = s.account ∧ s'.tables.administrator = s.tables.administrator := by
    intro shared hshared hnumber htables
    have hrow : s'.shared.tables.administrator = s.tables.administrator := by rw [hshared, htables]
    exact ⟨(congrArg Shared.account hshared).trans hnumber, hrow⟩
  have hperformed : ∀ {op : Write} {result : Except StoreError (Snapshot × Option Target)}
      {s₁ : Server}, s.perform op input.answers = some (result, s₁) → s'.shared = s₁.shared →
      (s'.account = s.account ∧ s'.tables.administrator = s.tables.administrator) ∨
        (s'.account = s.account + 1 ∧ s'.tables.administrator ≠ none) := by
    intro op result s₁ hperform hshared
    have hnumber : s'.account = s₁.account := congrArg Shared.account hshared
    have htables : s'.tables = s₁.tables := congrArg Shared.tables hshared
    rw [hnumber, htables]
    exact Server.perform_row hperform
  generalize hshared : s'.shared = shared at hmoves
  cases hmoves with
  | wrote op result s₁ pc hperform => exact hperformed hperform hshared
  | saved op snapshot target s₁ pc hperform => exact hperformed hperform hshared
  | _ => exact Or.inl (hsame hshared rfl rfl)

omit [GCM String] [Argon2] [NetURL] [Net] in
/-- The accounts of a run after a step that keeps the row or puts an account into its place. -/
theorem Server.Numbers.renewed (hnumbers : s.Numbers accounts)
    (hrow : (s'.account = s.account ∧ s'.tables.administrator = s.tables.administrator) ∨
      (s'.account = s.account + 1 ∧ s'.tables.administrator ≠ none)) :
    s'.Numbers (accounts ++ s.renewed s') := by
  rcases hrow with ⟨hnumber, hrow⟩ | ⟨hnumber, hsome⟩
  · rw [Server.renewed, if_pos hnumber, List.append_nil]
    refine ⟨?_, ?_, hnumbers.later⟩
    · rw [hnumber]
      exact hnumbers.length
    · rw [hnumber, hrow]
      exact hnumbers.current
  · have hne : s'.account ≠ s.account := by omega
    rw [Server.renewed, if_neg hne]
    have hlength := hnumbers.length
    refine ⟨?_, ?_, ?_⟩
    · rw [List.length_append, hlength, hnumber]
      rfl
    · rw [List.getElem?_append_right (by omega), hlength, hnumber, Nat.sub_self]
      rfl
    · intro number hnone
      rcases Nat.lt_or_ge (number + 1) accounts.length with hlt | hge
      · rw [List.getElem?_append_left hlt] at hnone
        exact hnumbers.later number hnone
      · rw [List.getElem?_append_right hge] at hnone
        have hmem := List.mem_singleton.mp (List.mem_of_getElem? hnone)
        exact hsome hmem.symm

/-! ### Steps of handlers -/

omit [GCM String] [Argon2] [NetURL] [Net] in
/-- A handler keeps the reasons for where it stands when accounts are replaced. -/
theorem Handler.Proven.append [Argon2] (hproven : h.Proven accounts) (more : Accounts) :
    h.Proven (accounts ++ more) := by
  unfold Handler.Proven at hproven ⊢
  split <;> rename_i hpc <;> simp only [hpc] at hproven
  all_goals first
    | exact hproven
    | exact hproven.append more
    | exact fun body hbody ↦ (hproven body hbody).append more

/-- What a step of a handler keeps: the request, the reasons for where the handler stands, and that
a setup succeeds when there is no administrator. -/
structure Handler.Proceeds (accounts : Accounts) (s : Server) (h : Handler) (s' : Server)
    (h' : Handler) : Prop where
  request : h'.request = h.request
  proven : h'.Proven (accounts ++ s.renewed s')
  setUp : h'.HasSetUp →
    h.HasSetUp ∨ s.tables.administrator = none ∧ s'.account = s.account + 1

omit [GCM String] [NetURL] [Net] in
/-- A handler that goes to a program point for which it has a reason. -/
theorem Handler.Proceeds.goto {s₁ : Server} {pc : PC} (hstep : h.goto s₁ pc = some (s', h'))
    (hproven : ({ h with pc } : Handler).Proven accounts) : h.Proceeds accounts s s' h' := by
  cases hstep
  exact ⟨rfl, hproven.append _, Or.inl⟩

omit [GCM String] [Argon2] [NetURL] [Net] in
/-- Requests other than the setup have reasons for all program points that do not belong to a
login. -/
theorem Handler.proven_of_grants [Argon2] (hnot : ¬ h.IsSetup) (hpc : h.pc.grants = false) :
    h.Proven accounts := by
  unfold Handler.Proven
  split <;> rename_i heq
  case h_1 | h_2 | h_3 | h_4 | h_5 | h_6 =>
    rw [heq] at hpc
    cases hpc
  case h_7 => exact fun hsetup ↦ absurd hsetup hnot
  case h_8 => exact fun body hbody ↦ absurd ⟨_, hbody⟩ hnot
  case h_14 => exact trivial
  all_goals exact hnot

omit [GCM String] [Argon2] [NetURL] [Net] in
/-- `updateAccount` goes on to the store, or rejects the request. -/
theorem grants_accountChange (current : Snapshot) (username newPassword : String) :
    (accountChange current username newPassword).grants = false := by
  unfold accountChange
  split_ifs <;> rfl

omit [GCM String] [Argon2] [Net] in
/-- Under the lock, no handler goes on with a login. -/
theorem Server.grants_locked (s : Server) (request : Request) :
    (s.locked request).grants = false := by
  cases request with
  | updateOpenILinkConfig body | updateTelegramConfig body =>
    cases body with
    | none => rfl
    | some request =>
      simp only [Server.locked]
      split <;> rfl
  | updateAccount body =>
    cases body with
    | none => rfl
    | some request =>
      simp only [Server.locked]
      split
      · rfl
      · split_ifs
        · rfl
        · exact grants_accountChange _ _ _
  | updateTarget text body =>
    cases body with
    | none => rfl
    | some request =>
      simp only [Server.locked]
      split
      · rfl
      · split
        · rfl
        · split <;> rfl
  | deleteTarget text =>
    simp only [Server.locked]
    split <;> rfl
  | setup body | updateCodexConfig body | updateWebConfig body | createTarget body =>
    cases body <;> rfl
  | login body | logout | events | other => rfl

omit [GCM String] [Argon2] [Net] in
/-- A handler has a reason for what it does first under the lock. -/
theorem Handler.proven_locked [Argon2] (s : Server) :
    ({ h with pc := s.locked h.request } : Handler).Proven accounts := by
  by_cases hsetup : h.IsSetup
  · obtain ⟨body, hrequest⟩ := hsetup
    have hlocked : s.locked h.request = s.locked (.setup body) := congrArg s.locked hrequest
    rw [hlocked]
    cases body with
    | none => exact trivial
    | some body => exact fun _ ↦ ⟨body, hrequest, rfl⟩
  · exact proven_of_grants hsetup (s.grants_locked h.request)

omit [GCM String] [Argon2] [NetURL] [Net] in
/-- A handler that is not the setup, after a section of the manager with its `persist`. -/
theorem Handler.afterEdit_proceeds [Argon2] {account : ℕ}
    {outcome : Server × Except Rejection Snapshot} (hnot : ¬ h.IsSetup)
    (hstep : h.afterEdit account outcome = some (s', h')) : h.Proceeds accounts s s' h' := by
  obtain ⟨s₁, outcome⟩ := outcome
  cases outcome with
  | error rejection =>
    exact Proceeds.goto hstep trivial
  | ok snapshot =>
    cases hstep
    exact ⟨rfl, proven_of_grants hnot rfl, fun hsetUp ↦ absurd hsetUp.1 hnot⟩

/-- An operation of the store: the setup has created the first account if it succeeds. -/
theorem Handler.write_proceeds {op : Write} {snapshot : Snapshot} {target : Option Target}
    (hnumbers : s.Numbers accounts) (hproven : h.Proven accounts) (hpc : h.pc = .write op)
    (hperform : s.perform op input.answers = some (.ok (snapshot, target), s')) :
    h.Proceeds accounts s s'
      { h with before := some s.account, pc := afterWrite snapshot op } := by
  by_cases hsetup : h.IsSetup
  · unfold Handler.Proven at hproven
    rw [hpc] at hproven
    obtain ⟨body, hrequest, rfl⟩ := hproven hsetup
    obtain ⟨hcommits, hnumber⟩ := Server.perform_ok hperform
    have hnumber := hnumber rfl
    have hrenewed : s.renewed s' = [s'.tables.administrator] := if_neg (by omega)
    obtain ⟨hnone, salt, hcreated⟩ : s.tables.administrator = none ∧ ∃ salt,
        s'.tables.administrator =
          some ⟨Strings.trimSpace body.username, hashPassword salt body.password⟩ := by
      generalize s'.tables = new at hcommits
      cases hcommits with
      | setupAdmin _ _ salt _ _ hfree =>
        rw [Strings.trimSpace_trimSpace]
        exact ⟨hfree, salt, rfl⟩
    refine ⟨rfl, ?_, fun _ ↦ Or.inr ⟨hnone, hnumber⟩⟩
    intro body' hbody
    obtain rfl : body = body' := by simpa using hrequest.symm.trans hbody
    refine .setup body s.account salt hrequest rfl ?_ ?_ rfl
    · have hcurrent := hnumbers.current
      rw [List.getElem?_append_left (by have := hnumbers.length; omega), hcurrent, hnone]
    · have hlength := hnumbers.length
      rw [List.getElem?_append_right (by omega), hlength, Nat.sub_self, hrenewed, hcreated]
      rfl
  · refine ⟨rfl, proven_of_grants hsetup ?_, fun hsetUp ↦ absurd hsetUp.1 hsetup⟩
    show (afterWrite snapshot op).grants = false
    unfold afterWrite
    split <;> rfl

/-- What a step of a handler keeps. -/
theorem Handler.step_proceeds (hnumbers : s.Numbers accounts) (hproven : h.Proven accounts)
    (hstep : h.step s self input = some (s', h')) : h.Proceeds accounts s s' h' := by
  unfold Handler.step at hstep
  unfold Handler.Proven at hproven
  cases hpc : h.pc <;> simp only [hpc] at hstep hproven
  case arrived =>
    split at hstep
    · exact Proceeds.goto hstep trivial
    · next request hrequest => exact Proceeds.goto hstep ⟨request, hrequest, rfl, rfl⟩
    · refine Proceeds.goto hstep ?_
      split <;> exact trivial
    · split at hstep <;> exact Proceeds.goto hstep trivial
  case requireSession now =>
    obtain ⟨sessionID, -, hstep⟩ := Option.bind_eq_some_iff.mp hstep
    split at hstep
    · exact Proceeds.goto hstep trivial
    · split_ifs at hstep
      · exact Proceeds.goto hstep trivial
      · cases hstep
        exact ⟨rfl, trivial, Or.inl⟩
  case authorized =>
    split at hstep
    · obtain ⟨⟨sessionID, session⟩, -, hstep⟩ := Option.bind_eq_some_iff.mp hstep
      exact Proceeds.goto hstep trivial
    · exact Proceeds.goto hstep trivial
    · exact Proceeds.goto hstep trivial
    · refine Proceeds.goto hstep ?_
      split <;> exact trivial
  case verifyAdmin username password =>
    obtain ⟨body, hrequest, rfl, rfl⟩ := hproven
    obtain ⟨result, hverify, hstep⟩ := Option.bind_eq_some_iff.mp hstep
    split at hstep
    · exact Proceeds.goto hstep trivial
    · exact Proceeds.goto hstep trivial
    · cases hstep
      obtain ⟨account, hstored, rfl, haccepts⟩ := Server.accepts_of_verifyAdmin hverify
      have hgranted : Granted accounts
          { h with verified := some s.account, pc := .rotate account.username }
          account.username :=
        .login body s.account account hrequest rfl (hnumbers.current.trans (congrArg _ hstored))
          haccepts rfl
      exact ⟨rfl, hgranted.append _, Or.inl⟩
  case rotate username =>
    split at hstep <;> exact Proceeds.goto hstep (hproven.goto _ h.session)
  case establishSession username =>
    split at hstep
    · refine Proceeds.goto hstep ?_
      unfold Handler.finish
      split <;> exact trivial
    · exact Proceeds.goto hstep (hproven.goto _ h.session)
  case storeSession username token now =>
    refine Proceeds.goto hstep ?_
    unfold Handler.finish
    split <;> exact hproven.goto _ h.session
  case stream pc =>
    obtain ⟨⟨sessionID, session⟩, -, hstep⟩ := Option.bind_eq_some_iff.mp hstep
    obtain ⟨pc', hnext, hstep⟩ := Option.bind_eq_some_iff.mp hstep
    obtain ⟨⟨s₁, subscriptions⟩, -, hstep⟩ := Option.bind_eq_some_iff.mp hstep
    obtain ⟨s₂, -, hstep⟩ := Option.bind_eq_some_iff.mp hstep
    cases hstep
    rcases StreamPC.next_cases hnext with ⟨next, rfl⟩ | rfl <;> exact ⟨rfl, trivial, Or.inl⟩
  case lock =>
    split at hstep
    · cases hstep
    · exact Proceeds.goto hstep trivial
  case locked => exact Proceeds.goto hstep (proven_locked s)
  case currentPassword current username newPassword password =>
    obtain ⟨⟨sessionID, session⟩, -, hstep⟩ := Option.bind_eq_some_iff.mp hstep
    obtain ⟨result, -, hstep⟩ := Option.bind_eq_some_iff.mp hstep
    split at hstep
    · exact Proceeds.goto hstep trivial
    · exact Proceeds.goto hstep trivial
    · exact Proceeds.goto hstep (proven_of_grants hproven (grants_accountChange _ _ _))
  case write op =>
    obtain ⟨⟨result, s₁⟩, hperform, hstep⟩ := Option.bind_eq_some_iff.mp hstep
    simp only at hstep
    split at hstep
    · exact Proceeds.goto hstep trivial
    · exact Proceeds.goto hstep trivial
    · cases hstep
      refine write_proceeds hnumbers ?_ hpc hperform
      unfold Handler.Proven
      rw [hpc]
      exact hproven
  case createTarget target =>
    obtain ⟨outcome, -, hstep⟩ := Option.bind_eq_some_iff.mp hstep
    exact afterEdit_proceeds hproven hstep
  case stopTarget op =>
    obtain ⟨label, -, hstep⟩ := Option.bind_eq_some_iff.mp hstep
    obtain ⟨jobs, -, hstep⟩ := Option.bind_eq_some_iff.mp hstep
    exact Proceeds.goto hstep hproven
  case edit proc op =>
    split at hstep
    · obtain ⟨jobs, -, hstep⟩ := Option.bind_eq_some_iff.mp hstep
      exact Proceeds.goto hstep hproven
    · obtain ⟨outcome, -, hstep⟩ := Option.bind_eq_some_iff.mp hstep
      exact afterEdit_proceeds hproven hstep
    · exact Proceeds.goto hstep trivial
    · cases hstep
  case applyRuntimeConfiguration snapshot =>
    obtain ⟨jobs, -, hstep⟩ := Option.bind_eq_some_iff.mp hstep
    exact Proceeds.goto hstep (proven_of_grants hproven rfl)
  case setConfiguration snapshot =>
    refine Proceeds.goto hstep ?_
    unfold Request.afterConfiguration
    split
    · next request hrequest =>
      exact (hproven request hrequest).goto (.establishSession (Strings.trimSpace request.username))
        h.session
    · exact trivial
    · exact trivial
  case revokeSessions snapshot => exact Proceeds.goto hstep trivial
  case unlock reply =>
    refine Proceeds.goto hstep ?_
    cases reply with
    | session session => exact hproven.goto (.done (.session session)) h.session
    | _ => exact trivial
  case done => cases hstep

/-! ### Sessions -/

/-- A handler that answers with a session goes on to answer with it. -/
theorem Handler.step_answers {session : Session} (hanswers : h.Answers session)
    (hstep : h.step s self input = some (s', h')) : h'.Answers session := by
  unfold Handler.step at hstep
  rcases hanswers with hpc | hpc <;> rw [hpc] at hstep <;> cases hstep
  exact Or.inr rfl

/-- A handler answers with the session that it has stored. -/
theorem Handler.step_stored {username token : String} {now : Jobs.Time}
    (hpc : h.pc = .storeSession username token now)
    (hstep : h.step s self input = some (s', h')) : h'.Answers (s.newSession username now) := by
  unfold Handler.step at hstep
  rw [hpc] at hstep
  cases hstep
  unfold Handler.Answers Handler.finish
  split
  · exact Or.inr rfl
  · exact Or.inl rfl

/-- A request that needs a session and has none stands before `requireSession` or has been turned
away. -/
def Handler.Outside (h : Handler) : Prop :=
  h.Protected → h.session = none → h.pc.outside = true

/-- A step keeps a request without a session outside. -/
theorem Handler.step_outside (houtside : h.Outside) (hrequest : h'.request = h.request)
    (hstep : h.step s self input = some (s', h')) : h'.Outside := by
  intro hprotected hnone
  have hprotected : h.Protected := by
    unfold Handler.Protected Handler.IsSetup at hprotected ⊢
    rwa [hrequest] at hprotected
  cases hsession : h.session with
  | some session =>
    rcases (Handler.step_moves hstep).session_cases.2 with ⟨hsame, -⟩ |
      ⟨sessionID, entry, -, -, hfound⟩
    · rw [hsame, hsession] at hnone
      cases hnone
    · rw [hfound] at hnone
      cases hnone
  | none =>
    have hbefore := houtside hprotected hsession
    unfold Handler.step at hstep
    cases hpc : h.pc <;> rw [hpc] at hbefore <;> simp only [hpc] at hstep
    case arrived =>
      split at hstep
      · exact absurd (by assumption) (hprotected _).1
      · exact absurd (by assumption) (hprotected _).1
      · exact absurd ⟨_, by assumption⟩ (hprotected none).2
      · split at hstep <;> cases hstep <;> rfl
    case requireSession now =>
      obtain ⟨sessionID, -, hstep⟩ := Option.bind_eq_some_iff.mp hstep
      split at hstep
      · cases hstep
        rfl
      · split_ifs at hstep <;> cases hstep
        · rfl
        · cases hnone
    case done => cases hstep
    all_goals cases hbefore

/-! ### Runs of the server -/

namespace Server

variable {label : Label} {tables : Tables} {rows : Accounts}

/-- The rows of the administrator that a step replaces. -/
def replaced (s : Server) (label : Label) : Accounts :=
  ((s.step label).map s.renewed).getD []

/-- The accounts of a run have their numbers; handlers have reasons for where they stand; each
session that is stored or that a handler has found was answered by a handler; and one setup at most
has succeeded. -/
structure Accounted (accounts : Accounts) (s : Server) : Prop where
  numbers : s.Numbers accounts
  proven : ∀ h ∈ s.handlers, h.Proven accounts
  stored : ∀ sessionID entry, s.sessions.lookup sessionID = some entry →
    ∃ witness ∈ s.handlers, witness.Answers entry.session
  found : ∀ h ∈ s.handlers, ∀ sessionID session, h.session = some (sessionID, session) →
    ∃ witness ∈ s.handlers, witness.Answers session
  outside : ∀ h ∈ s.handlers, h.Outside
  setUp : ∀ h ∈ s.handlers, h.HasSetUp → accounts[0]? = some none ∧ 0 < s.account
  once : ∀ (i j : ℕ) (h₁ h₂ : Handler), s.handlers[i]? = some h₁ → s.handlers[j]? = some h₂ →
    h₁.HasSetUp → h₂.HasSetUp → i = j

omit [GCM String] [Argon2] [NetURL] [Net] in
/-- There is no administrator before the first account only. -/
theorem Numbers.account_eq_zero (hnumbers : s.Numbers accounts)
    (hnone : s.tables.administrator = none) : s.account = 0 := by
  have hcurrent := hnumbers.current
  rw [hnone] at hcurrent
  cases hnumber : s.account with
  | zero => rfl
  | succ number =>
    rw [hnumber] at hcurrent
    exact absurd hcurrent (hnumbers.later number)

/-- A session that a handler has answered with before a step has a handler that answers with it
after the step. -/
theorem exists_answers_set (hget : s.handlers[self]? = some h)
    (hstep : h.step s self input = some (s', h')) {session : Session}
    (hanswers : ∃ witness ∈ s.handlers, witness.Answers session) :
    ∃ witness ∈ s.handlers.set self h', witness.Answers session := by
  obtain ⟨witness, hwitness, hanswers⟩ := hanswers
  obtain ⟨other, hother⟩ := List.mem_iff_getElem?.mp hwitness
  have hlt := (List.getElem?_eq_some_iff.mp hget).1
  by_cases heq : self = other
  · subst heq
    obtain rfl : h = witness := Option.some.inj (hget.symm.trans hother)
    exact ⟨h', List.mem_set hlt h', Handler.step_answers hanswers hstep⟩
  · have hother' : (s.handlers.set self h')[other]? = some witness := by
      rw [List.getElem?_set_ne heq]
      exact hother
    exact ⟨witness, List.mem_of_getElem? hother', hanswers⟩

omit [GCM String] [NetURL] [Net] in
/-- The handler of a step has set up the administrator before, or nobody has. -/
theorem Accounted.setUp_cases (haccounted : s.Accounted accounts)
    (hproceeds : h.Proceeds accounts s s' h') (hsetUp : h'.HasSetUp) :
    h.HasSetUp ∨ ∀ other ∈ s.handlers, ¬ other.HasSetUp := by
  refine (hproceeds.setUp hsetUp).imp id fun hnone other hother hdone ↦ ?_
  have hzero := haccounted.numbers.account_eq_zero hnone.1
  have hpositive := (haccounted.setUp other hother hdone).2
  omega

/-- After a step, a setup that has succeeded began without an administrator. -/
theorem Accounted.setUp_set (haccounted : s.Accounted accounts) (hmem : h ∈ s.handlers)
    (hproceeds : h.Proceeds accounts s s' h') (hstep : h.step s self input = some (s', h')) :
    ∀ other ∈ s.handlers.set self h', other.HasSetUp →
      (accounts ++ s.renewed s')[0]? = some none ∧ 0 < s'.account := by
  have hkeep : ∀ {row : Option Administrator}, accounts[0]? = some row →
      (accounts ++ s.renewed s')[0]? = some row := by
    intro row hrow
    rw [List.getElem?_append_left (List.getElem?_eq_some_iff.mp hrow).1]
    exact hrow
  have hold : ∀ before ∈ s.handlers, before.HasSetUp →
      (accounts ++ s.renewed s')[0]? = some none ∧ 0 < s'.account := by
    intro before hbefore hdone
    obtain ⟨hzero, hpositive⟩ := haccounted.setUp before hbefore hdone
    refine ⟨hkeep hzero, ?_⟩
    rcases Handler.step_row hstep with ⟨hnumber, -⟩ | ⟨hnumber, -⟩ <;> omega
  intro other hother hsetUp
  rcases List.mem_or_eq_of_mem_set hother with hbefore | rfl
  · exact hold other hbefore hsetUp
  · rcases hproceeds.setUp hsetUp with hdone | ⟨hnone, hnumber⟩
    · exact hold h hmem hdone
    · have hcurrent := haccounted.numbers.current
      rw [haccounted.numbers.account_eq_zero hnone, hnone] at hcurrent
      exact ⟨hkeep hcurrent, by omega⟩

omit [GCM String] [NetURL] [Net] in
/-- After a step, there is still one setup at most that has succeeded. -/
theorem Accounted.once_set (haccounted : s.Accounted accounts) (hget : s.handlers[self]? = some h)
    (hproceeds : h.Proceeds accounts s s' h') {i j : ℕ} {h₁ h₂ : Handler}
    (hi : (s.handlers.set self h')[i]? = some h₁) (hj : (s.handlers.set self h')[j]? = some h₂)
    (hdone₁ : h₁.HasSetUp) (hdone₂ : h₂.HasSetUp) : i = j := by
  simp only [List.getElem?_set] at hi hj
  split_ifs at hi hj with hi' _ hj' hj'
  · exact hi'.symm.trans hj'
  · obtain rfl := Option.some.inj hi
    rcases haccounted.setUp_cases hproceeds hdone₁ with hdone | hnobody
    · exact hi'.symm.trans (haccounted.once self j h h₂ hget hj hdone hdone₂)
    · exact absurd hdone₂ (hnobody h₂ (List.mem_of_getElem? hj))
  · obtain rfl := Option.some.inj hj
    rcases haccounted.setUp_cases hproceeds hdone₂ with hdone | hnobody
    · exact (haccounted.once i self h₁ h hi hget hdone₁ hdone).trans hj'
    · exact absurd hdone₁ (hnobody h₁ (List.mem_of_getElem? hi))
  · exact haccounted.once i j h₁ h₂ hi hj hdone₁ hdone₂

/-- What a step of a handler keeps of the whole server. -/
theorem advance_accounted (haccounted : s.Accounted accounts) (hget : s.handlers[self]? = some h)
    (hstep : h.step s self input = some (s', h')) :
    Accounted (accounts ++ s.renewed s') { s' with handlers := s.handlers.set self h' } := by
  have hmem := List.mem_of_getElem? hget
  have hlt := (List.getElem?_eq_some_iff.mp hget).1
  have hmoves := Handler.step_moves hstep
  have hproceeds := Handler.step_proceeds haccounted.numbers (haccounted.proven h hmem) hstep
  have hnumbers := haccounted.numbers.renewed (Handler.step_row hstep)
  refine ⟨⟨hnumbers.length, hnumbers.current, hnumbers.later⟩, ?_, ?_, ?_, ?_,
    haccounted.setUp_set hmem hproceeds hstep,
    fun i j h₁ h₂ ↦ haccounted.once_set hget hproceeds⟩
  · intro other hother
    rcases List.mem_or_eq_of_mem_set hother with hold | rfl
    · exact (haccounted.proven other hold).append _
    · exact hproceeds.proven
  · intro sessionID entry hentry
    rcases hmoves.entry hentry with hold | ⟨username, now, hpc, rfl, -⟩
    · exact exists_answers_set hget hstep (haccounted.stored sessionID entry hold)
    · exact ⟨h', List.mem_set hlt h', Handler.step_stored hpc hstep⟩
  · intro other hother sessionID session hsession
    refine exists_answers_set hget hstep ?_
    rcases List.mem_or_eq_of_mem_set hother with hold | rfl
    · exact haccounted.found other hold sessionID session hsession
    · rcases hmoves.session_cases.2 with ⟨hsame, -⟩ | ⟨token, entry, hentry, -, hfound⟩
      · exact haccounted.found h hmem sessionID session (hsame.symm.trans hsession)
      · obtain ⟨rfl, rfl⟩ := Prod.mk.inj (Option.some.inj (hfound.symm.trans hsession))
        exact haccounted.stored token entry hentry
  · intro other hother
    rcases List.mem_or_eq_of_mem_set hother with hold | rfl
    · exact haccounted.outside other hold
    · exact Handler.step_outside (haccounted.outside h hmem) hproceeds.request hstep

/-- What a step keeps of the whole server. -/
theorem step_accounted (haccounted : s.Accounted accounts) (hstep : s.step label = some s') :
    s'.Accounted (accounts ++ s.replaced label) := by
  have hreplaced : s.replaced label = s.renewed s' := by
    rw [replaced, hstep]
    rfl
  rw [hreplaced]
  rcases step_cases hstep with ⟨self, input, h, -, rfl, hget, -, -⟩ |
    ⟨arrived, elapsed, hhandlers, hshared⟩
  · simp only [step, hget, Option.bind_eq_bind, Option.bind_some] at hstep
    obtain ⟨⟨s₁, h'⟩, hmove, hstep⟩ := Option.bind_eq_some_iff.mp hstep
    cases hstep
    have hafter := advance_accounted haccounted hget hmove
    exact ⟨hafter.numbers, hafter.proven, hafter.stored, hafter.found, hafter.outside, hafter.setUp,
      hafter.once⟩
  · have hnumber : s'.account = s.account := congrArg Shared.account hshared
    have hrow : s'.tables.administrator = s.tables.administrator :=
      congrArg (fun shared : Shared ↦ shared.tables.administrator) hshared
    have hsessions : s'.sessions = s.sessions := congrArg Shared.sessions hshared
    have hnumbers := haccounted.numbers.renewed (Or.inl ⟨hnumber, hrow⟩)
    rw [renewed, if_pos hnumber, List.append_nil] at hnumbers ⊢
    -- Handlers that have arrived with this step have done nothing yet.
    have hfresh : ∀ other ∈ s'.handlers, other ∈ s.handlers ∨
        ∃ request cookie, other = { request, cookie } := by
      intro other hother
      rw [hhandlers] at hother
      rcases List.mem_append.mp hother with hold | hnew
      · exact Or.inl hold
      · obtain ⟨r, -, rfl⟩ := List.mem_map.mp hnew
        exact Or.inr ⟨r.1, r.2, rfl⟩
    have hkept : ∀ {session : Session}, (∃ witness ∈ s.handlers, witness.Answers session) →
        ∃ witness ∈ s'.handlers, witness.Answers session := by
      rintro session ⟨witness, hwitness, hanswers⟩
      rw [hhandlers]
      exact ⟨witness, List.mem_append_left _ hwitness, hanswers⟩
    refine ⟨hnumbers, ?_, ?_, ?_, ?_, ?_, ?_⟩
    · intro other hother
      rcases hfresh other hother with hold | ⟨request, cookie, rfl⟩
      · exact haccounted.proven other hold
      · exact trivial
    · intro sessionID entry hentry
      rw [hsessions] at hentry
      exact hkept (haccounted.stored sessionID entry hentry)
    · intro other hother sessionID session hsession
      rcases hfresh other hother with hold | ⟨request, cookie, rfl⟩
      · exact hkept (haccounted.found other hold sessionID session hsession)
      · cases hsession
    · intro other hother
      rcases hfresh other hother with hold | ⟨request, cookie, rfl⟩
      · exact haccounted.outside other hold
      · exact fun _ _ ↦ rfl
    · intro other hother hsetUp
      rcases hfresh other hother with hold | ⟨request, cookie, rfl⟩
      · rw [hnumber]
        exact haccounted.setUp other hold hsetUp
      · exact absurd rfl hsetUp.2
    · intro i j h₁ h₂ hi hj hdone₁ hdone₂
      have hold : ∀ {k : ℕ} {other : Handler}, s'.handlers[k]? = some other → other.HasSetUp →
          s.handlers[k]? = some other := by
        intro k other hk hdone
        rw [hhandlers, List.getElem?_append] at hk
        split_ifs at hk
        · exact hk
        · obtain ⟨r, -, rfl⟩ := List.mem_map.mp (List.mem_of_getElem? hk)
          exact absurd rfl hdone.2
      exact haccounted.once i j h₁ h₂ (hold hi hdone₁) (hold hj hdone₂) hdone₁ hdone₂

/-- Every run from a new server, whatever the requests and however their handlers interleave: the
rows of the administrator have their numbers; a request that has got past `requireSession` carries a
session that a handler has answered with, a login whose credentials fit the account stored when it
verified them, or the setup that created the first account; while there is no administrator, nobody
has got past `requireSession`; a request that needs a session and has none has not got further; and
one setup at most has succeeded, and only if there was no administrator at first. -/
theorem admitted_by_administrator (configStore : Store)
    (sessionTTL : {duration : Jobs.Duration // 0 < duration}) (now : Jobs.Time) (tables : Tables)
    (jobs : Jobs.System) (configSnapshot : Snapshot)
    (hrun : Traces step (fun _ _ ↦ True) replaced
      (new configStore sessionTTL now tables jobs configSnapshot) s rows) :
    (tables.administrator :: rows)[s.account]? = some s.tables.administrator ∧
      (∀ h ∈ s.handlers, ∀ sessionID session, h.session = some (sessionID, session) →
        ∃ witness ∈ s.handlers, witness.Witness (tables.administrator :: rows) session) ∧
      (s.tables.administrator = none → ∀ h ∈ s.handlers, h.session = none) ∧
      (∀ h ∈ s.handlers, h.Protected → h.session = none → h.pc.outside = true) ∧
      (∀ (i j : ℕ) (h₁ h₂ : Handler), s.handlers[i]? = some h₁ → s.handlers[j]? = some h₂ →
        h₁.HasSetUp → h₂.HasSetUp → i = j) ∧
      ∀ h ∈ s.handlers, h.HasSetUp → tables.administrator = none := by
  have haccounted : s.Accounted (tables.administrator :: rows) := by
    refine hrun.invariant (P := fun s rows ↦ s.Accounted (tables.administrator :: rows)) ?_ ?_
    · intro s s' label rows haccounted _ hstep
      exact step_accounted haccounted hstep
    · refine ⟨⟨rfl, rfl, fun number hnumber ↦ (by cases hnumber)⟩, ?_, ?_, ?_, ?_, ?_, ?_⟩
      · exact fun h hmem ↦ (by cases hmem)
      · exact fun sessionID entry hentry ↦ (by cases hentry)
      · exact fun h hmem ↦ (by cases hmem)
      · exact fun h hmem ↦ (by cases hmem)
      · exact fun h hmem ↦ (by cases hmem)
      · exact fun i j h₁ h₂ hi ↦ (by cases hi)
  have hwitness : ∀ h ∈ s.handlers, ∀ sessionID session, h.session = some (sessionID, session) →
      ∃ witness ∈ s.handlers, witness.Witness (tables.administrator :: rows) session := by
    intro h hmem sessionID session hsession
    obtain ⟨witness, hwitness, hanswers⟩ := haccounted.found h hmem sessionID session hsession
    have hproven := haccounted.proven witness hwitness
    refine ⟨witness, hwitness, hanswers, ?_⟩
    unfold Handler.Proven at hproven
    rcases hanswers with hpc | hpc <;> rw [hpc] at hproven <;> exact hproven
  refine ⟨haccounted.numbers.current, hwitness, ?_, haccounted.outside, haccounted.once, ?_⟩
  · intro hnone h hmem
    cases hsession : h.session with
    | none => rfl
    | some found =>
      obtain ⟨witness, -, -, hgranted⟩ := hwitness h hmem found.1 found.2 hsession
      have hlength := haccounted.numbers.length
      rw [haccounted.numbers.account_eq_zero hnone] at hlength
      have hcurrent := haccounted.numbers.current
      rw [haccounted.numbers.account_eq_zero hnone, hnone] at hcurrent
      cases hgranted with
      | login body number account _ _ haccount =>
        have hlt := (List.getElem?_eq_some_iff.mp haccount).1
        obtain rfl : number = 0 := by omega
        rw [hcurrent] at haccount
        cases haccount
      | setup body number salt _ _ _ haccount =>
        have hlt := (List.getElem?_eq_some_iff.mp haccount).1
        omega
  · intro h hmem hsetUp
    exact Option.some.inj (haccounted.setUp h hmem hsetUp).1

end Server

end

/-- The labels by which a request with the cookie `t1` gets past `requireSession`. -/
def readSteps (self : ℕ) : List Label :=
  .request .other (some "t1") :: [{}, {}].map (.advance self)

/-- After a setup and a login, a request has got past `requireSession` with the session of the
login. -/
theorem admitted_by_administrator_read : ∃ s rows,
    Traces sampleStep (fun _ _ ↦ True)
      (@Server.replaced GCM.transparent Argon2.transparent Config.hostOnly Net.portOnly)
      sampleServer s rows ∧
    ∃ h ∈ s.handlers, ∃ session, h.session = some ("t1", session) ∧
      ∃ witness ∈ s.handlers,
        @Handler.Witness Argon2.transparent (none :: rows) witness session := by
  have heval : ((runLabels sampleStep (fun _ _ ↦ true) sampleServer
      (setupSteps ++ loginSteps 1 "12345" "t1" ++ [.advance 1 {}] ++ readSteps 2)).any
        fun s ↦ s.handlers.any fun h ↦ h.session.any (·.1 = "t1")) = true := by
    decide +kernel
  obtain ⟨s, hrun, htest⟩ := Steps.exists_of_runLabels (fun _ _ _ ↦ trivial) heval
  obtain ⟨rows, htraces⟩ := hrun.exists_traces
    (@Server.replaced GCM.transparent Argon2.transparent Config.hostOnly Net.portOnly)
  obtain ⟨h, hmem, hsession⟩ := List.any_eq_true.mp htest
  obtain ⟨⟨token, session⟩, hsession, htoken⟩ := (Option.any_eq_true _ _).mp hsession
  obtain rfl : token = "t1" := of_decide_eq_true htoken
  have hadmitted := @Server.admitted_by_administrator GCM.transparent Argon2.transparent
    Config.hostOnly Net.portOnly s rows _ _ _ _ _ _ htraces
  exact ⟨s, rows, htraces, h, hmem, session, hsession,
    hadmitted.2.1 h hmem "t1" session hsession⟩

end CodexQueueBot.Web
