import CodexQueueBot.Lib.Mutex
import CodexQueueBot.Web.Accounts
import CodexQueueBot.Web.Copies

/-!
# Database, cached configuration and manager agree

A handler that changes the configuration holds `configWriteMu` from before its operation of the
store until its answer is made. In between it first brings the manager in line with what the store
has committed and then caches the snapshot, and its program point says how far it is
(`PC.Asserts`). Whenever no handler holds the mutex, the targets of the manager, those of the cached
snapshot and those that `Load` returns are the same list, the cached snapshot is what `Load`
returns, and the limits of the manager are those of the stored codex section: `copies_agree`.
-/

set_option autoImplicit false
set_option relaxedAutoImplicit false

namespace CodexQueueBot.Web

open Go Storage Lib

/-! ### The critical section -/

section

variable [GCM String] [Argon2] [NetURL] [Net]

omit [Argon2] [Net] in
/-- What the handler that holds `configWriteMu` has left of the copies. -/
def PC.Asserts (c : Copies) : PC → Prop
  | .write op => c.Settled ∧ editsTargets op = false
  | .createTarget target => c.Settled ∧ target.apiKeyEnv = ""
  | .stopTarget op => c.Settled ∧ EnvFree op ∧ ∃ kind, kindOf op = some kind
  | .edit proc op => c.Settled ∧ EnvFree op ∧ ∃ kind pc, kindOf op = some kind ∧
      c.jobs.procs[proc]? = some (.edit ⟨kind, pc⟩)
  | .applyRuntimeConfiguration snapshot => c.Saved snapshot
  | .setConfiguration snapshot => c.Applied snapshot
  | _ => c.Settled

variable {s s' : Server} {c : Copies} {pc : PC} {op : Write}

/-! ### Steps of the manager -/

omit [Argon2] [Net] in
/-- What a handler asserts does not depend on other goroutines of the manager. -/
theorem PC.Asserts.of_jobs (h : pc.Asserts c) {jobs : Jobs.System}
    (hframe : jobs.manager.frame = c.jobs.manager.frame)
    (hcalls : ∀ (i : ℕ) (call : Jobs.EditCall), c.jobs.procs[i]? = some (.edit call) →
      jobs.procs[i]? = some (.edit call)) : pc.Asserts { c with jobs } := by
  cases pc with
  | write op => exact ⟨h.1.of_frame hframe, h.2⟩
  | createTarget target => exact ⟨h.1.of_frame hframe, h.2⟩
  | stopTarget op => exact ⟨h.1.of_frame hframe, h.2⟩
  | edit proc op =>
    obtain ⟨hsettled, henv, kind, pc, hkind, hproc⟩ := h
    exact ⟨hsettled.of_frame hframe, henv, kind, pc, hkind, hcalls proc _ hproc⟩
  | applyRuntimeConfiguration snapshot =>
    obtain ⟨config, hstands, hsnapshot⟩ := h
    exact ⟨config, hstands.of_domain (Jobs.Manager.domain_of_frame hframe), hsnapshot⟩
  | setConfiguration snapshot => exact Copies.Applied.of_frame h hframe
  | _ => exact Copies.Applied.of_frame h hframe

omit [Argon2] [Net] in
/-- The first section of `UpdateTarget` or `DeleteTarget` leaves a call for the handler. -/
theorem asserts_of_stopTarget {now : Jobs.Time} {label : Jobs.Label} {jobs : Jobs.System}
    (h : (PC.stopTarget op).Asserts c) (hlabel : stopLabel now op = some label)
    (hstep : c.jobs.step label = some jobs) :
    (PC.edit c.jobs.procs.length op).Asserts { c with jobs } := by
  obtain ⟨hsettled, henv, kind, hkind⟩ := h
  have hcall : ∃ id, c.jobs.editCall kind id now = some jobs := by
    cases op with
    | updateTarget id target apiKey =>
      cases hkind
      cases hlabel
      exact ⟨id, hstep⟩
    | deleteTarget id =>
      cases hkind
      cases hlabel
      exact ⟨id, hstep⟩
    | _ => cases hkind
  have hframe : jobs.manager.frame = c.jobs.manager.frame := by
    rcases Jobs.System.step_frame hstep with hframe | hedits | ⟨_, _, _, _, _, _, rfl⟩
    · exact hframe
    · cases hedits <;> cases op <;> cases hlabel
    · cases op <;> cases hlabel
  obtain ⟨id, hcall⟩ := hcall
  obtain ⟨pc, -, -, hprocs, -⟩ := Jobs.System.editCall_manager hcall
  refine ⟨hsettled.of_frame hframe, henv, kind, pc, hkind, ?_⟩
  rw [hprocs, List.getElem?_concat_length]

omit [Argon2] [Net] in
/-- A call that waits leaves targets and limits alone. -/
theorem asserts_of_waitTargetIdle {proc : ℕ} {kind : Jobs.EditKind} {key : String}
    {input : Jobs.Input} {jobs : Jobs.System} (h : (PC.edit proc op).Asserts c)
    (hproc : c.jobs.procs[proc]? = some (.edit ⟨kind, .waitTargetIdle key⟩))
    (hstep : c.jobs.step (.advance proc input) = some jobs) :
    (PC.edit proc op).Asserts { c with jobs } := by
  obtain ⟨hsettled, henv, kind', pc, hkind, hproc'⟩ := h
  obtain ⟨rfl, rfl⟩ := Jobs.EditCall.mk.inj (Jobs.Proc.edit.inj (Option.some.inj
    (hproc'.symm.trans hproc)))
  have hframe : jobs.manager.frame = c.jobs.manager.frame := by
    rcases Jobs.System.step_frame hstep with hframe | hedits | ⟨_, _, _, _, _, _, hlabel⟩
    · exact hframe
    · cases hedits with
      | update hcommit =>
        rw [hproc] at hcommit
        cases hcommit
      | delete hcommit =>
        rw [hproc] at hcommit
        cases hcommit
    · cases hlabel
  refine ⟨hsettled.of_frame hframe, henv, kind', ?_⟩
  obtain ⟨proc', hnew, rfl | ⟨_, effect, -, heffect, -, rfl⟩⟩ :=
    Jobs.System.step_getElem? hstep hproc
  · exact ⟨_, hkind, hnew⟩
  · have heffect : Jobs.EditCall.step c.jobs.manager ⟨kind', .waitTargetIdle key⟩ _ =
      some effect := heffect
    obtain ⟨⟨pc, hmoved⟩, -⟩ := Jobs.EditCall.step_proc heffect
    exact ⟨pc, hkind, hnew.trans (congrArg some hmoved)⟩

omit [Argon2] [Net] in
/-- `applyRuntimeConfiguration` brings the limits in line; an accepted number of processes is
positive. -/
theorem applied_of_updateSettings {snapshot : Snapshot} {now : Jobs.Time} {draw : String → Nat}
    {jobs : Jobs.System} (h : c.Saved snapshot)
    (hstep : c.jobs.step (settingsLabel snapshot now draw) = some jobs) :
    Copies.Applied { c with jobs } snapshot := by
  obtain ⟨config, hstands, rfl⟩ := h
  obtain ⟨m, hsection, rfl⟩ := Option.map_eq_some_iff.mp hstep
  have hpositive : 0 < config.codex.maxParallel := by
    have hintervals := hstands.holds.accepted.intervals
    simp only [Config.validateIntervals, Config.checks_eq_ok, Config.check_eq_ok, not_le]
      at hintervals
    exact hintervals.2.2.2.2.2.2
  exact ⟨config, hstands.of_domain (Jobs.Manager.domain_of_updateSettings hsection), rfl,
    Jobs.Manager.limits_of_updateSettings hpositive hsection⟩

/-! ### Under the lock -/

omit [GCM String] [Argon2] [NetURL] [Net] in
/-- The program points whose steps touch neither the copies nor the mutex. -/
def PC.quiet : PC → Bool
  | .arrived | .requireSession _ | .authorized | .verifyAdmin _ _ | .rotate _
  | .establishSession _ | .storeSession _ _ _ | .locked | .currentPassword _ _ _ _
  | .revokeSessions _ => true
  | _ => false

/-- A section of the manager with an operation of the store leaves the mutex alone, and
`configStore`. -/
theorem Server.editWith_frame
    {run : Jobs.Persist → Option (Jobs.System × Except Jobs.Manager.Error Unit)}
    {answers : List (Answer SQLError)} {outcome : Except Rejection Snapshot}
    (h : s.editWith run op answers = some (s', outcome)) :
    s'.configWriteMu = s.configWriteMu ∧ s'.configStore = s.configStore := by
  unfold Server.editWith at h
  split_ifs at h
  · obtain ⟨⟨stored, s₁⟩, hperform, h⟩ := Option.bind_eq_some_iff.mp h
    obtain ⟨⟨jobs, result⟩, -, h⟩ := Option.bind_eq_some_iff.mp h
    cases h
    rw [Server.perform_frame hperform]
    exact ⟨rfl, rfl⟩
  · obtain ⟨⟨jobs, result⟩, -, h⟩ := Option.bind_eq_some_iff.mp h
    cases result <;> cases h
    exact ⟨rfl, rfl⟩

/-- A handler goes on from a section of the manager with an operation on targets. -/
theorem Handler.afterEdit_asserts
    {run : Jobs.Persist → Option (Jobs.System × Except Jobs.Manager.Error Unit)}
    {answers : List (Answer SQLError)} {edited : Server × Except Rejection Snapshot}
    {h h' : Handler} {account : ℕ} (hsettled : s.copies.Settled) (henv : EnvFree op)
    (hedits : editsTargets op = true)
    (hrun : ∀ persist jobs result, run persist = some (jobs, result) →
      sectionOf s.jobs.manager op persist = some (jobs.manager, result))
    (hedit : s.editWith run op answers = some edited)
    (hstep : h.afterEdit account edited = some (s', h')) : h'.pc.Asserts s'.copies := by
  rcases edited with ⟨s₁, outcome⟩
  rcases Server.editWith_copies hsettled henv hedits hrun hedit with
    ⟨hsettled', rejection, rfl⟩ | ⟨snapshot, happlied, rfl⟩
  · cases hstep
    exact hsettled'
  · cases hstep
    exact happlied

omit [GCM String] [Argon2] [NetURL] [Net] in
/-- The handler goes on with the server that the section has left. -/
theorem Handler.afterEdit_server {edited : Server × Except Rejection Snapshot} {h h' : Handler}
    {account : ℕ} (hstep : h.afterEdit account edited = some (s', h')) : s' = edited.1 := by
  obtain ⟨s₁, error | snapshot⟩ := edited
  · cases hstep
    rfl
  · cases hstep
    rfl

omit [Argon2] [Net] in
/-- A handler goes on from an operation that is not one on targets: the limits may be out of line
only after one on the codex section. -/
theorem asserts_afterWrite {snapshot : Snapshot} (hsaved : c.Saved snapshot)
    (happlied : (∀ value, op ≠ .updateCodex value) → c.Applied snapshot) :
    (afterWrite snapshot op).Asserts c := by
  unfold afterWrite
  split
  · exact hsaved
  · exact hsaved
  · next hcodex _ => exact happlied hcodex

omit [GCM String] [Argon2] [NetURL] [Net] in
/-- The program points at which the handler that holds `configWriteMu` works on the copies. -/
def PC.works : PC → Bool
  | .write _ | .createTarget _ | .stopTarget _ | .edit _ _ | .applyRuntimeConfiguration _
  | .setConfiguration _ => true
  | _ => false

/-- A handler that works on the copies leaves the mutex alone, and `configStore`. -/
theorem Handler.step_frame {self : ℕ} {h h' : Handler} {input : Input} (hworks : h.pc.works = true)
    (hstep : h.step s self input = some (s', h')) :
    s'.configWriteMu = s.configWriteMu ∧ s'.configStore = s.configStore := by
  unfold Handler.step at hstep
  cases hpc : h.pc <;> simp only [hpc] at hstep hworks <;> try cases hworks
  case write op =>
    obtain ⟨⟨result, s₁⟩, hperform, hnext⟩ := Option.bind_eq_some_iff.mp hstep
    have hframe := Server.perform_frame hperform
    simp only at hnext
    split at hnext <;> cases hnext <;> rw [hframe] <;> exact ⟨rfl, rfl⟩
  case createTarget target =>
    obtain ⟨edited, hedit, hstep⟩ := Option.bind_eq_some_iff.mp hstep
    rw [Handler.afterEdit_server hstep]
    exact Server.editWith_frame hedit
  case stopTarget op =>
    obtain ⟨label, -, hstep⟩ := Option.bind_eq_some_iff.mp hstep
    obtain ⟨jobs, -, hstep⟩ := Option.bind_eq_some_iff.mp hstep
    cases hstep
    exact ⟨rfl, rfl⟩
  case edit proc op =>
    split at hstep
    · obtain ⟨jobs, -, hstep⟩ := Option.bind_eq_some_iff.mp hstep
      cases hstep
      exact ⟨rfl, rfl⟩
    · obtain ⟨edited, hedit, hstep⟩ := Option.bind_eq_some_iff.mp hstep
      rw [Handler.afterEdit_server hstep]
      exact Server.editWith_frame hedit
    · cases hstep
      exact ⟨rfl, rfl⟩
    · cases hstep
  case applyRuntimeConfiguration snapshot =>
    obtain ⟨jobs, -, hstep⟩ := Option.bind_eq_some_iff.mp hstep
    cases hstep
    exact ⟨rfl, rfl⟩
  case setConfiguration snapshot =>
    cases hstep
    exact ⟨rfl, rfl⟩

/-- The steps of the handler that works on the copies lead from one assertion to the next. -/
theorem Handler.step_works {self : ℕ} {h h' : Handler} {input : Input} (hworks : h.pc.works = true)
    (hstep : h.step s self input = some (s', h')) (hasserts : h.pc.Asserts s.copies) :
    h'.pc.Asserts s'.copies := by
  unfold Handler.step at hstep
  cases hpc : h.pc <;> simp only [hpc] at hstep hworks hasserts <;> try cases hworks
  case write op =>
    obtain ⟨hsettled, hedits⟩ := hasserts
    obtain ⟨⟨result, s₁⟩, hperform, hnext⟩ := Option.bind_eq_some_iff.mp hstep
    rcases Server.perform_settled hsettled hedits hperform with
      ⟨hsame, error, rfl⟩ | ⟨snapshot, returned, rfl, hsaved, happlied⟩
    · have hsettled' : s₁.copies.Settled := hsame ▸ hsettled
      simp only at hnext
      split at hnext
      · cases hnext
        exact hsettled'
      · cases hnext
        exact hsettled'
      · next heq => cases heq
    · cases hnext
      exact asserts_afterWrite hsaved happlied
  case createTarget target =>
    obtain ⟨hsettled, henv⟩ := hasserts
    obtain ⟨edited, hedit, hstep⟩ := Option.bind_eq_some_iff.mp hstep
    have henv : EnvFree (.createTarget target) := henv
    exact Handler.afterEdit_asserts hsettled henv rfl
      (fun _ _ _ ↦ Server.createSection_section) hedit hstep
  case stopTarget op =>
    obtain ⟨label, hlabel, hstep⟩ := Option.bind_eq_some_iff.mp hstep
    obtain ⟨jobs, hcall, hstep⟩ := Option.bind_eq_some_iff.mp hstep
    cases hstep
    exact asserts_of_stopTarget hasserts hlabel hcall
  case edit proc op =>
    split at hstep
    · next kind key hproc =>
      obtain ⟨jobs, hwait, hstep⟩ := Option.bind_eq_some_iff.mp hstep
      cases hstep
      exact asserts_of_waitTargetIdle hasserts hproc hwait
    · next kind hproc =>
      obtain ⟨hsettled, henv, kind', pc, hkind, hproc'⟩ := hasserts
      obtain ⟨edited, hedit, hstep⟩ := Option.bind_eq_some_iff.mp hstep
      have hsame := hproc'.symm.trans hproc
      cases hsame
      have hedits : editsTargets op = true := by
        cases op <;> first | rfl | cases hkind
      exact Handler.afterEdit_asserts hsettled henv hedits
        (fun _ _ _ ↦ Server.editSection_section hkind hproc) hedit hstep
    · cases hstep
      exact hasserts.1
    · cases hstep
  case applyRuntimeConfiguration snapshot =>
    obtain ⟨jobs, hsettings, hstep⟩ := Option.bind_eq_some_iff.mp hstep
    cases hstep
    exact applied_of_updateSettings hasserts hsettings
  case setConfiguration snapshot =>
    cases hstep
    have hsettled : (s.setConfiguration snapshot).copies.Settled := hasserts
    dsimp only
    unfold Request.afterConfiguration
    split <;> exact hsettled

namespace Server

variable {label : Label}

end Server

end

end CodexQueueBot.Web
