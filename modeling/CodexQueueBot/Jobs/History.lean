import CodexQueueBot.Jobs.Procs
import CodexQueueBot.Jobs.View

/-!
# What the goroutines record, and what they do to the jobs

The history of the system grows by what its goroutines record. Workers record the beginning of a
runner call and, for a queue run, its success and its notification, always about themselves; calls
record the starts of runs and the registrations of subscribers. The first two of these, and every
change of a job besides the count of its workers, are made only for the run that is on.
-/

set_option autoImplicit false
set_option relaxedAutoImplicit false

namespace CodexQueueBot.Jobs

open Lib

/-! ### Changes of the jobs -/

/-- What a step of a queue worker can do to its job. Only the run that is on writes more than the
count of workers. -/
inductive Job.Moves (runID : Nat) (job : Job) : Job → Prop
  | attempted (hcurrent : job.Current runID) (now : Time) : Moves runID job (job.attempted now)
  | failed (hcurrent : job.Current runID) (error : String) : Moves runID job (job.failed error)
  | succeeded (hcurrent : job.Current runID) (now : Time) : Moves runID job (job.succeeded now)
  | cancelled (hcurrent : job.Current runID) (now : Time) : Moves runID job (job.cancelled now)
  | finished : Moves runID job { job with workers := job.workers - 1 }

/-- A worker that has nothing left to do but to exit. -/
def QueuePC.leaving : QueuePC → Bool
  | .finishWorker | .workerDone | .exited => true
  | _ => false

/-- The program point of the notification. -/
def QueuePC.success : QueuePC → Option Manager.Success
  | .notifySuccess _ _ success => some success
  | _ => none

/-- A worker that is leaving has notified, if it ever does. -/
theorem QueuePC.success_of_leaving {pc : QueuePC} (h : pc.leaving = true) : pc.success = none := by
  cases pc <;> first | rfl | cases h

variable [Go.NetURL] {m : Manager} {next self : Nat} {input : Input} {effect : Effect}

open Manager

omit [Go.NetURL] in
/-- A cancelled context leaves the jobs alone. -/
@[simp]
theorem Manager.callCancel_jobs (cancel : Option Nat) : (m.callCancel cancel).jobs = m.jobs := by
  cases cancel <;> rfl

omit [Go.NetURL] in
/-- A broadcast leaves the jobs alone. -/
theorem Manager.Shown.jobs {m' : Manager} (h : m.Shown m') : m'.jobs = m.jobs := by
  obtain ⟨_, _, rfl⟩ := h
  rfl

omit [Go.NetURL] in
/-- A broadcast leaves the keepalive jobs alone. -/
theorem Manager.Shown.keepalives {m' : Manager} (h : m.Shown m') : m'.keepalives =
    m.keepalives := by
  obtain ⟨_, _, rfl⟩ := h
  rfl

omit [Go.NetURL] in
/-- A broadcast leaves the arbiters alone. -/
theorem Manager.Shown.arbiters {m' : Manager} (h : m.Shown m') : m'.arbiters = m.arbiters := by
  obtain ⟨_, _, rfl⟩ := h
  rfl

/-- A step of a queue worker leaves the keepalive jobs alone and moves at most its own job. -/
theorem QueueWorker.step_jobs {w : QueueWorker} (h : w.step m self input = some effect) :
    effect.manager.keepalives = m.keepalives ∧ (effect.manager.jobs = m.jobs ∨
      ∃ job job', w.view.live = true ∧ m.jobs.lookup w.key = some job ∧ job.Moves w.runID job' ∧
        effect.manager.jobs = m.jobs.insert w.key job') := by
  unfold QueueWorker.step at h
  cases hpc : w.pc <;>
    simp only [hpc, Option.bind_eq_bind, Option.bind_eq_some_iff, Prod.exists] at h
  case acquireTarget =>
    obtain ⟨m₁, outcome, hsection, h⟩ := h
    obtain ⟨job, arbiter, -, -, hcases⟩ := acquireQueueTarget_cases hsection
    rcases hcases with ⟨-, rfl, rfl⟩ | ⟨-, -, rfl, rfl⟩ | ⟨-, -, rfl, rfl⟩ <;> cases h <;>
      exact ⟨rfl, Or.inl rfl⟩
  case acquire =>
    rcases hacquire : m.acquire with ⟨m₁, outcome⟩
    simp only [hacquire] at h
    rcases acquire_cases hacquire with ⟨-, rfl, rfl⟩ | ⟨-, rfl, rfl⟩ <;> cases h <;>
      exact ⟨rfl, Or.inl rfl⟩
  case beginAttempt =>
    obtain ⟨m₁, begun, hsection, h⟩ := h
    obtain ⟨job, arbiter, hjob, -, hcases⟩ := beginAttempt_cases hsection
    rcases hcases with ⟨hcurrent, -, rfl, hshown⟩ | ⟨-, rfl, rfl⟩ <;> cases h
    · exact ⟨hshown.keepalives, Or.inr ⟨job, _, by simp [view, hpc], hjob,
        .attempted hcurrent input.now, hshown.jobs⟩⟩
    · exact ⟨rfl, Or.inl rfl⟩
  case finishProcess =>
    obtain ⟨m₁, hsection, h⟩ := h
    cases h
    have hshown := finishProcess_cases hsection
    exact ⟨hshown.keepalives, Or.inl hshown.jobs⟩
  case markSuccess =>
    obtain ⟨m₁, success, hsection, h⟩ := h
    obtain ⟨job, hjob, hcases⟩ := markSuccess_cases hsection
    rcases hcases with ⟨hcurrent, rfl, m₂, hrelease, hshown⟩ | ⟨-, rfl, hrelease⟩ <;> cases h
    · have hjobs := hshown.jobs.trans (releaseTargetLocked_jobs hrelease)
      have hkeepalives := hshown.keepalives.trans (releaseTargetLocked_keepalives hrelease)
      rw [callCancel_jobs] at hjobs
      rw [callCancel_keepalives] at hkeepalives
      exact ⟨hkeepalives, Or.inr ⟨job, _, by simp [view, hpc], hjob,
          .succeeded hcurrent input.now, hjobs⟩⟩
    · exact ⟨releaseTargetLocked_keepalives hrelease, Or.inl (releaseTargetLocked_jobs hrelease)⟩
  case markFailure =>
    obtain ⟨m₁, valid, hsection, h⟩ := h
    cases h
    obtain ⟨job, hjob, hcases⟩ := markFailure_cases hsection
    rcases hcases with ⟨hcurrent, -, m₂, hrelease, hshown⟩ | ⟨-, -, hrelease⟩
    · have hjobs := hshown.jobs.trans (releaseTargetLocked_jobs hrelease)
      have hkeepalives := hshown.keepalives.trans (releaseTargetLocked_keepalives hrelease)
      exact ⟨hkeepalives, Or.inr ⟨job, _, by simp [view, hpc], hjob, .failed hcurrent _, hjobs⟩⟩
    · exact ⟨releaseTargetLocked_keepalives hrelease, Or.inl (releaseTargetLocked_jobs hrelease)⟩
  case releaseTarget =>
    obtain ⟨m₁, hrelease, h⟩ := h
    cases h
    exact ⟨releaseTargetLocked_keepalives hrelease, Or.inl (releaseTargetLocked_jobs hrelease)⟩
  case markCancelled =>
    obtain ⟨m₁, hsection, h⟩ := h
    cases h
    obtain ⟨job, m₂, hjob, hrelease, hcases⟩ := markQueueCancelled_cases hsection
    have hjobs := releaseTargetLocked_jobs hrelease
    have hkeepalives := releaseTargetLocked_keepalives hrelease
    rcases hcases with ⟨hcurrent, m₃, hsignal, hshown⟩ | ⟨-, rfl⟩
    · obtain ⟨arbiter, -, rfl⟩ := signalTargetLocked_cases hsignal
      refine ⟨hshown.keepalives.trans hkeepalives,
        Or.inr ⟨job, _, by simp [view, hpc], hjob, .cancelled hcurrent input.now,
            hshown.jobs.trans ?_⟩⟩
      rw [← hjobs]
      rfl
    · exact ⟨hkeepalives, Or.inl hjobs⟩
  case finishWorker =>
    obtain ⟨m₁, hsection, h⟩ := h
    cases h
    rcases finishQueueWorker_cases hsection with ⟨job, hjob, -, hshown⟩ | ⟨-, rfl⟩
    · exact ⟨hshown.keepalives, Or.inr ⟨job, _, by simp [view, hpc], hjob, .finished, hshown.jobs⟩⟩
    · exact ⟨rfl, Or.inl rfl⟩
  case awaitTarget | awaitSlot =>
    obtain ⟨_, -, h⟩ := h
    cases h
    exact ⟨rfl, Or.inl rfl⟩
  case running | notifySuccess | checkContext | releaseSlot | workerDone =>
    cases h
    exact ⟨rfl, Or.inl rfl⟩
  case exited => cases h

/-- A step of a keepalive worker leaves the queue jobs alone and moves at most its own job. Only the
run that is on writes more than the count of workers. -/
theorem KeepaliveWorker.step_jobs {w : KeepaliveWorker} (h : w.step m self input = some effect) :
    effect.manager.jobs = m.jobs ∧ (effect.manager.keepalives = m.keepalives ∨
      ∃ keepalive keepalive', w.view.live = true ∧
        m.keepalives.lookup w.key = some keepalive ∧
        (keepalive.Current w.runID ∨
          keepalive' = { keepalive with workers := keepalive.workers - 1 }) ∧
        effect.manager.keepalives = m.keepalives.insert w.key keepalive') := by
  unfold KeepaliveWorker.step at h
  cases hpc : w.pc <;>
    simp only [hpc, Option.bind_eq_bind, Option.bind_eq_some_iff, Prod.exists] at h
  case beginRequest =>
    obtain ⟨m₁, outcome, hsection, h⟩ := h
    obtain ⟨keepalive, job, arbiter, hkeepalive, -, -, hcases⟩ :=
      beginKeepaliveRequest_cases hsection
    have hmanager : effect.manager = m₁ := by cases outcome <;> cases h <;> rfl
    rw [hmanager]
    rcases hcases with ⟨-, -, rfl⟩ | ⟨hcurrent, -, rfl | ⟨state, -, hshown⟩⟩
    · exact ⟨rfl, Or.inl rfl⟩
    · exact ⟨rfl, Or.inl rfl⟩
    · exact ⟨hshown.jobs, Or.inr ⟨keepalive, _, by simp [view, hpc], hkeepalive, Or.inl hcurrent,
        hshown.keepalives⟩⟩
  case acquire =>
    rcases hacquire : m.acquire with ⟨m₁, outcome⟩
    simp only [hacquire] at h
    rcases acquire_cases hacquire with ⟨-, rfl, rfl⟩ | ⟨-, rfl, rfl⟩ <;> cases h <;>
      exact ⟨rfl, Or.inl rfl⟩
  case confirmRequest =>
    obtain ⟨m₁, outcome, hsection, h⟩ := h
    obtain ⟨keepalive, job, arbiter, hkeepalive, -, -, hcases⟩ :=
      confirmKeepaliveRequest_cases hsection
    have hmanager : effect.manager = m₁ := by cases outcome <;> cases h <;> rfl
    rw [hmanager]
    rcases hcases with ⟨-, -, rfl⟩ | ⟨hcurrent, -, -, rfl | ⟨state, -, hshown⟩⟩ |
      ⟨hcurrent, -, -, -, hshown⟩
    · exact ⟨rfl, Or.inl rfl⟩
    · exact ⟨rfl, Or.inl rfl⟩
    · exact ⟨hshown.jobs, Or.inr ⟨keepalive, _, by simp [view, hpc], hkeepalive, Or.inl hcurrent,
        hshown.keepalives⟩⟩
    · exact ⟨hshown.jobs, Or.inr ⟨keepalive, _, by simp [view, hpc], hkeepalive, Or.inl hcurrent,
        hshown.keepalives⟩⟩
  case releaseSlot changed => cases changed <;> cases h <;> exact ⟨rfl, Or.inl rfl⟩
  case finishProcess =>
    obtain ⟨m₁, hsection, h⟩ := h
    cases h
    have hshown := finishProcess_cases hsection
    exact ⟨hshown.jobs, Or.inl hshown.keepalives⟩
  case finishRequest =>
    obtain ⟨m₁, valid, hsection, h⟩ := h
    cases h
    obtain ⟨keepalive, hkeepalive, hcases⟩ := finishKeepaliveRequest_cases hsection
    rcases hcases with ⟨hcurrent, -, m₂, hrelease, hshown⟩ | ⟨-, -, hrelease⟩
    · have hjobs := hshown.jobs.trans (releaseTargetLocked_jobs hrelease)
      have hkeepalives := hshown.keepalives.trans (releaseTargetLocked_keepalives hrelease)
      exact ⟨hjobs, Or.inr ⟨keepalive, _, by simp [view, hpc], hkeepalive, Or.inl hcurrent,
          hkeepalives⟩⟩
    · exact ⟨releaseTargetLocked_jobs hrelease, Or.inl (releaseTargetLocked_keepalives hrelease)⟩
  case waitNext => split at h <;> cases h <;> exact ⟨rfl, Or.inl rfl⟩
  case awaitNext =>
    split_ifs at h
    · cases h
      exact ⟨rfl, Or.inl rfl⟩
    · rw [Option.bind_eq_some_iff] at h
      obtain ⟨_, -, h⟩ := h
      cases h
      exact ⟨rfl, Or.inl rfl⟩
  case markCancelled =>
    obtain ⟨m₁, hsection, h⟩ := h
    cases h
    obtain ⟨keepalive, m₂, hkeepalive, hrelease, hcases⟩ := markKeepaliveCancelled_cases hsection
    have hjobs := releaseTargetLocked_jobs hrelease
    have hkeepalives := releaseTargetLocked_keepalives hrelease
    rcases hcases with ⟨hcurrent, m₃, hsignal, hshown⟩ | ⟨-, rfl⟩
    · obtain ⟨arbiter, -, rfl⟩ := signalTargetLocked_cases hsignal
      refine ⟨hshown.jobs.trans hjobs,
        Or.inr ⟨keepalive, keepalive.cancelled input.now, by simp [view, hpc], hkeepalive,
            Or.inl hcurrent, ?_⟩⟩
      rw [hshown.keepalives, ← hkeepalives]
      rfl
    · exact ⟨hjobs, Or.inl hkeepalives⟩
  case finishWorker =>
    obtain ⟨m₁, hsection, h⟩ := h
    cases h
    rcases finishKeepaliveWorker_cases hsection with ⟨keepalive, hkeepalive, -, hshown⟩ | ⟨-, rfl⟩
    · exact ⟨hshown.jobs, Or.inr ⟨keepalive, _, by simp [view, hpc], hkeepalive, Or.inr rfl,
        hshown.keepalives⟩⟩
    · exact ⟨rfl, Or.inl rfl⟩
  case awaitTarget | awaitSlot =>
    obtain ⟨_, -, h⟩ := h
    cases h
    exact ⟨rfl, Or.inl rfl⟩
  case running | checkContext | workerDone =>
    cases h
    exact ⟨rfl, Or.inl rfl⟩
  case exited => cases h

/-- What a queue worker that goes to a program point records: nothing, the beginning of an attempt
or the success of its run while that is on, or the notification of what the success found. -/
inductive QueueWorker.Records (m : Manager) (self : Nat) (w : QueueWorker) (pc : QueuePC) :
    List Happening → Prop
  | nothing (hbefore : w.pc.success = none) (hafter : pc.success = none)
      (hleaving : w.pc.leaving = true → pc.leaving = true) : Records m self w pc []
  | began (hpc : w.pc = .beginAttempt) (hafter : pc.success = none) {job : Job}
      (hjob : m.jobs.lookup w.key = some job) (hcurrent : job.Current w.runID) :
      Records m self w pc [.began self]
  | succeeded {attempt : Nat} {target : Target} (hpc : w.pc = .markSuccess attempt target)
      {job : Job} (hjob : m.jobs.lookup w.key = some job) (hcurrent : job.Current w.runID)
      {success : Success} (hafter : pc.success = some success)
      (hsubscribers : success.subscribers = Table.values job.subscribers) :
      Records m self w pc [.succeeded self]
  | notified {success : Success} (hbefore : w.pc.success = some success)
      (hleaving : pc.leaving = true) (message : String) :
      Records m self w pc [.notified self message success.subscribers]

/-- A step of a queue worker records what `Records` allows. -/
theorem QueueWorker.step_records {w : QueueWorker} (h : w.step m self input = some effect) :
    ∃ pc, effect.proc = .queue { w with pc } ∧ w.Records m self pc effect.happenings := by
  have hstay : ∀ {pc : QueuePC}, w.pc.success = none → w.pc.leaving = false →
      pc.success = none → w.Records m self pc [] := by
    intro pc hbefore hstays hafter
    refine .nothing hbefore hafter fun hleaving ↦ ?_
    rw [hstays] at hleaving
    cases hleaving
  unfold QueueWorker.step at h
  cases hpc : w.pc <;>
    simp only [hpc, Option.bind_eq_bind, Option.bind_eq_some_iff, Prod.exists] at h hstay
  case acquireTarget =>
    obtain ⟨m₁, outcome, -, h⟩ := h
    cases outcome <;> cases h <;> exact ⟨_, rfl, hstay rfl rfl rfl⟩
  case acquire => split at h <;> cases h <;> exact ⟨_, rfl, hstay rfl rfl rfl⟩
  case beginAttempt =>
    obtain ⟨m₁, begun, hsection, h⟩ := h
    obtain ⟨job, arbiter, hjob, -, hcases⟩ := beginAttempt_cases hsection
    rcases hcases with ⟨hcurrent, -, rfl, -⟩ | ⟨-, rfl, -⟩ <;> cases h
    · exact ⟨_, rfl, .began hpc rfl hjob hcurrent⟩
    · exact ⟨_, rfl, hstay rfl rfl rfl⟩
  case markSuccess attempt target =>
    obtain ⟨m₁, success, hsection, h⟩ := h
    obtain ⟨job, hjob, hcases⟩ := markSuccess_cases hsection
    rcases hcases with ⟨hcurrent, rfl, -⟩ | ⟨-, rfl, -⟩ <;> cases h
    · exact ⟨_, rfl, .succeeded hpc hjob hcurrent rfl rfl⟩
    · exact ⟨_, rfl, hstay rfl rfl rfl⟩
  case notifySuccess attempt target success =>
    cases h
    exact ⟨_, rfl, .notified (by rw [hpc]; rfl) rfl _⟩
  case markFailure =>
    obtain ⟨m₁, valid, -, h⟩ := h
    cases valid <;> cases h <;> exact ⟨_, rfl, hstay rfl rfl rfl⟩
  case awaitTarget | awaitSlot =>
    obtain ⟨woken, -, h⟩ := h
    cases woken <;> cases h <;> exact ⟨_, rfl, hstay rfl rfl rfl⟩
  case finishProcess =>
    obtain ⟨m₁, -, h⟩ := h
    cases h
    refine ⟨_, rfl, hstay rfl rfl ?_⟩
    split_ifs <;> rfl
  case checkContext =>
    cases h
    refine ⟨_, rfl, hstay rfl rfl ?_⟩
    split_ifs <;> rfl
  case releaseTarget | markCancelled =>
    obtain ⟨m₁, -, h⟩ := h
    cases h
    exact ⟨_, rfl, hstay rfl rfl rfl⟩
  case finishWorker =>
    obtain ⟨m₁, -, h⟩ := h
    cases h
    exact ⟨_, rfl, .nothing (by rw [hpc]; rfl) rfl fun _ ↦ rfl⟩
  case running | releaseSlot =>
    cases h
    exact ⟨_, rfl, hstay rfl rfl rfl⟩
  case workerDone =>
    cases h
    exact ⟨_, rfl, .nothing (by rw [hpc]; rfl) rfl fun _ ↦ rfl⟩
  case exited => cases h

/-- A step of a keepalive worker records nothing, or the beginning of a request of the run that is
on. -/
theorem KeepaliveWorker.step_records {w : KeepaliveWorker}
    (h : w.step m self input = some effect) :
    effect.happenings = [] ∨ (effect.happenings = [.began self] ∧ w.pc = .confirmRequest ∧
      ∃ keepalive, m.keepalives.lookup w.key = some keepalive ∧ keepalive.Current w.runID) := by
  unfold KeepaliveWorker.step at h
  cases hpc : w.pc <;>
    simp only [hpc, Option.bind_eq_bind, Option.bind_eq_some_iff, Prod.exists] at h
  case beginRequest =>
    obtain ⟨m₁, outcome, -, h⟩ := h
    cases outcome <;> cases h <;> exact Or.inl rfl
  case confirmRequest =>
    obtain ⟨m₁, outcome, hsection, h⟩ := h
    obtain ⟨keepalive, job, arbiter, hkeepalive, -, -, hcases⟩ :=
      confirmKeepaliveRequest_cases hsection
    rcases hcases with ⟨-, rfl, -⟩ | ⟨-, rfl, -⟩ | ⟨hcurrent, rfl, -⟩ <;> cases h
    · exact Or.inl rfl
    · exact Or.inl rfl
    · exact Or.inr ⟨rfl, rfl, keepalive, hkeepalive, hcurrent⟩
  case acquire | waitNext => split at h <;> cases h <;> exact Or.inl rfl
  case releaseSlot changed => cases changed <;> cases h <;> exact Or.inl rfl
  case finishRequest =>
    obtain ⟨m₁, valid, -, h⟩ := h
    cases h
    exact Or.inl rfl
  case awaitNext =>
    split_ifs at h
    · cases h
      exact Or.inl rfl
    · rw [Option.bind_eq_some_iff] at h
      obtain ⟨_, -, h⟩ := h
      cases h
      exact Or.inl rfl
  case awaitTarget | awaitSlot | finishProcess | markCancelled | finishWorker =>
    obtain ⟨_, -, h⟩ := h
    cases h
    exact Or.inl rfl
  case running | checkContext | workerDone =>
    cases h
    exact Or.inl rfl
  case exited => cases h

/-- A step of a `RunAdhoc` call records nothing, or the beginning of its runner call. -/
theorem AdhocCall.step_records {call : AdhocCall} (h : call.step m self input = some effect) :
    effect.happenings = [] ∨ effect.happenings = [.began self] := by
  unfold AdhocCall.step at h
  cases hpc : call.pc <;>
    simp only [hpc, Option.bind_eq_bind, Option.bind_eq_some_iff, Prod.exists] at h
  case acquire => split at h <;> cases h <;> exact Or.inl rfl
  case confirm =>
    obtain ⟨m₁, confirmed, -, h⟩ := h
    split_ifs at h <;> cases h
    · exact Or.inr rfl
    · exact Or.inl rfl
  case awaitSlot | finishRequest =>
    obtain ⟨_, -, h⟩ := h
    cases h
    exact Or.inl rfl
  case checkContext | running | workerDone =>
    cases h
    exact Or.inl rfl
  case returned => cases h

/-! ### Who records what -/

/-- The worker or `RunAdhoc` call that something recorded is about. -/
def Happening.actor : Happening → Option Nat
  | .began worker | .succeeded worker | .notified worker _ _ => some worker
  | .started _ _ _ _ | .subscribed _ _ _ _ => none

omit [Go.NetURL] in
/-- What calls record is about no worker's own steps. -/
theorem StartCall.conclude_actor (call : StartCall) (key : String) (rest : List String)
    (outcome : StartOutcome) :
    ∀ happening ∈ (call.conclude m next self key rest outcome).happenings,
      happening.actor = none := by
  have hsubscription : ∀ (runID : Nat), ∀ happening ∈ call.kind.subscription self key runID,
      happening.actor = none := by
    intro runID happening hmem
    unfold StartKind.subscription at hmem
    split at hmem
    · split_ifs at hmem
      · cases hmem
      · rw [List.mem_singleton.mp hmem]
        rfl
    · cases hmem
  intro happening hmem
  cases outcome with
  | refused name => cases hmem
  | joined name runID => exact hsubscription runID happening hmem
  | retry => cases hmem
  | started name runID context =>
    rcases List.mem_cons.mp hmem with rfl | hmem
    · rfl
    · exact hsubscription runID happening hmem

/-- A step of a start call records nothing about a worker's own steps. -/
theorem StartCall.step_actor {call : StartCall} (h : call.step m next self input = some effect) :
    ∀ happening ∈ effect.happenings, happening.actor = none := by
  cases StartCall.step_takes h with
  | prepared | waited =>
    intro happening hmem
    cases hmem
  | rejected key rest m₁ outcome | committed key rest m₁ outcome =>
    exact call.conclude_actor key rest outcome

/-- Whatever a goroutine records about a worker's own steps, it records about itself. -/
theorem Proc.step_actor {proc : Proc} (h : proc.step m next self input = some effect) :
    ∀ happening ∈ effect.happenings, ∀ worker, happening.actor = some worker → worker = self := by
  have hone : ∀ {entry : Happening}, entry.actor = some self → ∀ happening ∈ [entry],
      ∀ worker, happening.actor = some worker → worker = self := by
    intro entry hentry happening hmem worker hactor
    rw [List.mem_singleton.mp hmem, hentry] at hactor
    exact (Option.some.inj hactor).symm
  have hnone : ∀ happening ∈ ([] : List Happening), ∀ worker, happening.actor = some worker →
      worker = self := fun happening hmem ↦ by cases hmem
  cases proc with
  | queue w =>
    obtain ⟨pc, -, hrecords⟩ := QueueWorker.step_records h
    generalize effect.happenings = happenings at hrecords ⊢
    cases hrecords with
    | nothing => exact hnone
    | began | succeeded | notified => exact hone rfl
  | keepalive w =>
    rcases KeepaliveWorker.step_records h with heq | ⟨heq, -⟩ <;> rw [heq]
    · exact hnone
    · exact hone rfl
  | adhoc call =>
    rcases AdhocCall.step_records h with heq | heq <;> rw [heq]
    · exact hnone
    · exact hone rfl
  | start call =>
    intro happening hmem worker hactor
    rw [StartCall.step_actor h happening hmem] at hactor
    cases hactor
  | edit call =>
    rw [(EditCall.step_proc h).2.2]
    exact hnone
  | wait call =>
    rw [(WaitCall.step_proc h).2.2.2]
    exact hnone

namespace System

variable {s s' : System} {label : Label}

/-- A step appends to the history, and records about a worker's own steps only when that worker
moves. -/
theorem step_trace (hstep : s.step label = some s') :
    ∃ happenings, s'.trace = s.trace ++ happenings ∧
      ∀ happening ∈ happenings, ∀ worker, happening.actor = some worker →
        ∃ input, label = .advance worker input := by
  by_cases hcall : ∀ self input, label ≠ .advance self input
  · refine ⟨[], ?_, fun _ hmem ↦ by cases hmem⟩
    rw [List.append_nil]
    exact (step_procs hstep hcall).1
  · push Not at hcall
    obtain ⟨self, input, rfl⟩ := hcall
    obtain ⟨proc, effect, hproc, heffect, rfl⟩ := step_advance hstep
    refine ⟨effect.happenings, rfl, fun happening hmem worker hactor ↦ ?_⟩
    obtain rfl := Proc.step_actor heffect happening hmem worker hactor
    exact ⟨input, rfl⟩

/-- A queue worker that is about to notify has recorded the success of its run. -/
theorem Reachable.succeeded_of_success (h : s.Reachable) {i : Nat} {w : QueueWorker}
    {success : Success} (hproc : s.procs[i]? = some (.queue w))
    (hsuccess : w.pc.success = some success) : .succeeded i ∈ s.trace := by
  have hall : ∀ (i : Nat) (w : QueueWorker) (success : Success),
      s.procs[i]? = some (.queue w) → w.pc.success = some success → .succeeded i ∈ s.trace := by
    refine h.induct (P := fun s ↦ ∀ (i : Nat) (w : QueueWorker) (success : Success),
      s.procs[i]? = some (.queue w) → w.pc.success = some success → .succeeded i ∈ s.trace) ?_ ?_
    · intro settings targets _ i w success hproc
      cases hproc
    · intro s s' label _ ih _ hstep i w' success hproc' hsuccess
      obtain ⟨happenings, htrace, -⟩ := step_trace hstep
      rcases step_proc_cases hstep hproc' with
        ⟨input, proc, effect, -, hproc, heffect, rfl, heq⟩ | ⟨hproc, -⟩ | ⟨-, hnewborn⟩
      · obtain ⟨w, _, rfl, -⟩ := Proc.step_queue heffect heq
        obtain ⟨pc, hmoved, hrecords⟩ := QueueWorker.step_records heffect
        obtain rfl := Proc.queue.inj (hmoved.symm.trans heq)
        replace hsuccess : pc.success = some success := hsuccess
        show _ ∈ s.trace ++ effect.happenings
        generalize effect.happenings = happenings at hrecords ⊢
        cases hrecords with
        | nothing _ hafter | began _ hafter =>
          rw [hafter] at hsuccess
          cases hsuccess
        | succeeded => exact List.mem_append_right _ (List.mem_singleton_self _)
        | notified _ hleaving =>
          rw [QueuePC.success_of_leaving hleaving] at hsuccess
          cases hsuccess
      · rw [htrace]
        exact List.mem_append_left _ (ih i w' success hproc hsuccess)
      · replace hnewborn : w'.pc = .acquireTarget := hnewborn
        rw [hnewborn] at hsuccess
        cases hsuccess
  exact hall i w success hproc hsuccess

end System

end CodexQueueBot.Jobs
