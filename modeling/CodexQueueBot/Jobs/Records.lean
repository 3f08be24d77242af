import CodexQueueBot.Jobs.History

/-!
# What a step does to the records of a target

The queue job and the keepalive job of a target are written by the two workers, by the calls that
start and stop tasks, by `UpdateSettings`, and by the edits of targets. `Job.Changes` and
`KeepaliveJob.Changes` list what a step of the system can write, with the program point that writes
it, and `step_job` and `step_keepalive` say that there is nothing else. What is said about records
over whole runs is read off these lists.
-/

set_option autoImplicit false
set_option relaxedAutoImplicit false

namespace CodexQueueBot.Jobs

open Lib

/-! ### What workers carry -/

/-- The result that a queue worker carries from its runner call to the section that judges it. -/
def QueuePC.result : QueuePC → Option Result
  | .finishProcess _ _ result | .checkContext result | .markFailure result => some result
  | _ => none

/-- The number of the attempt that a queue worker carries. -/
def QueuePC.attempt : QueuePC → Option Nat
  | .running attempt _ | .finishProcess attempt _ _ => some attempt
  | .markSuccess attempt _ | .notifySuccess attempt _ _ => some attempt
  | _ => none

/-- The result that a keepalive worker carries from its runner call to the section that judges
it. -/
def KeepalivePC.result : KeepalivePC → Option Result
  | .finishProcess result | .checkContext result | .finishRequest result => some result
  | _ => none

/-- A keepalive worker is on its way to the next request. -/
def KeepalivePC.seeks : KeepalivePC → Bool
  | .beginRequest | .awaitTarget _ | .acquire | .awaitSlot _ => true
  | .confirmRequest | .releaseSlot (some _) => true
  | _ => false

/-- A keepalive worker on its way to a request carries no result. -/
theorem KeepalivePC.result_eq_none_of_seeks {pc : KeepalivePC} (h : pc.seeks = true) :
    pc.result = none := by
  cases pc <;> first | rfl | cases h

/-- The time of the next request that a keepalive worker waits for. -/
def KeepalivePC.deadline : KeepalivePC → Option Time
  | .awaitNext nextRequest _ => some nextRequest
  | _ => none

/-- A keepalive worker on its way to a request waits for no time. -/
theorem KeepalivePC.deadline_eq_none_of_seeks {pc : KeepalivePC} (h : pc.seeks = true) :
    pc.deadline = none := by
  cases pc <;> first | rfl | cases h

/-! ### Steps of queue workers -/

section

variable [Go.NetURL] {m : Manager} {next self : Nat} {input : Input} {effect : Effect}

open Manager

omit [Go.NetURL] in
/-- The jobs and the keepalive jobs are the same. -/
def Manager.SameJobs (m m' : Manager) : Prop :=
  m'.jobs = m.jobs ∧ m'.keepalives = m.keepalives

omit [Go.NetURL] in
/-- A release changes no job. -/
theorem Manager.SameJobs.of_release {m' : Manager} {key : String} {owner : RequestOwner}
    {runID : Nat} (h : m.releaseTargetLocked key owner runID = some m') : m.SameJobs m' :=
  ⟨releaseTargetLocked_jobs h, releaseTargetLocked_keepalives h⟩

omit [Go.NetURL] in
/-- A broadcast changes no job. -/
theorem Manager.Shown.sameJobs {m' : Manager} (h : m.Shown m') : m.SameJobs m' :=
  ⟨h.jobs, h.keepalives⟩

omit [Go.NetURL] in
/-- Changes of no job compose. -/
theorem Manager.SameJobs.trans {m₁ m₂ : Manager} (h : m.SameJobs m₁)
    (h' : m₁.SameJobs m₂) : m.SameJobs m₂ :=
  ⟨h'.1.trans h.1, h'.2.trans h.2⟩

/-- What a step of a queue worker does: it passes to another program point without touching the
jobs, or it writes its job. -/
inductive QueueWorker.Takes (m : Manager) (self : Nat) (w : QueueWorker) (input : Input) :
    Effect → Prop
  | passed (m₁ : Manager) (pc : QueuePC) (hsame : m.SameJobs m₁)
      (hresult : pc.result = none ∨ pc.result = w.pc.result)
      (hattempt : pc.attempt = none ∨ pc.attempt = w.pc.attempt) :
      Takes m self w input { manager := m₁, proc := .queue { w with pc } }
  | began (m₁ : Manager) (job : Job) (hpc : w.pc = .beginAttempt)
      (hjob : m.jobs.lookup w.key = some job) (hcurrent : job.Current w.runID)
      (hwrote : (m.setJob w.key (job.attempted input.now)).SameJobs m₁) :
      Takes m self w input
        { manager := m₁
          proc := .queue { w with pc := .running (job.attempts + 1) (m.target w.key) }
          happenings := [.began self] }
  | returned (attempt : Nat) (target : Target) (hpc : w.pc = .running attempt target) :
      Takes m self w input
        { manager := m
          proc := .queue { w with pc := .finishProcess attempt target input.result } }
  | failed (m₁ : Manager) (job : Job) (result : Result) (hpc : w.pc = .markFailure result)
      (hjob : m.jobs.lookup w.key = some job) (hcurrent : job.Current w.runID)
      (hwrote : (m.setJob w.key (job.failed (sanitizeTargetError (m.target w.key)
        result.error))).SameJobs m₁) :
      Takes m self w input { manager := m₁, proc := .queue { w with pc := .acquireTarget } }
  | succeeded (m₁ : Manager) (job : Job) (attempt : Nat) (target : Target)
      (hpc : w.pc = .markSuccess attempt target) (hjob : m.jobs.lookup w.key = some job)
      (hcurrent : job.Current w.runID)
      (hwrote : (m.setJob w.key (job.succeeded input.now)).SameJobs m₁) :
      Takes m self w input
        { manager := m₁
          proc := .queue { w with
            pc := .notifySuccess attempt target
              ⟨Table.values job.subscribers, input.now - job.startedAt⟩ }
          happenings := [.succeeded self] }
  | notified (attempt : Nat) (target : Target) (success : Success)
      (hpc : w.pc = .notifySuccess attempt target success) :
      Takes m self w input
        { manager := m
          proc := .queue { w with pc := .finishWorker }
          happenings := [.notified self (m.notifySuccess target.name attempt success.elapsed)
            success.subscribers] }
  | cancelled (m₁ : Manager) (job : Job) (holding : Bool) (hpc : w.pc = .markCancelled holding)
      (hjob : m.jobs.lookup w.key = some job) (hcurrent : job.Current w.runID)
      (hwrote : (m.setJob w.key (job.cancelled input.now)).SameJobs m₁) :
      Takes m self w input { manager := m₁, proc := .queue { w with pc := .finishWorker } }
  | finished (m₁ : Manager) (job : Job) (hpc : w.pc = .finishWorker)
      (hjob : m.jobs.lookup w.key = some job)
      (hwrote : (m.setJob w.key { job with workers := job.workers - 1 }).SameJobs m₁) :
      Takes m self w input { manager := m₁, proc := .queue { w with pc := .workerDone } }

/-- The sections of a queue worker. -/
theorem QueueWorker.step_takes {w : QueueWorker} (h : w.step m self input = some effect) :
    w.Takes m self input effect := by
  unfold QueueWorker.step at h
  cases hpc : w.pc <;>
    simp only [hpc, Option.bind_eq_bind, Option.bind_eq_some_iff, Prod.exists] at h
  case acquireTarget =>
    obtain ⟨m₁, outcome, hsection, h⟩ := h
    obtain ⟨job, arbiter, -, -, hcases⟩ := acquireQueueTarget_cases hsection
    rcases hcases with ⟨-, rfl, rfl⟩ | ⟨-, -, rfl, rfl⟩ | ⟨-, -, rfl, rfl⟩ <;> cases h <;>
      exact .passed _ _ ⟨rfl, rfl⟩ (Or.inl rfl) (Or.inl rfl)
  case acquire =>
    rcases hacquire : m.acquire with ⟨m₁, outcome⟩
    simp only [hacquire] at h
    rcases acquire_cases hacquire with ⟨-, rfl, rfl⟩ | ⟨-, rfl, rfl⟩ <;> cases h <;>
      exact .passed _ _ ⟨rfl, rfl⟩ (Or.inl rfl) (Or.inl rfl)
  case awaitTarget | awaitSlot =>
    obtain ⟨woken, -, h⟩ := h
    cases woken <;> cases h <;> exact .passed _ _ ⟨rfl, rfl⟩ (Or.inl rfl) (Or.inl rfl)
  case beginAttempt =>
    obtain ⟨m₁, begun, hsection, h⟩ := h
    obtain ⟨job, arbiter, hjob, -, hcases⟩ := beginAttempt_cases hsection
    rcases hcases with ⟨hcurrent, -, rfl, hshown⟩ | ⟨-, rfl, rfl⟩ <;> cases h
    · exact .began m₁ job hpc hjob hcurrent hshown.sameJobs
    · exact .passed _ _ ⟨rfl, rfl⟩ (Or.inl rfl) (Or.inl rfl)
  case running attempt target =>
    cases h
    exact .returned attempt target hpc
  case finishProcess attempt target result =>
    obtain ⟨m₁, hsection, h⟩ := h
    cases h
    have hshown := (finishProcess_cases hsection).sameJobs
    split_ifs
    · exact .passed _ _ hshown (Or.inl rfl) (Or.inr (by rw [hpc]; rfl))
    · exact .passed _ _ hshown (Or.inr (by rw [hpc]; rfl)) (Or.inl rfl)
  case markSuccess attempt target =>
    obtain ⟨m₁, success, hsection, h⟩ := h
    obtain ⟨job, hjob, hcases⟩ := markSuccess_cases hsection
    rcases hcases with ⟨hcurrent, rfl, m₂, hrelease, hshown⟩ | ⟨-, rfl, hrelease⟩ <;> cases h
    · have hsame := (SameJobs.of_release hrelease).trans hshown.sameJobs
      have hwrote : (m.setJob w.key (job.succeeded input.now)).SameJobs m₁ := by
        refine ⟨hsame.1.trans ?_, hsame.2.trans ?_⟩
        · exact callCancel_jobs _
        · exact callCancel_keepalives _
      exact .succeeded m₁ job attempt target hpc hjob hcurrent hwrote
    · exact .passed _ _ (.of_release hrelease) (Or.inl rfl) (Or.inl rfl)
  case notifySuccess attempt target success =>
    cases h
    exact .notified attempt target success hpc
  case checkContext result =>
    cases h
    split_ifs
    · exact .passed _ _ ⟨rfl, rfl⟩ (Or.inl rfl) (Or.inl rfl)
    · exact .passed _ _ ⟨rfl, rfl⟩ (Or.inr (by rw [hpc]; rfl)) (Or.inl rfl)
  case markFailure result =>
    obtain ⟨m₁, valid, hsection, h⟩ := h
    obtain ⟨job, hjob, hcases⟩ := markFailure_cases hsection
    rcases hcases with ⟨hcurrent, rfl, m₂, hrelease, hshown⟩ | ⟨-, rfl, hrelease⟩ <;> cases h
    · exact .failed m₁ job result hpc hjob hcurrent
        ((SameJobs.of_release hrelease).trans hshown.sameJobs)
    · exact .passed _ _ (.of_release hrelease) (Or.inl rfl) (Or.inl rfl)
  case releaseSlot =>
    cases h
    exact .passed _ _ ⟨rfl, rfl⟩ (Or.inl rfl) (Or.inl rfl)
  case releaseTarget =>
    obtain ⟨m₁, hrelease, h⟩ := h
    cases h
    exact .passed _ _ (.of_release hrelease) (Or.inl rfl) (Or.inl rfl)
  case markCancelled holding =>
    obtain ⟨m₁, hsection, h⟩ := h
    cases h
    obtain ⟨job, m₂, hjob, hrelease, hcases⟩ := markQueueCancelled_cases hsection
    have hsame := SameJobs.of_release hrelease
    rcases hcases with ⟨hcurrent, m₃, hsignal, hshown⟩ | ⟨-, rfl⟩
    · obtain ⟨arbiter, -, rfl⟩ := signalTargetLocked_cases hsignal
      refine .cancelled m₁ job holding hpc hjob hcurrent ⟨hshown.jobs.trans ?_,
        hshown.keepalives.trans hsame.2⟩
      show m₂.jobs.insert w.key _ = m.jobs.insert w.key _
      rw [hsame.1]
    · exact .passed _ _ hsame (Or.inl rfl) (Or.inl rfl)
  case finishWorker =>
    obtain ⟨m₁, hsection, h⟩ := h
    cases h
    rcases finishQueueWorker_cases hsection with ⟨job, hjob, -, hshown⟩ | ⟨-, rfl⟩
    · exact .finished m₁ job hpc hjob hshown.sameJobs
    · exact .passed _ _ ⟨rfl, rfl⟩ (Or.inl rfl) (Or.inl rfl)
  case workerDone =>
    cases h
    exact .passed _ _ ⟨rfl, rfl⟩ (Or.inl rfl) (Or.inl rfl)
  case exited => cases h

/-! ### Steps of keepalive workers -/

/-- What a step of a keepalive worker does: it passes to another program point without touching the
jobs, it finds out when the next request is due, or it writes its job. -/
inductive KeepaliveWorker.Takes (m : Manager) (self : Nat) (w : KeepaliveWorker) (input : Input) :
    Effect → Prop
  | passed (m₁ : Manager) (pc : KeepalivePC) (hsame : m.SameJobs m₁)
      (hresult : pc.result = none ∨ pc.result = w.pc.result)
      (hseeks : pc.seeks = true → w.pc.seeks = true) (hdeadline : pc.deadline = none)
      (hwaits : pc = .waitNext → w.pc.deadline ≠ none) :
      Takes m self w input { manager := m₁, proc := .keepalive { w with pc } }
  | watched (m₁ : Manager) (keepalive : KeepaliveJob) (state : KeepaliveState) (pc : KeepalivePC)
      (hkeepalive : m.keepalives.lookup w.key = some keepalive)
      (hcurrent : keepalive.Current w.runID) (hstate : state ≠ .stopped)
      (hwrote : (m.setKeepalive w.key { keepalive with state }).SameJobs m₁)
      (hbefore : w.pc.seeks = true) (hafter : pc.seeks = true) :
      Takes m self w input { manager := m₁, proc := .keepalive { w with pc } }
  | began (m₁ : Manager) (keepalive : KeepaliveJob) (hpc : w.pc = .confirmRequest)
      (hkeepalive : m.keepalives.lookup w.key = some keepalive)
      (hcurrent : keepalive.Current w.runID)
      (hwrote : (m.setKeepalive w.key (keepalive.requested input.now)).SameJobs m₁) :
      Takes m self w input
        { manager := m₁
          proc := .keepalive { w with pc := .running (keepalive.requests + 1) (m.target w.key) }
          happenings := [.began self] }
  | returned (request : Nat) (target : Target) (hpc : w.pc = .running request target) :
      Takes m self w input
        { manager := m, proc := .keepalive { w with pc := .finishProcess input.result } }
  | judged (m₁ : Manager) (keepalive : KeepaliveJob) (result : Result)
      (hpc : w.pc = .finishRequest result)
      (hkeepalive : m.keepalives.lookup w.key = some keepalive)
      (hcurrent : keepalive.Current w.runID)
      (hwrote : (m.setKeepalive w.key (keepalive.judged result.success
        (sanitizeTargetError (m.target w.key) result.error) input.now
        (input.now + randomDuration m.keepaliveMin m.keepaliveMax input.draw))).SameJobs m₁) :
      Takes m self w input { manager := m₁, proc := .keepalive { w with pc := .waitNext } }
  | scheduled (keepalive : KeepaliveJob) (hpc : w.pc = .waitNext)
      (hkeepalive : m.keepalives.lookup w.key = some keepalive)
      (hcurrent : keepalive.Current w.runID) (hlate : input.now < keepalive.nextRequest) :
      Takes m self w input
        { manager := m
          proc := .keepalive { w with
            pc := .awaitNext keepalive.nextRequest keepalive.scheduleChanged } }
  | due (keepalive : KeepaliveJob) (hpc : w.pc = .waitNext)
      (hkeepalive : m.keepalives.lookup w.key = some keepalive)
      (hcurrent : keepalive.Current w.runID) (hdue : keepalive.nextRequest ≤ input.now) :
      Takes m self w input { manager := m, proc := .keepalive { w with pc := .beginRequest } }
  | fired (nextRequest : Time) (changed : Nat) (hpc : w.pc = .awaitNext nextRequest changed)
      (hdue : nextRequest ≤ input.now) :
      Takes m self w input { manager := m, proc := .keepalive { w with pc := .beginRequest } }
  | cancelled (m₁ : Manager) (keepalive : KeepaliveJob) (holding : Bool)
      (hpc : w.pc = .markCancelled holding)
      (hkeepalive : m.keepalives.lookup w.key = some keepalive)
      (hcurrent : keepalive.Current w.runID)
      (hwrote : (m.setKeepalive w.key (keepalive.cancelled input.now)).SameJobs m₁) :
      Takes m self w input { manager := m₁, proc := .keepalive { w with pc := .finishWorker } }
  | finished (m₁ : Manager) (keepalive : KeepaliveJob) (hpc : w.pc = .finishWorker)
      (hkeepalive : m.keepalives.lookup w.key = some keepalive)
      (hwrote : (m.setKeepalive w.key
        { keepalive with workers := keepalive.workers - 1 }).SameJobs m₁) :
      Takes m self w input { manager := m₁, proc := .keepalive { w with pc := .workerDone } }

/-- The sections of a keepalive worker. -/
theorem KeepaliveWorker.step_takes {w : KeepaliveWorker} (h : w.step m self input = some effect) :
    w.Takes m self input effect := by
  have hseek : ∀ (m₁ : Manager) (pc : KeepalivePC), w.pc.seeks = true → m.SameJobs m₁ →
      pc.result = none → pc.deadline = none → pc ≠ .waitNext →
      w.Takes m self input { manager := m₁, proc := .keepalive { w with pc } } :=
    fun m₁ pc hseeks hsame hresult hdeadline hwaits ↦
      .passed m₁ pc hsame (Or.inl hresult) (fun _ ↦ hseeks) hdeadline fun heq ↦ absurd heq hwaits
  unfold KeepaliveWorker.step at h
  cases hpc : w.pc <;>
    simp only [hpc, Option.bind_eq_bind, Option.bind_eq_some_iff, Prod.exists] at h hseek
  case beginRequest =>
    obtain ⟨m₁, outcome, hsection, h⟩ := h
    obtain ⟨keepalive, job, arbiter, hkeepalive, -, -, hcases⟩ :=
      beginKeepaliveRequest_cases hsection
    have hbefore : w.pc.seeks = true := by rw [hpc]; rfl
    rcases hcases with ⟨-, rfl, rfl⟩ |
      ⟨hcurrent, ⟨rfl, -⟩ | ⟨rfl, -⟩, rfl | ⟨state, hstate, hshown⟩⟩ <;> cases h
    · exact hseek _ _ rfl ⟨rfl, rfl⟩ rfl rfl (by nofun)
    · exact hseek _ _ rfl ⟨rfl, rfl⟩ rfl rfl (by nofun)
    · exact .watched m₁ keepalive state _ hkeepalive hcurrent hstate hshown.sameJobs hbefore rfl
    · exact hseek _ _ rfl ⟨rfl, rfl⟩ rfl rfl (by nofun)
    · exact .watched m₁ keepalive state _ hkeepalive hcurrent hstate hshown.sameJobs hbefore rfl
  case acquire =>
    rcases hacquire : m.acquire with ⟨m₁, outcome⟩
    simp only [hacquire] at h
    rcases acquire_cases hacquire with ⟨-, rfl, rfl⟩ | ⟨-, rfl, rfl⟩ <;> cases h <;>
      exact hseek _ _ rfl ⟨rfl, rfl⟩ rfl rfl (by nofun)
  case awaitTarget | awaitSlot =>
    obtain ⟨woken, -, h⟩ := h
    cases woken <;> cases h <;> exact hseek _ _ rfl ⟨rfl, rfl⟩ rfl rfl (by nofun)
  case confirmRequest =>
    obtain ⟨m₁, outcome, hsection, h⟩ := h
    obtain ⟨keepalive, job, arbiter, hkeepalive, -, -, hcases⟩ :=
      confirmKeepaliveRequest_cases hsection
    have hbefore : w.pc.seeks = true := by rw [hpc]; rfl
    rcases hcases with ⟨-, rfl, rfl⟩ | ⟨hcurrent, rfl, -, rfl | ⟨state, hstate, hshown⟩⟩ |
      ⟨hcurrent, rfl, -, -, hshown⟩ <;> cases h
    · exact hseek _ _ rfl ⟨rfl, rfl⟩ rfl rfl (by nofun)
    · exact hseek _ _ rfl ⟨rfl, rfl⟩ rfl rfl (by nofun)
    · exact .watched m₁ keepalive state _ hkeepalive hcurrent hstate hshown.sameJobs hbefore rfl
    · exact .began m₁ keepalive hpc hkeepalive hcurrent hshown.sameJobs
  case releaseSlot changed =>
    cases changed with
    | none =>
      cases h
      exact .passed _ _ ⟨rfl, rfl⟩ (Or.inl rfl) (by nofun) rfl (by nofun)
    | some changed =>
      cases h
      exact hseek _ _ rfl ⟨rfl, rfl⟩ rfl rfl (by nofun)
  case running request target =>
    cases h
    exact .returned request target hpc
  case finishProcess result =>
    obtain ⟨m₁, hsection, h⟩ := h
    cases h
    exact .passed _ _ (finishProcess_cases hsection).sameJobs (Or.inr (by rw [hpc]; rfl))
      (by nofun) rfl (by nofun)
  case checkContext result =>
    cases h
    split_ifs
    · exact .passed _ _ ⟨rfl, rfl⟩ (Or.inl rfl) (by nofun) rfl (by nofun)
    · exact .passed _ _ ⟨rfl, rfl⟩ (Or.inr (by rw [hpc]; rfl)) (by nofun) rfl (by nofun)
  case finishRequest result =>
    obtain ⟨m₁, valid, hsection, h⟩ := h
    obtain ⟨keepalive, hkeepalive, hcases⟩ := finishKeepaliveRequest_cases hsection
    rcases hcases with ⟨hcurrent, rfl, m₂, hrelease, hshown⟩ | ⟨-, rfl, hrelease⟩ <;> cases h
    · exact .judged m₁ keepalive result hpc hkeepalive hcurrent
        ((SameJobs.of_release hrelease).trans hshown.sameJobs)
    · exact .passed _ _ (.of_release hrelease) (Or.inl rfl) (by nofun) rfl (by nofun)
  case waitNext =>
    cases hsection : m.waitKeepaliveNext w.key w.runID with
    | none =>
      simp only [hsection] at h
      cases h
      exact .passed _ _ ⟨rfl, rfl⟩ (Or.inl rfl) (by nofun) rfl (by nofun)
    | some found =>
      obtain ⟨nextRequest, changed⟩ := found
      obtain ⟨keepalive, hkeepalive, hcurrent, rfl, rfl⟩ := waitKeepaliveNext_cases hsection
      simp only [hsection] at h
      cases h
      split_ifs with hdue
      · exact .due keepalive hpc hkeepalive hcurrent hdue
      · exact .scheduled keepalive hpc hkeepalive hcurrent (not_le.mp hdue)
  case awaitNext nextRequest changed =>
    split_ifs at h with htimer hdue
    · cases h
      exact .fired nextRequest changed hpc hdue
    · obtain ⟨woken, -, h⟩ := Option.bind_eq_some_iff.mp h
      cases woken <;> cases h <;>
        exact .passed _ _ ⟨rfl, rfl⟩ (Or.inl rfl) (by nofun) rfl (by rw [hpc]; nofun)
  case markCancelled holding =>
    obtain ⟨m₁, hsection, h⟩ := h
    cases h
    obtain ⟨keepalive, m₂, hkeepalive, hrelease, hcases⟩ := markKeepaliveCancelled_cases hsection
    have hsame := SameJobs.of_release hrelease
    rcases hcases with ⟨hcurrent, m₃, hsignal, hshown⟩ | ⟨-, rfl⟩
    · obtain ⟨arbiter, -, rfl⟩ := signalTargetLocked_cases hsignal
      refine .cancelled m₁ keepalive holding hpc hkeepalive hcurrent
        ⟨hshown.jobs.trans hsame.1, hshown.keepalives.trans ?_⟩
      show m₂.keepalives.insert w.key _ = m.keepalives.insert w.key _
      rw [hsame.2]
    · exact .passed _ _ hsame (Or.inl rfl) (by nofun) rfl (by nofun)
  case finishWorker =>
    obtain ⟨m₁, hsection, h⟩ := h
    cases h
    rcases finishKeepaliveWorker_cases hsection with ⟨keepalive, hkeepalive, -, hshown⟩ | ⟨-, rfl⟩
    · exact .finished m₁ keepalive hpc hkeepalive hshown.sameJobs
    · exact .passed _ _ ⟨rfl, rfl⟩ (Or.inl rfl) (by nofun) rfl (by nofun)
  case workerDone =>
    cases h
    exact .passed _ _ ⟨rfl, rfl⟩ (Or.inl rfl) (by nofun) rfl (by nofun)
  case exited => cases h

/-- A section of a `RunAdhoc` call touches no job. -/
theorem AdhocCall.step_same {call : AdhocCall} (h : call.step m self input = some effect) :
    m.SameJobs effect.manager := by
  unfold AdhocCall.step at h
  cases hpc : call.pc <;>
    simp only [hpc, Option.bind_eq_bind, Option.bind_eq_some_iff, Prod.exists] at h
  case acquire =>
    rcases hacquire : m.acquire with ⟨m₁, outcome⟩
    simp only [hacquire] at h
    rcases acquire_cases hacquire with ⟨-, rfl, rfl⟩ | ⟨-, rfl, rfl⟩ <;> cases h <;>
      exact ⟨rfl, rfl⟩
  case confirm =>
    obtain ⟨m₁, confirmed, hsection, h⟩ := h
    have hmanager : effect.manager = m₁ := by split_ifs at h <;> cases h <;> rfl
    rw [hmanager]
    rcases confirmAdhoc_cases hsection with ⟨-, _, -, -, hshown⟩ | ⟨-, rfl, -⟩
    · exact ⟨hshown.jobs, hshown.keepalives⟩
    · exact ⟨rfl, rfl⟩
  case finishRequest =>
    obtain ⟨m₁, hsection, h⟩ := h
    cases h
    have hgive : ∀ slotAcquired processStarted, (m.callCancel (some call.context)).SameJobs
        (((m.callCancel (some call.context)).giveBackProcess processStarted).giveBackSlot
          slotAcquired) := by
      intro slotAcquired processStarted
      unfold giveBackSlot giveBackProcess
      split_ifs <;> exact ⟨rfl, rfl⟩
    have hcancel : m.SameJobs (m.callCancel (some call.context)) := ⟨rfl, rfl⟩
    rcases finishAdhocRequest_cases hsection with ⟨arbiter, -, -, hshown⟩ | ⟨-, hshown⟩ <;>
      exact (hcancel.trans (hgive _ _)).trans ⟨hshown.jobs, hshown.keepalives⟩
  case awaitSlot =>
    obtain ⟨_, -, h⟩ := h
    cases h
    exact ⟨rfl, rfl⟩
  case checkContext | running | workerDone =>
    cases h
    exact ⟨rfl, rfl⟩
  case returned => cases h

/-! ### What workers write -/

/-- What a queue worker writes into the job of its target. -/
inductive QueueWorker.Writes (m : Manager) (w : QueueWorker) (input : Input) (job : Job) :
    Job → Prop
  | attempted (hpc : w.pc = .beginAttempt) (hcurrent : job.Current w.runID) :
      Writes m w input job (job.attempted input.now)
  | failed (result : Result) (hpc : w.pc = .markFailure result)
      (hcurrent : job.Current w.runID) :
      Writes m w input job (job.failed (sanitizeTargetError (m.target w.key) result.error))
  | succeeded (attempt : Nat) (target : Target) (hpc : w.pc = .markSuccess attempt target)
      (hcurrent : job.Current w.runID) : Writes m w input job (job.succeeded input.now)
  | cancelled (holding : Bool) (hpc : w.pc = .markCancelled holding)
      (hcurrent : job.Current w.runID) : Writes m w input job (job.cancelled input.now)
  | finished (hpc : w.pc = .finishWorker) :
      Writes m w input job { job with workers := job.workers - 1 }

/-- What a keepalive worker writes into the keepalive job of its target. -/
inductive KeepaliveWorker.Writes (m : Manager) (w : KeepaliveWorker) (input : Input)
    (keepalive : KeepaliveJob) : KeepaliveJob → Prop
  | watched (state : KeepaliveState) (hseeks : w.pc.seeks = true) (hstate : state ≠ .stopped)
      (hcurrent : keepalive.Current w.runID) : Writes m w input keepalive { keepalive with state }
  | requested (hpc : w.pc = .confirmRequest) (hcurrent : keepalive.Current w.runID) :
      Writes m w input keepalive (keepalive.requested input.now)
  | judged (result : Result) (hpc : w.pc = .finishRequest result)
      (hcurrent : keepalive.Current w.runID) :
      Writes m w input keepalive (keepalive.judged result.success
        (sanitizeTargetError (m.target w.key) result.error) input.now
        (input.now + randomDuration m.keepaliveMin m.keepaliveMax input.draw))
  | cancelled (holding : Bool) (hpc : w.pc = .markCancelled holding)
      (hcurrent : keepalive.Current w.runID) :
      Writes m w input keepalive (keepalive.cancelled input.now)
  | finished (hpc : w.pc = .finishWorker) :
      Writes m w input keepalive { keepalive with workers := keepalive.workers - 1 }

omit [Go.NetURL] in
/-- A queue worker leaves the keepalive jobs alone, and writes its own job if any. -/
theorem QueueWorker.Takes.writes {w : QueueWorker} (h : w.Takes m self input effect) :
    effect.manager.keepalives = m.keepalives ∧ (effect.manager.jobs = m.jobs ∨
      ∃ job job', m.jobs.lookup w.key = some job ∧ w.Writes m input job job' ∧
        effect.manager.jobs = m.jobs.insert w.key job') := by
  cases h with
  | passed m₁ pc hsame => exact ⟨hsame.2, Or.inl hsame.1⟩
  | returned | notified => exact ⟨rfl, Or.inl rfl⟩
  | began m₁ job hpc hjob hcurrent hwrote =>
    exact ⟨hwrote.2, Or.inr ⟨job, _, hjob, .attempted hpc hcurrent, hwrote.1⟩⟩
  | failed m₁ job result hpc hjob hcurrent hwrote =>
    exact ⟨hwrote.2, Or.inr ⟨job, _, hjob, .failed result hpc hcurrent, hwrote.1⟩⟩
  | succeeded m₁ job attempt target hpc hjob hcurrent hwrote =>
    exact ⟨hwrote.2, Or.inr ⟨job, _, hjob, .succeeded attempt target hpc hcurrent, hwrote.1⟩⟩
  | cancelled m₁ job holding hpc hjob hcurrent hwrote =>
    exact ⟨hwrote.2, Or.inr ⟨job, _, hjob, .cancelled holding hpc hcurrent, hwrote.1⟩⟩
  | finished m₁ job hpc hjob hwrote =>
    exact ⟨hwrote.2, Or.inr ⟨job, _, hjob, .finished hpc, hwrote.1⟩⟩

omit [Go.NetURL] in
/-- A keepalive worker leaves the queue jobs alone, and writes its own job if any. -/
theorem KeepaliveWorker.Takes.writes {w : KeepaliveWorker} (h : w.Takes m self input effect) :
    effect.manager.jobs = m.jobs ∧ (effect.manager.keepalives = m.keepalives ∨
      ∃ keepalive keepalive', m.keepalives.lookup w.key = some keepalive ∧
        w.Writes m input keepalive keepalive' ∧
        effect.manager.keepalives = m.keepalives.insert w.key keepalive') := by
  cases h with
  | passed m₁ pc hsame => exact ⟨hsame.1, Or.inl hsame.2⟩
  | returned | scheduled | due | fired => exact ⟨rfl, Or.inl rfl⟩
  | watched m₁ keepalive state pc hkeepalive hcurrent hstate hwrote hbefore =>
    exact ⟨hwrote.1, Or.inr ⟨keepalive, _, hkeepalive, .watched state hbefore hstate hcurrent,
      hwrote.2⟩⟩
  | began m₁ keepalive hpc hkeepalive hcurrent hwrote =>
    exact ⟨hwrote.1, Or.inr ⟨keepalive, _, hkeepalive, .requested hpc hcurrent, hwrote.2⟩⟩
  | judged m₁ keepalive result hpc hkeepalive hcurrent hwrote =>
    exact ⟨hwrote.1, Or.inr ⟨keepalive, _, hkeepalive, .judged result hpc hcurrent, hwrote.2⟩⟩
  | cancelled m₁ keepalive holding hpc hkeepalive hcurrent hwrote =>
    exact ⟨hwrote.1, Or.inr ⟨keepalive, _, hkeepalive, .cancelled holding hpc hcurrent, hwrote.2⟩⟩
  | finished m₁ keepalive hpc hkeepalive hwrote =>
    exact ⟨hwrote.1, Or.inr ⟨keepalive, _, hkeepalive, .finished hpc, hwrote.2⟩⟩

/-! ### What calls write -/

/-- What any number of `stopQueueLocked` can do to a job. -/
inductive Job.Stopped (now : Time) (job : Job) : Job → Prop
  | kept : Stopped now job job
  | again {job' : Job} (h : Stopped now job job') : Stopped now job (stopJob job' now)

/-- What any number of `stopKeepaliveLocked` can do to a keepalive job. -/
inductive KeepaliveJob.Stopped (now : Time) (keepalive : KeepaliveJob) : KeepaliveJob → Prop
  | kept : Stopped now keepalive keepalive
  | again {keepalive' : KeepaliveJob} (h : Stopped now keepalive keepalive') :
      Stopped now keepalive (stopKeepaliveJob keepalive' now)

/-- What the loop of `UpdateSettings` can do to a keepalive job. -/
inductive KeepaliveJob.Rescheduled (nextRequest : Time) (keepalive : KeepaliveJob) :
    KeepaliveJob → Prop
  | kept : Rescheduled nextRequest keepalive keepalive
  | again {keepalive' : KeepaliveJob} (h : Rescheduled nextRequest keepalive keepalive')
      (hwaiting : keepalive'.state = .waitingNext) (scheduleChanged : Nat) :
      Rescheduled nextRequest keepalive { keepalive' with nextRequest, scheduleChanged }

/-- Every record that is found after a change was there before, with what it was. -/
structure Manager.Rewrites (jobs : String → Job → Job → Prop)
    (keepalives : String → KeepaliveJob → KeepaliveJob → Prop) (m m' : Manager) : Prop where
  jobs : ∀ key job', m'.jobs.lookup key = some job' →
    ∃ job, m.jobs.lookup key = some job ∧ jobs key job job'
  keepalives : ∀ key keepalive', m'.keepalives.lookup key = some keepalive' →
    ∃ keepalive, m.keepalives.lookup key = some keepalive ∧ keepalives key keepalive keepalive'

section

omit [Go.NetURL]

variable {m' m₁ : Manager} {jobs : String → Job → Job → Prop}
  {keepalives : String → KeepaliveJob → KeepaliveJob → Prop} {now : Time}

/-- What changes no record rewrites none. -/
theorem Manager.SameJobs.rewrites (h : m.SameJobs m') (hjobs : ∀ key job, jobs key job job)
    (hkeepalives : ∀ key keepalive, keepalives key keepalive keepalive) :
    m.Rewrites jobs keepalives m' := by
  refine ⟨fun key job' hjob ↦ ⟨job', ?_, hjobs key job'⟩,
    fun key keepalive' hkeepalive ↦ ⟨keepalive', ?_, hkeepalives key keepalive'⟩⟩
  · rw [← h.1]
    exact hjob
  · rw [← h.2]
    exact hkeepalive

/-- A job that is written in its place. -/
theorem Manager.Rewrites.of_job {key : String} {job new : Job}
    (hjobs : ∀ key job, jobs key job job)
    (hkeepalives : ∀ key keepalive, keepalives key keepalive keepalive)
    (hjob : m.jobs.lookup key = some job) (hnew : jobs key job new)
    (hwrote : (m.setJob key new).SameJobs m') : m.Rewrites jobs keepalives m' := by
  refine ⟨fun other job' hother ↦ ?_,
    fun other keepalive' hkeepalive ↦ ⟨keepalive', ?_, hkeepalives _ _⟩⟩
  · rw [hwrote.1, setJob, Table.lookup_insert_apply] at hother
    split_ifs at hother with heq
    · subst heq
      obtain rfl := Option.some.inj hother
      exact ⟨job, hjob, hnew⟩
    · exact ⟨job', hother, hjobs other job'⟩
  · rw [hwrote.2] at hkeepalive
    exact hkeepalive

/-- A keepalive job that is written in its place. -/
theorem Manager.Rewrites.of_keepalive {key : String} {keepalive new : KeepaliveJob}
    (hjobs : ∀ key job, jobs key job job)
    (hkeepalives : ∀ key keepalive, keepalives key keepalive keepalive)
    (hkeepalive : m.keepalives.lookup key = some keepalive) (hnew : keepalives key keepalive new)
    (hwrote : (m.setKeepalive key new).SameJobs m') : m.Rewrites jobs keepalives m' := by
  refine ⟨fun other job' hjob ↦ ⟨job', ?_, hjobs _ _⟩, fun other keepalive' hother ↦ ?_⟩
  · rw [hwrote.1] at hjob
    exact hjob
  · rw [hwrote.2, setKeepalive, Table.lookup_insert_apply] at hother
    split_ifs at hother with heq
    · subst heq
      obtain rfl := Option.some.inj hother
      exact ⟨keepalive, hkeepalive, hnew⟩
    · exact ⟨keepalive', hother, hkeepalives other keepalive'⟩

/-- Rewriting composes with what changes no record. -/
theorem Manager.Rewrites.same (h : m.Rewrites jobs keepalives m₁) (hsame : m₁.SameJobs m') :
    m.Rewrites jobs keepalives m' := by
  refine ⟨fun key job' hjob ↦ ?_, fun key keepalive' hkeepalive ↦ ?_⟩
  · rw [hsame.1] at hjob
    exact h.jobs key job' hjob
  · rw [hsame.2] at hkeepalive
    exact h.keepalives key keepalive' hkeepalive

/-- Stop operations stop the jobs. -/
theorem Manager.Stops.rewrites (h : Stops now m m') :
    m.Rewrites (fun _ ↦ Job.Stopped now) (fun _ ↦ KeepaliveJob.Stopped now) m' := by
  have hjobs : ∀ (key : String) (job : Job), job.Stopped now job := fun _ _ ↦ .kept
  have hkeepalives : ∀ (key : String) (keepalive : KeepaliveJob),
      keepalive.Stopped now keepalive := fun _ _ ↦ .kept
  induction h with
  | refl => exact SameJobs.rewrites ⟨rfl, rfl⟩ hjobs hkeepalives
  | queue key _ hstop ih =>
    rcases stopQueueLocked_cases hstop with ⟨job, arbiter, hjob, -, -, rfl⟩ | ⟨-, rfl⟩
    · refine ⟨fun other job' hother ↦ ?_, fun other keepalive' hkeepalive ↦ ?_⟩
      · rw [callCancel_jobs] at hother
        simp only [resignalled, setJob, Table.lookup_insert_apply] at hother
        split_ifs at hother with heq
        · subst heq
          obtain rfl := Option.some.inj hother
          obtain ⟨first, hfirst, hstopped⟩ := ih.jobs _ job hjob
          exact ⟨first, hfirst, hstopped.again⟩
        · exact ih.jobs other job' hother
      · rw [callCancel_keepalives] at hkeepalive
        exact ih.keepalives other keepalive' hkeepalive
    · exact ih
  | keepalive key _ hstop ih =>
    rcases stopKeepaliveLocked_cases hstop with
      ⟨keepalive, arbiter, hkeepalive, -, -, rfl⟩ | ⟨-, rfl⟩
    · refine ⟨fun other job' hjob ↦ ?_, fun other keepalive' hother ↦ ?_⟩
      · rw [callCancel_jobs] at hjob
        exact ih.jobs other job' hjob
      · rw [callCancel_keepalives] at hother
        simp only [resignalled, setKeepalive, Table.lookup_insert_apply] at hother
        split_ifs at hother with heq
        · subst heq
          obtain rfl := Option.some.inj hother
          obtain ⟨first, hfirst, hstopped⟩ := ih.keepalives _ keepalive hkeepalive
          exact ⟨first, hfirst, hstopped.again⟩
        · exact ih.keepalives other keepalive' hother
    · exact ih
  | adhoc key _ ih =>
    rename_i m₂ _
    rcases stopAdhocLocked_cases m₂ key with ⟨arbiter, -, -, heq⟩ | ⟨-, heq⟩
    · rw [heq]
      exact ih.same ⟨callCancel_jobs _, callCancel_keepalives _⟩
    · rw [heq]
      exact ih

/-- One round of the loop of `UpdateSettings`, with the time it sets. -/
theorem Manager.rescheduleKeepalive_time {draw : String → Nat} {key : String}
    (h : m.rescheduleKeepalive now draw key = some m') :
    m' = m ∨ ∃ keepalive, m.keepalives.lookup key = some keepalive ∧
      keepalive.state = .waitingNext ∧
      m' = { m with
        closed := keepalive.scheduleChanged :: m.closed
        nextChannel := m.nextChannel + 1
        keepalives := m.keepalives.insert key { keepalive with
          nextRequest := now + randomDuration m.keepaliveMin m.keepaliveMax (draw key)
          scheduleChanged := m.nextChannel } } := by
  simp only [rescheduleKeepalive, Option.bind_eq_bind, Option.bind_eq_some_iff,
    Option.pure_def] at h
  obtain ⟨keepalive, hkeepalive, h⟩ := h
  split_ifs at h with hwaiting
  · simp only [signalKeepaliveScheduleLocked, setKeepalive, AList.lookup_insert,
      Option.bind_eq_bind, Option.bind_some, Option.pure_def, AList.insert_insert] at h
    cases h
    exact Or.inr ⟨keepalive, hkeepalive, hwaiting.1, rfl⟩
  · cases h
    exact Or.inl rfl

/-- The loop of `UpdateSettings` reschedules the keepalive jobs that wait. -/
theorem Manager.Reschedules.rewrites {draw : String → Nat} (h : Reschedules now draw m m') :
    m.Rewrites (fun _ ↦ Eq) (fun key ↦ KeepaliveJob.Rescheduled
      (now + randomDuration m.keepaliveMin m.keepaliveMax (draw key))) m' := by
  induction h with
  | refl => exact SameJobs.rewrites ⟨rfl, rfl⟩ (fun _ _ ↦ rfl) fun _ _ ↦ .kept
  | round key hloop hround ih =>
    have hlimits := limits_of_frame hloop.frame
    have hmin := congrArg Limits.keepaliveMin hlimits
    have hmax := congrArg Limits.keepaliveMax hlimits
    simp only [limits] at hmin hmax
    rcases rescheduleKeepalive_time hround with rfl | ⟨keepalive, hkeepalive, hwaiting, rfl⟩
    · exact ih
    · refine ⟨ih.jobs, fun other keepalive' hother ↦ ?_⟩
      simp only [Table.lookup_insert_apply] at hother
      split_ifs at hother with heq
      · subst heq
        obtain rfl := Option.some.inj hother
        obtain ⟨first, hfirst, hrescheduled⟩ := ih.keepalives _ keepalive hkeepalive
        refine ⟨first, hfirst, ?_⟩
        rw [hmin, hmax]
        exact hrescheduled.again hwaiting _
      · exact ih.keepalives other keepalive' hother

end

end

/-! ### Steps of the system -/

/-- What a step of the system can do to the queue job of a target that it does not edit. -/
inductive Job.Changes (s : System) (label : Label) (key : String) (job : Job) : Job → Prop
  | kept : Changes s label key job job
  | wrote (i : Nat) (w : QueueWorker) (input : Input) (job' : Job)
      (hlabel : label = .advance i input) (hproc : s.procs[i]? = some (.queue w))
      (hkey : w.key = key) (hwrites : w.Writes s.manager input job job') :
      Changes s label key job job'
  | subscribed (subscriber : Subscriber) :
      Changes s label key job (Manager.addSubscriberLocked job subscriber)
  | started (subscriber : Subscriber) (context : Nat) (now : Time)
      (hidle : job.state ≠ .running) :
      Changes s label key job
        { Manager.beginJob job subscriber context now with workers := job.workers + 1 }
  | stopped (now : Time) (job' : Job) (hstopped : job.Stopped now job') :
      Changes s label key job job'

/-- What a step of the system can do to the keepalive job of a target that it does not edit. -/
inductive KeepaliveJob.Changes (s : System) (label : Label) (key : String)
    (keepalive : KeepaliveJob) : KeepaliveJob → Prop
  | kept : Changes s label key keepalive keepalive
  | wrote (i : Nat) (w : KeepaliveWorker) (input : Input) (keepalive' : KeepaliveJob)
      (hlabel : label = .advance i input) (hproc : s.procs[i]? = some (.keepalive w))
      (hkey : w.key = key) (hwrites : w.Writes s.manager input keepalive keepalive') :
      Changes s label key keepalive keepalive'
  | started (context : Nat) (now : Time) (hidle : keepalive.state = .stopped) :
      Changes s label key keepalive
        { Manager.beginKeepaliveJob keepalive context now with
          workers := keepalive.workers + 1 }
  | stopped (now : Time) (keepalive' : KeepaliveJob) (hstopped : keepalive.Stopped now keepalive') :
      Changes s label key keepalive keepalive'
  | rescheduled (keepaliveMin keepaliveMax : Duration) (maxParallel : Int)
      (successMessage : String) (now : Time) (draw : String → Nat) (keepalive' : KeepaliveJob)
      (hlabel : label =
        .updateSettings keepaliveMin keepaliveMax maxParallel successMessage now draw)
      (hrescheduled : keepalive.Rescheduled
        (now + Manager.randomDuration keepaliveMin keepaliveMax (draw key)) keepalive') :
      Changes s label key keepalive keepalive'

namespace System

variable [Go.NetURL] {s s' : System} {label : Label}

/-- Every record that is found after a step was there before, and has changed as a step can change
it. -/
abbrev Rewritten (s : System) (label : Label) (m : Manager) : Prop :=
  s.manager.Rewrites (fun key job ↦ job.Changes s label key)
    (fun key keepalive ↦ keepalive.Changes s label key) m

omit [Go.NetURL] in
/-- A step that changes no record. -/
theorem Rewritten.of_same {m : Manager} (h : s.manager.SameJobs m) : s.Rewritten label m :=
  h.rewrites (fun _ _ ↦ .kept) fun _ _ ↦ .kept

omit [Go.NetURL] in
/-- A step that stops jobs. -/
theorem Rewritten.of_stops {m m₁ : Manager} {now : Time} (h : Manager.Stops now s.manager m₁)
    (hshown : m₁.Shown m) : s.Rewritten label m := by
  have hstops := h.rewrites.same hshown.sameJobs
  refine ⟨fun key job' hjob ↦ ?_, fun key keepalive' hkeepalive ↦ ?_⟩
  · obtain ⟨job, hold, hstopped⟩ := hstops.jobs key job' hjob
    exact ⟨job, hold, .stopped now job' hstopped⟩
  · obtain ⟨keepalive, hold, hstopped⟩ := hstops.keepalives key keepalive' hkeepalive
    exact ⟨keepalive, hold, .stopped now keepalive' hstopped⟩

omit [Go.NetURL] in
/-- A step that writes a job. -/
theorem Rewritten.of_job {m : Manager} {key : String} {job new : Job}
    (hjob : s.manager.jobs.lookup key = some job) (hnew : job.Changes s label key new)
    (hwrote : (s.manager.setJob key new).SameJobs m) : s.Rewritten label m :=
  Manager.Rewrites.of_job (fun _ _ ↦ .kept) (fun _ _ ↦ .kept) hjob hnew hwrote

omit [Go.NetURL] in
/-- A step that writes a keepalive job. -/
theorem Rewritten.of_keepalive {m : Manager} {key : String} {keepalive new : KeepaliveJob}
    (hkeepalive : s.manager.keepalives.lookup key = some keepalive)
    (hnew : keepalive.Changes s label key new)
    (hwrote : (s.manager.setKeepalive key new).SameJobs m) : s.Rewritten label m :=
  Manager.Rewrites.of_keepalive (fun _ _ ↦ .kept) (fun _ _ ↦ .kept) hkeepalive hnew hwrote

/-- A section of a `Start` or `StartKeepalive` call rewrites records. -/
theorem startCall_rewritten {next self : Nat} {call : StartCall} {input : Input} {effect : Effect}
    (h : call.step s.manager next self input = some effect) :
    s.Rewritten label effect.manager := by
  cases StartCall.step_takes h with
  | prepared key m₁ outcome pc hsection =>
    obtain ⟨m₂, hstops, hshown⟩ := Manager.prepareMode_cases hsection
    exact .of_stops hstops hshown
  | waited pc => exact .of_same ⟨rfl, rfl⟩
  | rejected key rest m₁ outcome hpc hremaining hsection =>
    rw [StartCall.conclude_manager]
    cases hkind : call.kind with
    | queue subscriber =>
      rw [hkind] at hsection
      rcases Manager.rejectQueue_cases hsection with ⟨rfl, -⟩ |
        ⟨target, job, -, hjob, -, -, -, rfl⟩
      · exact .of_same ⟨rfl, rfl⟩
      · exact .of_job hjob (.subscribed subscriber) ⟨rfl, rfl⟩
    | keepalive =>
      rw [hkind] at hsection
      cases hsection
      exact .of_same ⟨rfl, rfl⟩
  | committed key rest m₁ outcome hpc hremaining hsection =>
    rw [StartCall.conclude_manager]
    cases hkind : call.kind with
    | queue subscriber =>
      rw [hkind] at hsection
      rcases Manager.commitQueue_cases hsection with ⟨rfl, -⟩ |
        ⟨target, job, -, hjob, -, -, rfl⟩ |
        ⟨target, job, keepalive, arbiter, -, -, hjob, -, -, hidle, -, -, -, hshown⟩
      · exact .of_same ⟨rfl, rfl⟩
      · exact .of_job hjob (.subscribed subscriber) ⟨rfl, rfl⟩
      · exact .of_job hjob (.started subscriber _ _ hidle) ⟨hshown.jobs, hshown.keepalives⟩
    | keepalive =>
      rw [hkind] at hsection
      rcases Manager.commitKeepalive_cases hsection with ⟨rfl, -⟩ |
        ⟨target, job, keepalive, arbiter, -, -, -, hkeepalive, -, hidle, -, -, -, hshown⟩
      · exact .of_same ⟨rfl, rfl⟩
      · exact .of_keepalive hkeepalive (.started _ _ hidle) ⟨hshown.jobs, hshown.keepalives⟩

/-- A step of a goroutine rewrites records, unless it edits targets. -/
theorem proc_rewritten {i : Nat} {proc : Proc} {input : Input} {effect : Effect}
    (hproc : s.procs[i]? = some proc) (hedit : ∀ call, proc ≠ .edit call)
    (h : proc.step s.manager s.procs.length i input = some effect) :
    s.Rewritten (.advance i input) effect.manager := by
  cases proc with
  | queue w =>
    obtain ⟨hkeepalives, hjobs | ⟨job, job', hjob, hwrites, hjobs⟩⟩ :=
      (QueueWorker.step_takes h).writes
    · exact .of_same ⟨hjobs, hkeepalives⟩
    · exact .of_job hjob (.wrote i w input job' rfl hproc rfl hwrites) ⟨hjobs, hkeepalives⟩
  | keepalive w =>
    obtain ⟨hjobs, hkeepalives | ⟨keepalive, keepalive', hkeepalive, hwrites, hkeepalives⟩⟩ :=
      (KeepaliveWorker.step_takes h).writes
    · exact .of_same ⟨hjobs, hkeepalives⟩
    · exact .of_keepalive hkeepalive (.wrote i w input keepalive' rfl hproc rfl hwrites)
        ⟨hjobs, hkeepalives⟩
  | adhoc call => exact .of_same (AdhocCall.step_same h)
  | start call => exact startCall_rewritten h
  | edit call => exact absurd rfl (hedit call)
  | wait call =>
    rw [(WaitCall.step_proc h).1]
    exact .of_same ⟨rfl, rfl⟩

/-- A step rewrites records, or it edits targets. -/
theorem step_rewritten (hstep : s.step label = some s') :
    s.Rewritten label s'.manager ∨ s.Edits label s'.manager := by
  cases label
  case stop names now =>
    simp only [System.step, Option.map_eq_some_iff] at hstep
    obtain ⟨⟨m₁, result⟩, hsection, rfl⟩ := hstep
    obtain ⟨m₂, hstops, hshown, -⟩ := Manager.stop_cases hsection
    exact Or.inl (.of_stops hstops hshown)
  case runAdhoc id now =>
    simp only [System.step, Option.bind_eq_bind, Option.bind_eq_some_iff, Option.pure_def,
      Prod.exists] at hstep
    obtain ⟨m₁, reserved, hsection, hstep⟩ := hstep
    have hsame : s.manager.SameJobs m₁ := by
      rcases Manager.reserveAdhoc_cases hsection with ⟨rfl, -⟩ |
        ⟨key, arbiter, -, -, -, -, -, -, hshown⟩
      · exact ⟨rfl, rfl⟩
      · exact ⟨hshown.jobs, hshown.keepalives⟩
    cases reserved <;> cases hstep <;> exact Or.inl (.of_same hsame)
  case createTarget target persist =>
    simp only [System.step, Option.map_eq_some_iff] at hstep
    obtain ⟨⟨m₁, result⟩, hsection, rfl⟩ := hstep
    exact Or.inr (.create hsection)
  case updateTarget id target now =>
    cases target with
    | none =>
      cases hstep
      exact Or.inl (.of_same ⟨rfl, rfl⟩)
    | some target =>
      obtain ⟨_, _, hsection, -⟩ := editCall_manager hstep
      obtain ⟨m₂, hstops, hshown⟩ := Manager.stopTarget_cases hsection
      exact Or.inl (.of_stops hstops hshown)
  case deleteTarget id now =>
    obtain ⟨_, _, hsection, -⟩ := editCall_manager hstep
    obtain ⟨m₂, hstops, hshown⟩ := Manager.stopTarget_cases hsection
    exact Or.inl (.of_stops hstops hshown)
  case updateSettings keepaliveMin keepaliveMax maxParallel successMessage now draw =>
    simp only [System.step, Option.map_eq_some_iff] at hstep
    obtain ⟨m₁, hsection, rfl⟩ := hstep
    obtain ⟨m₂, m₃, hloop, hlimit, hshown⟩ := Manager.updateSettings_cases hsection
    have hsame : m₂.SameJobs m₁ := by
      rcases hlimit with ⟨rfl, -⟩ | ⟨-, rfl⟩
      · exact ⟨hshown.jobs, hshown.keepalives⟩
      · exact ⟨hshown.jobs, hshown.keepalives⟩
    have hrewrites := hloop.rewrites.same hsame
    refine Or.inl ⟨fun key job' hjob ↦ ?_, fun key keepalive' hkeepalive ↦ ?_⟩
    · obtain ⟨job, hold, rfl⟩ := hrewrites.jobs key job' hjob
      exact ⟨job, hold, .kept⟩
    · obtain ⟨keepalive, hold, hrescheduled⟩ := hrewrites.keepalives key keepalive' hkeepalive
      exact ⟨keepalive, hold, .rescheduled _ _ _ _ _ _ keepalive' rfl hrescheduled⟩
  case observe buffer =>
    simp only [System.step, Option.map_eq_some_iff] at hstep
    obtain ⟨⟨m₁, snapshot, id⟩, hsection, rfl⟩ := hstep
    obtain ⟨_, rfl⟩ := Manager.observe_cases hsection
    exact Or.inl (.of_same ⟨rfl, rfl⟩)
  case beginShutdown =>
    cases hstep
    refine Or.inl (.of_same ?_)
    show s.manager.SameJobs s.manager.beginShutdown
    unfold Manager.beginShutdown
    split_ifs <;> exact ⟨rfl, rfl⟩
  case cancelAdhoc call =>
    simp only [System.step] at hstep
    split at hstep
    · cases hstep
      exact Or.inl (.of_same ⟨rfl, rfl⟩)
    · cases hstep
  case advance self input =>
    obtain ⟨proc, effect, hproc, heffect, rfl⟩ := step_advance hstep
    by_cases hedit : ∃ call, proc = .edit call
    · obtain ⟨call, rfl⟩ := hedit
      cases EditCall.step_takes heffect with
      | waited => exact Or.inl (.of_same ⟨rfl, rfl⟩)
      | updated id target m₁ result hsection => exact Or.inr (.update hproc hsection)
      | deleted id m₁ result hsection => exact Or.inr (.delete hproc hsection)
    · exact Or.inl (proc_rewritten hproc (fun call heq ↦ hedit ⟨call, heq⟩) heffect)
  case start | startKeepalive | setMessenger | closeSubscription | receive | wait | cancelRoot =>
    cases hstep
    exact Or.inl (.of_same ⟨rfl, rfl⟩)

end System

/-! ### Edits of targets -/

namespace Manager

variable {m m' : Manager}

/-- Every record that is found after an edit was there before, or its key is new: the record is a
fresh one, or the one of a target that was not busy. -/
structure Relocates (m m' : Manager) : Prop where
  jobs : ∀ key job, m'.jobs.lookup key = some job → m.jobs.lookup key = some job ∨
    m.jobs.lookup key = none ∧ (job = {} ∨
      ∃ old, m.targetBusyLocked old = some false ∧ m.jobs.lookup old = some job)
  keepalives : ∀ key keepalive, m'.keepalives.lookup key = some keepalive →
    m.keepalives.lookup key = some keepalive ∨
    m.keepalives.lookup key = none ∧ ((∃ scheduleChanged, keepalive = { scheduleChanged }) ∨
      ∃ old, m.targetBusyLocked old = some false ∧ m.keepalives.lookup old = some keepalive)

/-- An edit that changes no record. -/
theorem Relocates.of_same (h : m.SameJobs m') : m.Relocates m' := by
  refine ⟨fun key job hjob ↦ Or.inl ?_, fun key keepalive hkeepalive ↦ Or.inl ?_⟩
  · rw [← h.1]
    exact hjob
  · rw [← h.2]
    exact hkeepalive

/-- A key without a target has no records. -/
theorem Tabled.lookup_eq_none (h : m.Tabled) {key : String} (hfree : key ∉ m.targets) :
    m.jobs.lookup key = none ∧ m.keepalives.lookup key = none :=
  ⟨AList.lookup_eq_none.mpr (mt (h.jobs key).mp hfree),
    AList.lookup_eq_none.mpr (mt (h.keepalives key).mp hfree)⟩

/-- Records that are moved to a free key, or stay under theirs. -/
theorem Relocates.of_rename (htabled : m.Tabled) {oldKey newKey : String}
    (hidle : m.targetBusyLocked oldKey = some false)
    (hfree : newKey = oldKey ∨ newKey ∉ m.targets) {m₁ : Manager}
    (hmove : (newKey = oldKey ∧ m₁ = m) ∨
      (newKey ≠ oldKey ∧ m.renameTarget oldKey newKey = some m₁)) : m.Relocates m₁ := by
  rcases hmove with ⟨-, rfl⟩ | ⟨hne, hrename⟩
  · exact .of_same ⟨rfl, rfl⟩
  · obtain ⟨hjobs, hkeepalives⟩ := htabled.lookup_eq_none (hfree.resolve_left hne)
    obtain ⟨job, keepalive, arbiter, hjob, hkeepalive, -, rfl⟩ := renameTarget_cases hrename
    refine ⟨fun key job' hjob' ↦ ?_, fun key keepalive' hkeepalive' ↦ ?_⟩
    · simp only [Table.lookup_insert_apply, Table.lookup_erase_apply] at hjob'
      split_ifs at hjob' with hnew hold
      · subst hnew
        obtain rfl := Option.some.inj hjob'
        exact Or.inr ⟨hjobs, Or.inr ⟨oldKey, hidle, hjob⟩⟩
      · exact Or.inl hjob'
    · simp only [Table.lookup_insert_apply, Table.lookup_erase_apply] at hkeepalive'
      split_ifs at hkeepalive' with hnew hold
      · subst hnew
        obtain rfl := Option.some.inj hkeepalive'
        exact Or.inr ⟨hkeepalives, Or.inr ⟨oldKey, hidle, hkeepalive⟩⟩
      · exact Or.inl hkeepalive'

end Manager

namespace System

variable [Go.NetURL] {s s' : System} {label : Label} {key : String}

/-- An edit of targets relocates records. -/
theorem Edits.relocates {m : Manager} (htabled : s.manager.Tabled) (hlawful : s.Lawful label)
    (hedits : s.Edits label m) : s.manager.Relocates m := by
  cases hedits with
  | create hsection =>
    rcases Manager.createTarget_cases hsection with ⟨rfl, -⟩ | ⟨saved, hfree, -, hshown⟩
    · exact .of_same ⟨rfl, rfl⟩
    · obtain ⟨hjobs, hkeepalives⟩ := htabled.lookup_eq_none (AList.lookup_eq_none.mp hfree)
      refine ⟨fun key job hjob ↦ ?_, fun key keepalive hkeepalive ↦ ?_⟩
      · rw [hshown.jobs] at hjob
        change (s.manager.jobs.insert (Manager.normalizeName saved.name) {}).lookup key = _ at hjob
        rw [Table.lookup_insert_apply] at hjob
        split_ifs at hjob with hnew
        · subst hnew
          exact Or.inr ⟨hjobs, Or.inl (Option.some.inj hjob).symm⟩
        · exact Or.inl hjob
      · rw [hshown.keepalives] at hkeepalive
        change (s.manager.keepalives.insert (Manager.normalizeName saved.name)
          { scheduleChanged := s.manager.nextChannel }).lookup key = _ at hkeepalive
        rw [Table.lookup_insert_apply] at hkeepalive
        split_ifs at hkeepalive with hnew
        · subst hnew
          exact Or.inr ⟨hkeepalives, Or.inl ⟨_, (Option.some.inj hkeepalive).symm⟩⟩
        · exact Or.inl hkeepalive
  | update hproc hsection =>
    rcases Manager.updateTarget_cases hsection with ⟨rfl, -⟩ |
      ⟨oldKey, saved, m₁, hkey, hidle, hconflict, -, -, hmove, hshown⟩
    · exact .of_same ⟨rfl, rfl⟩
    · have hfree := htabled.eq_or_free (hlawful _ _ hproc) hkey hconflict
      have hrelocates := Manager.Relocates.of_rename htabled hidle hfree hmove
      refine ⟨fun key job hjob ↦ hrelocates.jobs key job ?_,
        fun key keepalive hkeepalive ↦ hrelocates.keepalives key keepalive ?_⟩
      · rw [hshown.jobs] at hjob
        exact hjob
      · rw [hshown.keepalives] at hkeepalive
        exact hkeepalive
  | delete _ hsection =>
    rcases Manager.deleteTarget_cases hsection with ⟨rfl, -⟩ | ⟨oldKey, -, -, -, hshown⟩
    · exact .of_same ⟨rfl, rfl⟩
    · refine ⟨fun key job hjob ↦ Or.inl ?_, fun key keepalive hkeepalive ↦ Or.inl ?_⟩
      · rw [hshown.jobs, Table.lookup_erase_apply] at hjob
        split_ifs at hjob
        exact hjob
      · rw [hshown.keepalives, Table.lookup_erase_apply] at hkeepalive
        split_ifs at hkeepalive
        exact hkeepalive

omit [Go.NetURL] in
/-- The records of a new manager are fresh. -/
theorem lookup_init (settings : Manager.Settings) (targets : List Target) (key : String) :
    (∀ job, (init settings targets).manager.jobs.lookup key = some job → job = {}) ∧
      ∀ keepalive, (init settings targets).manager.keepalives.lookup key = some keepalive →
        ∃ scheduleChanged, keepalive = { scheduleChanged } := by
  have hadd : ∀ (targets : List Target) (m : Manager),
      (∀ job, m.jobs.lookup key = some job → job = {}) →
      (∀ keepalive, m.keepalives.lookup key = some keepalive →
        ∃ scheduleChanged, keepalive = { scheduleChanged }) →
      (∀ job, (targets.foldl Manager.addTarget m).jobs.lookup key = some job → job = {}) ∧
        ∀ keepalive, (targets.foldl Manager.addTarget m).keepalives.lookup key = some keepalive →
          ∃ scheduleChanged, keepalive = { scheduleChanged } := by
    intro targets
    induction targets with
    | nil => exact fun m hjobs hkeepalives ↦ ⟨hjobs, hkeepalives⟩
    | cons target targets ih =>
      intro m hjobs hkeepalives
      refine ih _ (fun job hjob ↦ ?_) fun keepalive hkeepalive ↦ ?_
      · rw [Manager.addTarget, Manager.addRecords, Table.lookup_insert_apply] at hjob
        split_ifs at hjob
        · exact (Option.some.inj hjob).symm
        · exact hjobs job hjob
      · rw [Manager.addTarget, Manager.addRecords, Table.lookup_insert_apply] at hkeepalive
        split_ifs at hkeepalive
        · exact ⟨_, (Option.some.inj hkeepalive).symm⟩
        · exact hkeepalives keepalive hkeepalive
  exact hadd targets _ (fun job hjob ↦ by cases hjob) fun keepalive hkeepalive ↦ by cases hkeepalive

/-- Where the queue job comes from that is found after a step. -/
theorem step_job (h : s.Reachable) (hlawful : s.Lawful label) (hstep : s.step label = some s')
    {job' : Job} (hjob : s'.manager.jobs.lookup key = some job') :
    (∃ job, s.manager.jobs.lookup key = some job ∧ job.Changes s label key job') ∨
      s.manager.jobs.lookup key = none ∧ (job' = {} ∨
        ∃ old, s.manager.targetBusyLocked old = some false ∧
          s.manager.jobs.lookup old = some job') := by
  rcases step_rewritten hstep with hrewritten | hedits
  · exact Or.inl (hrewritten.jobs key job' hjob)
  · refine ((hedits.relocates h.tabled hlawful).jobs key job' hjob).imp_left fun hold ↦ ?_
    exact ⟨job', hold, .kept⟩

/-- Where the keepalive job comes from that is found after a step. -/
theorem step_keepalive (h : s.Reachable) (hlawful : s.Lawful label)
    (hstep : s.step label = some s') {keepalive' : KeepaliveJob}
    (hkeepalive : s'.manager.keepalives.lookup key = some keepalive') :
    (∃ keepalive, s.manager.keepalives.lookup key = some keepalive ∧
      keepalive.Changes s label key keepalive') ∨
      s.manager.keepalives.lookup key = none ∧
        ((∃ scheduleChanged, keepalive' = { scheduleChanged }) ∨
          ∃ old, s.manager.targetBusyLocked old = some false ∧
            s.manager.keepalives.lookup old = some keepalive') := by
  rcases step_rewritten hstep with hrewritten | hedits
  · exact Or.inl (hrewritten.keepalives key keepalive' hkeepalive)
  · have hrelocates := (hedits.relocates h.tabled hlawful).keepalives key keepalive' hkeepalive
    refine hrelocates.imp_left fun hold ↦ ?_
    exact ⟨keepalive', hold, .kept⟩

end System

end CodexQueueBot.Jobs
