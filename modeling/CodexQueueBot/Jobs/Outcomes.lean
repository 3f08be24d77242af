import CodexQueueBot.Jobs.Sections

/-!
# What the critical sections of the workers can do

For each critical section one theorem lists its outcomes: the condition of each branch, what is
returned, and the manager that is left, in terms of the few updates below. A broadcast changes
nothing but the number of the last event and the observers; `Shown` says that one manager is another
one after a broadcast. Later modules cite these theorems and do not unfold the sections again.
-/

set_option autoImplicit false
set_option relaxedAutoImplicit false

namespace CodexQueueBot.Jobs

open Lib

/-! ### Runs and owners -/

/-- The queue run with a number is the one that is running. -/
def Job.Current (job : Job) (runID : Nat) : Prop :=
  job.runID = runID ∧ job.state = .running

/-- The keepalive run with a number is the one that is not stopped. -/
def KeepaliveJob.Current (keepalive : KeepaliveJob) (runID : Nat) : Prop :=
  keepalive.runID = runID ∧ keepalive.state ≠ .stopped

/-- An arbiter has admitted the request of an owner and a run. -/
def TargetArbiter.OwnedBy (arbiter : TargetArbiter) (owner : RequestOwner) (runID : Nat) : Prop :=
  arbiter.owner = owner ∧ arbiter.ownerRunID = runID

/-- The negation of a current queue run, as the source tests it. -/
theorem Job.not_current_iff {job : Job} {runID : Nat} :
    ¬ job.Current runID ↔ job.runID ≠ runID ∨ job.state ≠ .running :=
  not_and_or

/-- The negation of a current keepalive run, as the source tests it. -/
theorem KeepaliveJob.not_current_iff {keepalive : KeepaliveJob} {runID : Nat} :
    ¬ keepalive.Current runID ↔ keepalive.runID ≠ runID ∨ keepalive.state = .stopped := by
  rw [KeepaliveJob.Current, not_and_or, not_not]

namespace Manager

variable {m m' : Manager} {key : String} {runID : Nat} {now : Time}

/-! ### Updates -/

/-- One manager is another one after a broadcast. -/
def Shown (m m' : Manager) : Prop :=
  ∃ (nextEventID : Nat) (observers : List Observer), m' = { m with nextEventID, observers }

/-- A manager is itself after no broadcast. -/
theorem Shown.refl (m : Manager) : m.Shown m :=
  ⟨_, _, rfl⟩

/-- The channel of an arbiter closed and replaced. -/
def resignalled (m : Manager) (key : String) (arbiter : TargetArbiter) : Manager :=
  { m with
    closed := arbiter.changed :: m.closed
    nextChannel := m.nextChannel + 1
    arbiters := m.arbiters.insert key { arbiter with changed := m.nextChannel } }

/-- An arbiter without owner, its channel closed and replaced. -/
def freed (m : Manager) (key : String) (arbiter : TargetArbiter) : Manager :=
  m.resignalled key { arbiter with owner := .none, ownerRunID := 0, cancel := none }

/-- What `signalTargetLocked` leaves. -/
theorem signalTargetLocked_cases (h : m.signalTargetLocked key = some m') :
    ∃ arbiter, m.arbiters.lookup key = some arbiter ∧ m' = m.resignalled key arbiter := by
  simp only [signalTargetLocked, Option.bind_eq_bind, Option.bind_eq_some_iff,
    Option.pure_def] at h
  obtain ⟨arbiter, harbiter, h⟩ := h
  cases h
  exact ⟨arbiter, harbiter, rfl⟩

/-- What `signalTargetLocked` leaves where the arbiter is known. -/
theorem signalTargetLocked_eq {arbiter : TargetArbiter}
    (harbiter : m.arbiters.lookup key = some arbiter) :
    m.signalTargetLocked key = some (m.resignalled key arbiter) := by
  simp [signalTargetLocked, harbiter, resignalled]

/-- What `releaseTargetLocked` leaves: a free target, if the owner and the run match. -/
theorem releaseTargetLocked_cases {owner : RequestOwner}
    (h : m.releaseTargetLocked key owner runID = some m') :
    ∃ arbiter, m.arbiters.lookup key = some arbiter ∧
      ((arbiter.OwnedBy owner runID ∧ m' = m.freed key arbiter) ∨
        (¬ arbiter.OwnedBy owner runID ∧ m' = m)) := by
  simp only [releaseTargetLocked, Option.bind_eq_bind, Option.bind_eq_some_iff,
    Option.pure_def] at h
  obtain ⟨arbiter, harbiter, h⟩ := h
  refine ⟨arbiter, harbiter, ?_⟩
  split_ifs at h with hother
  · cases h
    exact Or.inr ⟨not_and_or.mpr hother, rfl⟩
  · rw [signalTargetLocked_eq (AList.lookup_insert m.arbiters)] at h
    cases h
    refine Or.inl ⟨by simpa [TargetArbiter.OwnedBy, not_or] using hother, ?_⟩
    simp [freed, resignalled, setArbiter, AList.insert_insert]

/-- A release leaves the jobs alone. -/
theorem releaseTargetLocked_jobs {owner : RequestOwner}
    (h : m.releaseTargetLocked key owner runID = some m') : m'.jobs = m.jobs := by
  obtain ⟨arbiter, -, ⟨-, rfl⟩ | ⟨-, rfl⟩⟩ := releaseTargetLocked_cases h <;> rfl

/-- A release leaves the keepalive jobs alone. -/
theorem releaseTargetLocked_keepalives {owner : RequestOwner}
    (h : m.releaseTargetLocked key owner runID = some m') : m'.keepalives = m.keepalives := by
  obtain ⟨arbiter, -, ⟨-, rfl⟩ | ⟨-, rfl⟩⟩ := releaseTargetLocked_cases h <;> rfl

/-- What `acquire` does: it takes a slot if there is one, and otherwise names the channel to wait
on. -/
theorem acquire_cases {outcome : SlotOutcome} (h : m.acquire = (m', outcome)) :
    ((m.slotsInUse : Int) < m.maxParallel ∧ outcome = .acquired ∧
      m' = { m with slotsInUse := m.slotsInUse + 1 }) ∨
    (m.maxParallel ≤ m.slotsInUse ∧ outcome = .wait m.parallelChanged ∧ m' = m) := by
  unfold acquire at h
  split_ifs at h with hroom
  · cases h
    exact Or.inl ⟨hroom, rfl, rfl⟩
  · cases h
    exact Or.inr ⟨not_lt.mp hroom, rfl, rfl⟩

section

variable [Go.NetURL]

/-- A broadcast changes nothing but the number of the last event and the observers. -/
theorem shown_of_broadcast (h : m.broadcastStateLocked = some m') : m.Shown m' := by
  simp only [broadcastStateLocked, Option.bind_eq_bind, Option.bind_eq_some_iff, Option.pure_def,
    Option.some.injEq] at h
  obtain ⟨snapshot, -, rfl⟩ := h
  exact ⟨_, _, rfl⟩

/-- What a broadcast under a condition leaves. -/
theorem shown_of_ite {condition : Prop} [Decidable condition] {m₁ : Manager}
    (h : (if condition then m₁.broadcastStateLocked else some m) = some m') :
    (condition ∧ m₁.Shown m') ∨ (¬ condition ∧ m' = m) := by
  split_ifs at h with hcondition
  · exact Or.inl ⟨hcondition, shown_of_broadcast h⟩
  · cases h
    exact Or.inr ⟨hcondition, rfl⟩

/-- What `finishProcess` leaves. -/
theorem finishProcess_cases (h : m.finishProcess = some m') :
    { m with
      currentProcesses := m.currentProcesses - 1
      slotsInUse := m.slotsInUse - 1 }.signalParallelLocked.Shown m' := by
  have hshown := shown_of_broadcast h
  have hpred : ∀ n : Nat, (if 0 < n then n - 1 else n) = n - 1 := by
    intro n
    split_ifs with hpos
    · rfl
    · omega
  simpa only [hpred] using hshown

omit [Go.NetURL] in
/-- What `releaseSlot` leaves. -/
theorem releaseSlot_eq :
    m.releaseSlot = { m with slotsInUse := m.slotsInUse - 1 }.signalParallelLocked := by
  have hpred : (if 0 < m.slotsInUse then m.slotsInUse - 1 else m.slotsInUse) =
      m.slotsInUse - 1 := by
    split_ifs with hpos
    · rfl
    · omega
  rw [releaseSlot, hpred]

/-! ### Queue workers -/

omit [Go.NetURL] in
/-- What the section of `acquireQueueTarget` does. -/
theorem acquireQueueTarget_cases {outcome : TargetOutcome}
    (h : m.acquireQueueTarget key runID = some (m', outcome)) :
    ∃ job arbiter, m.jobs.lookup key = some job ∧ m.arbiters.lookup key = some arbiter ∧
      ((¬ job.Current runID ∧ outcome = .stale ∧ m' = m) ∨
        (job.Current runID ∧ arbiter.owner = .none ∧ outcome = .acquired ∧
          m' = m.setArbiter key { arbiter with owner := .queue, ownerRunID := runID }) ∨
        (job.Current runID ∧ arbiter.owner ≠ .none ∧ outcome = .wait arbiter.changed ∧
          m' = m)) := by
  simp only [acquireQueueTarget, Option.bind_eq_bind, Option.bind_eq_some_iff,
    Option.pure_def] at h
  obtain ⟨job, hjob, arbiter, harbiter, h⟩ := h
  refine ⟨job, arbiter, hjob, harbiter, ?_⟩
  split_ifs at h with hstale hfree
  · cases h
    exact Or.inl ⟨Job.not_current_iff.mpr hstale, rfl, rfl⟩
  · cases h
    exact Or.inr (Or.inl ⟨not_not.mp (mt Job.not_current_iff.mp hstale), hfree, rfl, rfl⟩)
  · cases h
    exact Or.inr (Or.inr ⟨not_not.mp (mt Job.not_current_iff.mp hstale), hfree, rfl, rfl⟩)

/-- What `beginAttempt` does. -/
theorem beginAttempt_cases {begun : Option (Nat × Target)}
    (h : m.beginAttempt key runID now = some (m', begun)) :
    ∃ job arbiter, m.jobs.lookup key = some job ∧ m.arbiters.lookup key = some arbiter ∧
      ((job.Current runID ∧ arbiter.OwnedBy .queue runID ∧
          begun = some (job.attempts + 1, m.target key) ∧
          { m.setJob key (job.attempted now) with
            currentProcesses := m.currentProcesses + 1 }.Shown m') ∨
        (¬ (job.Current runID ∧ arbiter.OwnedBy .queue runID) ∧ begun = none ∧ m' = m)) := by
  simp only [beginAttempt, Option.bind_eq_bind, Option.bind_eq_some_iff, Option.pure_def] at h
  obtain ⟨job, hjob, arbiter, harbiter, h⟩ := h
  refine ⟨job, arbiter, hjob, harbiter, ?_⟩
  split_ifs at h with hstale
  · cases h
    refine Or.inr ⟨?_, rfl, rfl⟩
    rintro ⟨⟨hrun, hstate⟩, howner, hownerRun⟩
    simp [hrun, hstate, howner, hownerRun] at hstale
  · simp only [Option.bind_eq_some_iff] at h
    obtain ⟨m₁, hbroadcast, h⟩ := h
    cases h
    have hshown := shown_of_broadcast hbroadcast
    simp only [ne_eq, not_or, not_not] at hstale
    obtain ⟨hrun, hstate, howner, hownerRun⟩ := hstale
    refine Or.inl ⟨⟨hrun, hstate⟩, ⟨howner, hownerRun⟩, ?_, hshown⟩
    obtain ⟨_, _, rfl⟩ := hshown
    rfl

/-- What `markFailure` does. -/
theorem markFailure_cases {result : Result} {valid : Bool}
    (h : m.markFailure key runID result = some (m', valid)) :
    ∃ job, m.jobs.lookup key = some job ∧
      ((job.Current runID ∧ valid = true ∧ ∃ m₁,
          (m.setJob key (job.failed (sanitizeTargetError (m.target key)
            result.error))).releaseTargetLocked key .queue runID = some m₁ ∧ m₁.Shown m') ∨
        (¬ job.Current runID ∧ valid = false ∧
          m.releaseTargetLocked key .queue runID = some m')) := by
  simp only [markFailure, Option.bind_eq_bind, Option.bind_eq_some_iff, Option.pure_def] at h
  obtain ⟨job, hjob, h⟩ := h
  refine ⟨job, hjob, ?_⟩
  split_ifs at h with hcurrent
  · simp only [Option.bind_eq_some_iff] at h
    obtain ⟨m₁, hrelease, m₂, hbroadcast, h⟩ := h
    cases h
    exact Or.inl ⟨hcurrent, rfl, m₁, hrelease, shown_of_broadcast hbroadcast⟩
  · simp only [Option.bind_eq_some_iff] at h
    obtain ⟨m₁, hrelease, h⟩ := h
    cases h
    exact Or.inr ⟨hcurrent, rfl, hrelease⟩

/-- What `markSuccess` does. -/
theorem markSuccess_cases {success : Option Success}
    (h : m.markSuccess key runID now = some (m', success)) :
    ∃ job, m.jobs.lookup key = some job ∧
      ((job.Current runID ∧
          success = some ⟨Table.values job.subscribers, now - job.startedAt⟩ ∧ ∃ m₁,
          ((m.setJob key (job.succeeded now)).callCancel job.cancel).releaseTargetLocked key
            .queue runID = some m₁ ∧ m₁.Shown m') ∨
        (¬ job.Current runID ∧ success = none ∧
          m.releaseTargetLocked key .queue runID = some m')) := by
  simp only [markSuccess, Option.bind_eq_bind, Option.bind_eq_some_iff, Option.pure_def] at h
  obtain ⟨job, hjob, h⟩ := h
  refine ⟨job, hjob, ?_⟩
  split_ifs at h with hstale
  · simp only [Option.bind_eq_some_iff] at h
    obtain ⟨m₁, hrelease, h⟩ := h
    cases h
    exact Or.inr ⟨Job.not_current_iff.mpr hstale, rfl, hrelease⟩
  · simp only [Option.bind_eq_some_iff] at h
    obtain ⟨m₁, hrelease, m₂, hbroadcast, h⟩ := h
    cases h
    exact Or.inl ⟨not_not.mp (mt Job.not_current_iff.mp hstale), rfl, m₁, hrelease,
      shown_of_broadcast hbroadcast⟩

/-- What `markQueueCancelled` does. -/
theorem markQueueCancelled_cases (h : m.markQueueCancelled key runID now = some m') :
    ∃ job m₁, m.jobs.lookup key = some job ∧
      m.releaseTargetLocked key .queue runID = some m₁ ∧
      ((job.Current runID ∧ ∃ m₂,
          (m₁.setJob key (job.cancelled now)).signalTargetLocked key = some m₂ ∧ m₂.Shown m') ∨
        (¬ job.Current runID ∧ m' = m₁)) := by
  simp only [markQueueCancelled, Option.bind_eq_bind, Option.bind_eq_some_iff,
    Option.pure_def] at h
  obtain ⟨job, hjob, m₁, hrelease, h⟩ := h
  refine ⟨job, m₁, hjob, hrelease, ?_⟩
  split_ifs at h with hstale
  · cases h
    exact Or.inr ⟨Job.not_current_iff.mpr hstale, rfl⟩
  · simp only [Option.bind_eq_some_iff] at h
    obtain ⟨m₂, hsignal, hbroadcast⟩ := h
    exact Or.inl ⟨not_not.mp (mt Job.not_current_iff.mp hstale), m₂, hsignal,
      shown_of_broadcast hbroadcast⟩

/-- What `finishQueueWorker` does. -/
theorem finishQueueWorker_cases (h : m.finishQueueWorker key = some m') :
    (∃ job, m.jobs.lookup key = some job ∧ 0 < job.workers ∧
      (m.setJob key { job with workers := job.workers - 1 }).Shown m') ∨
    ((∀ job, m.jobs.lookup key = some job → job.workers = 0) ∧ m' = m) := by
  unfold finishQueueWorker at h
  split at h
  · rename_i job hjob
    split_ifs at h with hworkers
    · exact Or.inl ⟨job, hjob, hworkers, shown_of_broadcast h⟩
    · cases h
      refine Or.inr ⟨?_, rfl⟩
      intro job' hjob'
      obtain rfl := Option.some.inj (hjob.symm.trans hjob')
      omega
  · rename_i hjob
    cases h
    refine Or.inr ⟨?_, rfl⟩
    intro job' hjob'
    rw [hjob] at hjob'
    cases hjob'

/-! ### Keepalive workers -/

/-- What the first section of `beginKeepaliveRequest` does. In every branch the keepalive job
changes at most its state, and it stays on. -/
theorem beginKeepaliveRequest_cases {outcome : TargetOutcome}
    (h : m.beginKeepaliveRequest key runID = some (m', outcome)) :
    ∃ keepalive job arbiter, m.keepalives.lookup key = some keepalive ∧
      m.jobs.lookup key = some job ∧ m.arbiters.lookup key = some arbiter ∧
      ((¬ keepalive.Current runID ∧ outcome = .stale ∧ m' = m) ∨
        (keepalive.Current runID ∧
          ((outcome = .wait arbiter.changed ∧ (job.state = .running ∨ arbiter.owner ≠ .none)) ∨
            (outcome = .acquired ∧ job.state ≠ .running ∧ arbiter.owner = .none)) ∧
          (m' = m ∨ ∃ state, state ≠ .stopped ∧
            (m.setKeepalive key { keepalive with state }).Shown m'))) := by
  simp only [beginKeepaliveRequest, Option.bind_eq_bind, Option.bind_eq_some_iff,
    Option.pure_def] at h
  obtain ⟨keepalive, hkeepalive, job, hjob, arbiter, harbiter, h⟩ := h
  refine ⟨keepalive, job, arbiter, hkeepalive, hjob, harbiter, ?_⟩
  by_cases hstale : keepalive.runID ≠ runID ∨ keepalive.state = .stopped
  · rw [if_pos hstale] at h
    cases h
    exact Or.inl ⟨KeepaliveJob.not_current_iff.mpr hstale, rfl, rfl⟩
  have hcurrent := not_not.mp (mt KeepaliveJob.not_current_iff.mp hstale)
  rw [if_neg hstale] at h
  by_cases hbusy : job.state = .running ∨ arbiter.owner ≠ .none
  · rw [if_pos hbusy, Option.bind_eq_some_iff] at h
    obtain ⟨m₁, hwrite, h⟩ := h
    cases h
    refine Or.inr ⟨hcurrent, Or.inl ⟨rfl, hbusy⟩, ?_⟩
    rcases shown_of_ite hwrite with ⟨-, hshown⟩ | ⟨-, rfl⟩
    · refine Or.inr ⟨_, ?_, hshown⟩
      split_ifs <;> simp
    · exact Or.inl rfl
  · rw [if_neg hbusy, Option.bind_eq_some_iff] at h
    obtain ⟨m₁, hwrite, h⟩ := h
    cases h
    rw [not_or, not_not] at hbusy
    refine Or.inr ⟨hcurrent, Or.inr ⟨rfl, hbusy⟩, ?_⟩
    rcases shown_of_ite hwrite with ⟨-, hshown⟩ | ⟨-, rfl⟩
    · exact Or.inr ⟨_, by simp, hshown⟩
    · exact Or.inl rfl

/-- What the second section of `beginKeepaliveRequest` does. -/
theorem confirmKeepaliveRequest_cases {outcome : ConfirmOutcome}
    (h : m.confirmKeepaliveRequest key runID now = some (m', outcome)) :
    ∃ keepalive job arbiter, m.keepalives.lookup key = some keepalive ∧
      m.jobs.lookup key = some job ∧ m.arbiters.lookup key = some arbiter ∧
      ((¬ keepalive.Current runID ∧ outcome = .stale ∧ m' = m) ∨
        (keepalive.Current runID ∧ outcome = .wait arbiter.changed ∧
          (job.state = .running ∨ arbiter.owner ≠ .none) ∧
          (m' = m ∨ ∃ state, state ≠ .stopped ∧
            (m.setKeepalive key { keepalive with state }).Shown m')) ∨
        (keepalive.Current runID ∧ outcome = .begun (keepalive.requests + 1) (m.target key) ∧
          job.state ≠ .running ∧ arbiter.owner = .none ∧
          { (m.setArbiter key { arbiter with
              owner := .keepalive, ownerRunID := runID }).setKeepalive key
              (keepalive.requested now) with
            currentProcesses := m.currentProcesses + 1 }.Shown m')) := by
  simp only [confirmKeepaliveRequest, Option.bind_eq_bind, Option.bind_eq_some_iff,
    Option.pure_def] at h
  obtain ⟨keepalive, hkeepalive, job, hjob, arbiter, harbiter, h⟩ := h
  refine ⟨keepalive, job, arbiter, hkeepalive, hjob, harbiter, ?_⟩
  by_cases hstale : keepalive.runID ≠ runID ∨ keepalive.state = .stopped
  · rw [if_pos hstale] at h
    cases h
    exact Or.inl ⟨KeepaliveJob.not_current_iff.mpr hstale, rfl, rfl⟩
  have hcurrent := not_not.mp (mt KeepaliveJob.not_current_iff.mp hstale)
  rw [if_neg hstale] at h
  by_cases hbusy : job.state = .running ∨ arbiter.owner ≠ .none
  · rw [if_pos hbusy, Option.bind_eq_some_iff] at h
    obtain ⟨m₁, hwrite, h⟩ := h
    cases h
    refine Or.inr (Or.inl ⟨hcurrent, rfl, hbusy, ?_⟩)
    rcases shown_of_ite hwrite with ⟨-, hshown⟩ | ⟨-, rfl⟩
    · refine Or.inr ⟨_, ?_, hshown⟩
      split_ifs
      · simp
      · exact hcurrent.2
    · exact Or.inl rfl
  · rw [if_neg hbusy, Option.bind_eq_some_iff] at h
    obtain ⟨m₁, hwrite, h⟩ := h
    cases h
    have hshown := shown_of_broadcast hwrite
    rw [not_or, not_not] at hbusy
    refine Or.inr (Or.inr ⟨hcurrent, ?_, hbusy.1, hbusy.2, hshown⟩)
    obtain ⟨_, _, rfl⟩ := hshown
    rfl

/-- What `finishKeepaliveRequest` does. -/
theorem finishKeepaliveRequest_cases {result : Result} {draw : Nat} {valid : Bool}
    (h : m.finishKeepaliveRequest key runID result now draw = some (m', valid)) :
    ∃ keepalive, m.keepalives.lookup key = some keepalive ∧
      ((keepalive.Current runID ∧ valid = true ∧ ∃ m₁,
          (m.setKeepalive key (keepalive.judged result.success
            (sanitizeTargetError (m.target key) result.error) now
            (now + randomDuration m.keepaliveMin m.keepaliveMax draw))).releaseTargetLocked key
              .keepalive runID = some m₁ ∧ m₁.Shown m') ∨
        (¬ keepalive.Current runID ∧ valid = false ∧
          m.releaseTargetLocked key .keepalive runID = some m')) := by
  simp only [finishKeepaliveRequest, Option.bind_eq_bind, Option.bind_eq_some_iff,
    Option.pure_def] at h
  obtain ⟨keepalive, hkeepalive, h⟩ := h
  refine ⟨keepalive, hkeepalive, ?_⟩
  split_ifs at h with hstale
  · simp only [Option.bind_eq_some_iff] at h
    obtain ⟨m₁, hrelease, h⟩ := h
    cases h
    exact Or.inr ⟨KeepaliveJob.not_current_iff.mpr hstale, rfl, hrelease⟩
  · simp only [Option.bind_eq_some_iff] at h
    obtain ⟨m₁, hrelease, m₂, hbroadcast, h⟩ := h
    cases h
    exact Or.inl ⟨not_not.mp (mt KeepaliveJob.not_current_iff.mp hstale), rfl, m₁, hrelease,
      shown_of_broadcast hbroadcast⟩

omit [Go.NetURL] in
/-- What the section of `waitKeepaliveNext` reads. -/
theorem waitKeepaliveNext_cases {nextRequest : Time} {changed : Nat}
    (h : m.waitKeepaliveNext key runID = some (nextRequest, changed)) :
    ∃ keepalive, m.keepalives.lookup key = some keepalive ∧ keepalive.Current runID ∧
      nextRequest = keepalive.nextRequest ∧ changed = keepalive.scheduleChanged := by
  simp only [waitKeepaliveNext, Option.bind_eq_bind, Option.bind_eq_some_iff,
    Option.pure_def] at h
  obtain ⟨keepalive, hkeepalive, h⟩ := h
  split_ifs at h with hstale
  · simp at h
  · simp only [Option.some.injEq, Prod.mk.injEq] at h
    exact ⟨keepalive, hkeepalive, not_not.mp (mt KeepaliveJob.not_current_iff.mp hstale),
      h.1.symm, h.2.symm⟩

/-- What `markKeepaliveCancelled` does. -/
theorem markKeepaliveCancelled_cases (h : m.markKeepaliveCancelled key runID now = some m') :
    ∃ keepalive m₁, m.keepalives.lookup key = some keepalive ∧
      m.releaseTargetLocked key .keepalive runID = some m₁ ∧
      ((keepalive.Current runID ∧ ∃ m₂,
          (m₁.setKeepalive key (keepalive.cancelled now)).signalTargetLocked key = some m₂ ∧
          m₂.Shown m') ∨
        (¬ keepalive.Current runID ∧ m' = m₁)) := by
  simp only [markKeepaliveCancelled, Option.bind_eq_bind, Option.bind_eq_some_iff,
    Option.pure_def] at h
  obtain ⟨keepalive, hkeepalive, m₁, hrelease, h⟩ := h
  refine ⟨keepalive, m₁, hkeepalive, hrelease, ?_⟩
  split_ifs at h with hstale
  · cases h
    exact Or.inr ⟨KeepaliveJob.not_current_iff.mpr hstale, rfl⟩
  · simp only [Option.bind_eq_some_iff] at h
    obtain ⟨m₂, hsignal, hbroadcast⟩ := h
    exact Or.inl ⟨not_not.mp (mt KeepaliveJob.not_current_iff.mp hstale), m₂, hsignal,
      shown_of_broadcast hbroadcast⟩

/-- What `finishKeepaliveWorker` does. -/
theorem finishKeepaliveWorker_cases (h : m.finishKeepaliveWorker key = some m') :
    (∃ keepalive, m.keepalives.lookup key = some keepalive ∧ 0 < keepalive.workers ∧
      (m.setKeepalive key { keepalive with workers := keepalive.workers - 1 }).Shown m') ∨
    ((∀ keepalive, m.keepalives.lookup key = some keepalive → keepalive.workers = 0) ∧
      m' = m) := by
  unfold finishKeepaliveWorker at h
  split at h
  · rename_i keepalive hkeepalive
    split_ifs at h with hworkers
    · exact Or.inl ⟨keepalive, hkeepalive, hworkers, shown_of_broadcast h⟩
    · cases h
      refine Or.inr ⟨?_, rfl⟩
      intro keepalive' hkeepalive'
      obtain rfl := Option.some.inj (hkeepalive.symm.trans hkeepalive')
      omega
  · rename_i hkeepalive
    cases h
    refine Or.inr ⟨?_, rfl⟩
    intro keepalive' hkeepalive'
    rw [hkeepalive] at hkeepalive'
    cases hkeepalive'

/-! ### Ad-hoc requests -/

omit [Go.NetURL] in
/-- What `targetBusyLocked` finds. -/
theorem targetBusyLocked_cases {busy : Bool} (h : m.targetBusyLocked key = some busy) :
    ∃ job keepalive arbiter, m.jobs.lookup key = some job ∧
      m.keepalives.lookup key = some keepalive ∧ m.arbiters.lookup key = some arbiter ∧
      busy = busyRecords job keepalive arbiter := by
  simp only [targetBusyLocked, Option.bind_eq_bind, Option.bind_eq_some_iff, Option.pure_def,
    Option.some.injEq] at h
  obtain ⟨job, hjob, keepalive, hkeepalive, arbiter, harbiter, h⟩ := h
  exact ⟨job, keepalive, arbiter, hjob, hkeepalive, harbiter, h.symm⟩

omit [Go.NetURL] in
/-- A target is not busy exactly when none of its records says so. -/
theorem busyRecords_eq_false {job : Job} {keepalive : KeepaliveJob} {arbiter : TargetArbiter} :
    busyRecords job keepalive arbiter = false ↔ job.state ≠ .running ∧ job.workers = 0 ∧
      keepalive.state = .stopped ∧ keepalive.workers = 0 ∧ arbiter.owner = .none := by
  simp [busyRecords, and_assoc]

/-- What the first section of `RunAdhoc` does: an error, or a reservation of an idle target. -/
theorem reserveAdhoc_cases {id : Int} {reserved : Except Error Reservation}
    (h : m.reserveAdhoc id = some (m', reserved)) :
    (m' = m ∧ ∃ error, reserved = .error error) ∨
    (∃ key arbiter, m.targetKeyByIDLocked id = some key ∧ m.shuttingDown = false ∧
      m.rootDone = false ∧ m.targetBusyLocked key = some false ∧
      m.arbiters.lookup key = some arbiter ∧
      reserved = .ok ⟨key, m.nextAdhocRunID + 1, m.nextContext, m.target key⟩ ∧
      { m.setArbiter key { arbiter with
          owner := .adhoc, ownerRunID := m.nextAdhocRunID + 1, cancel := some m.nextContext } with
        nextContext := m.nextContext + 1
        nextAdhocRunID := m.nextAdhocRunID + 1
        runWG := m.runWG + 1 }.Shown m') := by
  unfold reserveAdhoc at h
  by_cases hrunner : ¬ m.promptRunner = true
  · rw [if_pos hrunner] at h
    cases h
    exact Or.inl ⟨rfl, _, rfl⟩
  rw [if_neg hrunner] at h
  cases hkey : m.targetKeyByIDLocked id with
  | none =>
    rw [hkey] at h
    cases h
    exact Or.inl ⟨rfl, _, rfl⟩
  | some key =>
    simp only [hkey] at h
    by_cases hdown : m.shuttingDown = true ∨ m.rootDone = true
    · rw [if_pos hdown] at h
      cases h
      exact Or.inl ⟨rfl, _, rfl⟩
    · simp only [if_neg hdown, Option.bind_eq_bind, Option.bind_eq_some_iff,
        Option.pure_def] at h
      obtain ⟨busy, hbusy, h⟩ := h
      cases busy with
      | true =>
        simp only [if_true, Option.some.injEq, Prod.mk.injEq] at h
        exact Or.inl ⟨h.1.symm, _, h.2.symm⟩
      | false =>
        simp only [Bool.false_eq_true, if_false, Option.bind_eq_some_iff] at h
        obtain ⟨arbiter, harbiter, m₁, hbroadcast, h⟩ := h
        cases h
        have hshown := shown_of_broadcast hbroadcast
        simp only [not_or, Bool.not_eq_true] at hdown
        refine Or.inr ⟨key, arbiter, rfl, hdown.1, hdown.2, hbusy, harbiter, ?_, hshown⟩
        obtain ⟨_, _, rfl⟩ := hshown
        rfl

/-- What the second section of `RunAdhoc` does. -/
theorem confirmAdhoc_cases {confirmed : Bool}
    (h : m.confirmAdhoc key runID = some (m', confirmed)) :
    (confirmed = true ∧ ∃ arbiter, m.arbiters.lookup key = some arbiter ∧
      arbiter.OwnedBy .adhoc runID ∧
      { m with currentProcesses := m.currentProcesses + 1 }.Shown m') ∨
    (confirmed = false ∧ m' = m ∧ ∀ arbiter, m.arbiters.lookup key = some arbiter →
      ¬ arbiter.OwnedBy .adhoc runID) := by
  unfold confirmAdhoc at h
  split at h
  · rename_i harbiter
    cases h
    refine Or.inr ⟨rfl, rfl, ?_⟩
    intro arbiter harbiter'
    rw [harbiter] at harbiter'
    cases harbiter'
  · rename_i arbiter harbiter
    split_ifs at h with hother
    · cases h
      refine Or.inr ⟨rfl, rfl, ?_⟩
      intro arbiter' harbiter'
      obtain rfl := Option.some.inj (harbiter.symm.trans harbiter')
      exact not_and_or.mpr hother
    · simp only [Option.bind_eq_bind, Option.bind_eq_some_iff, Option.pure_def] at h
      obtain ⟨m₁, hbroadcast, h⟩ := h
      cases h
      refine Or.inl ⟨rfl, arbiter, harbiter, ?_, shown_of_broadcast hbroadcast⟩
      simpa [TargetArbiter.OwnedBy, not_or] using hother

omit [Go.NetURL] in
/-- A process is given back without a change of the arbiters. -/
@[simp]
theorem giveBackProcess_arbiters (processStarted : Bool) :
    (m.giveBackProcess processStarted).arbiters = m.arbiters := by
  unfold giveBackProcess
  split_ifs <;> rfl

omit [Go.NetURL] in
/-- A slot is given back without a change of the arbiters. -/
@[simp]
theorem giveBackSlot_arbiters (slotAcquired : Bool) :
    (m.giveBackSlot slotAcquired).arbiters = m.arbiters := by
  unfold giveBackSlot
  split_ifs <;> rfl

/-- What `finishAdhocRequest` does: the counts are given back, and the target if it is still
reserved for this request. -/
theorem finishAdhocRequest_cases {slotAcquired processStarted : Bool}
    (h : m.finishAdhocRequest key runID slotAcquired processStarted = some m') :
    (∃ arbiter, m.arbiters.lookup key = some arbiter ∧ arbiter.OwnedBy .adhoc runID ∧
      (((m.giveBackProcess processStarted).giveBackSlot slotAcquired).freed key
        arbiter).Shown m') ∨
    ((∀ arbiter, m.arbiters.lookup key = some arbiter → ¬ arbiter.OwnedBy .adhoc runID) ∧
      ((m.giveBackProcess processStarted).giveBackSlot slotAcquired).Shown m') := by
  simp only [finishAdhocRequest, Option.bind_eq_bind, giveBackSlot_arbiters,
    giveBackProcess_arbiters] at h
  cases harbiter : m.arbiters.lookup key with
  | none =>
    simp only [harbiter, Option.bind_some] at h
    refine Or.inr ⟨?_, shown_of_broadcast h⟩
    intro arbiter harbiter'
    cases harbiter'
  | some arbiter =>
    simp only [harbiter] at h
    split_ifs at h with howned
    · rw [signalTargetLocked_eq (AList.lookup_insert _), Option.bind_some] at h
      refine Or.inl ⟨arbiter, rfl, howned, ?_⟩
      simpa [freed, resignalled, setArbiter, AList.insert_insert] using shown_of_broadcast h
    · refine Or.inr ⟨?_, shown_of_broadcast h⟩
      intro arbiter' harbiter'
      obtain rfl := Option.some.inj harbiter'
      exact howned

end

end Manager

end CodexQueueBot.Jobs
