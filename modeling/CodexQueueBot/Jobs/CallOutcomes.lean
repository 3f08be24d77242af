import CodexQueueBot.Jobs.Calls
import CodexQueueBot.Jobs.Outcomes

/-!
# What the critical sections of the calls can do

The counterpart of `Outcomes` for the exported operations. Several of them stop targets, some in a
loop; `Stops` is what any number of stop operations can do, and an invariant that each of the three
stop operations preserves is preserved by all of them. `Reschedules` is the same for the loop of
`UpdateSettings`.
-/

set_option autoImplicit false
set_option relaxedAutoImplicit false

namespace CodexQueueBot.Jobs

open Lib

namespace Manager

variable {m m' : Manager} {key : String} {runID : Nat} {now : Time}

/-! ### Stopping -/

/-- What `stopQueueLocked` does. -/
theorem stopQueueLocked_cases (h : m.stopQueueLocked key now = some m') :
    (∃ job arbiter, m.jobs.lookup key = some job ∧ m.arbiters.lookup key = some arbiter ∧
      (job.state = .running ∨ 0 < job.workers) ∧
      m' = ((m.setJob key (stopJob job now)).resignalled key arbiter).callCancel job.cancel) ∨
    ((∀ job, m.jobs.lookup key = some job → job.state ≠ .running ∧ job.workers = 0) ∧
      m' = m) := by
  unfold stopQueueLocked at h
  cases hjob : m.jobs.lookup key with
  | none =>
    simp only [hjob] at h
    cases h
    exact Or.inr ⟨fun _ hnone ↦ (by cases hnone), rfl⟩
  | some job =>
    simp only [hjob] at h
    split_ifs at h with hidle
    · cases h
      refine Or.inr ⟨?_, rfl⟩
      intro job' hjob'
      obtain rfl := Option.some.inj hjob'
      exact hidle
    · simp only [Option.bind_eq_bind, Option.bind_eq_some_iff, Option.pure_def] at h
      obtain ⟨m₁, hsignal, h⟩ := h
      cases h
      obtain ⟨arbiter, harbiter, rfl⟩ := signalTargetLocked_cases hsignal
      refine Or.inl ⟨job, arbiter, rfl, harbiter, ?_, rfl⟩
      by_cases hrunning : job.state = .running
      · exact Or.inl hrunning
      · exact Or.inr (Nat.pos_of_ne_zero fun hzero ↦ hidle ⟨hrunning, hzero⟩)

/-- What `stopKeepaliveLocked` does. -/
theorem stopKeepaliveLocked_cases (h : m.stopKeepaliveLocked key now = some m') :
    (∃ keepalive arbiter, m.keepalives.lookup key = some keepalive ∧
      m.arbiters.lookup key = some arbiter ∧
      (keepalive.state ≠ .stopped ∨ 0 < keepalive.workers) ∧
      m' = ((m.setKeepalive key (stopKeepaliveJob keepalive now)).resignalled key
        arbiter).callCancel keepalive.cancel) ∨
    ((∀ keepalive, m.keepalives.lookup key = some keepalive →
      keepalive.state = .stopped ∧ keepalive.workers = 0) ∧ m' = m) := by
  unfold stopKeepaliveLocked at h
  cases hkeepalive : m.keepalives.lookup key with
  | none =>
    simp only [hkeepalive] at h
    cases h
    exact Or.inr ⟨fun _ hnone ↦ (by cases hnone), rfl⟩
  | some keepalive =>
    simp only [hkeepalive] at h
    split_ifs at h with hidle
    · cases h
      refine Or.inr ⟨?_, rfl⟩
      intro keepalive' hkeepalive'
      obtain rfl := Option.some.inj hkeepalive'
      exact hidle
    · simp only [Option.bind_eq_bind, Option.bind_eq_some_iff, Option.pure_def] at h
      obtain ⟨m₁, hsignal, h⟩ := h
      cases h
      obtain ⟨arbiter, harbiter, rfl⟩ := signalTargetLocked_cases hsignal
      refine Or.inl ⟨keepalive, arbiter, rfl, harbiter, ?_, rfl⟩
      by_cases hstopped : keepalive.state = .stopped
      · exact Or.inr (Nat.pos_of_ne_zero fun hzero ↦ hidle ⟨hstopped, hzero⟩)
      · exact Or.inl hstopped

/-- What `stopAdhocLocked` does. -/
theorem stopAdhocLocked_cases (m : Manager) (key : String) :
    (∃ arbiter, m.arbiters.lookup key = some arbiter ∧ arbiter.owner = .adhoc ∧
      m.stopAdhocLocked key =
        (m.setArbiter key { arbiter with cancel := none }).callCancel arbiter.cancel) ∨
    ((∀ arbiter, m.arbiters.lookup key = some arbiter → arbiter.owner ≠ .adhoc) ∧
      m.stopAdhocLocked key = m) := by
  unfold stopAdhocLocked
  cases harbiter : m.arbiters.lookup key with
  | none => exact Or.inr ⟨fun _ hnone ↦ (by cases hnone), rfl⟩
  | some arbiter =>
    by_cases howner : arbiter.owner = .adhoc
    · exact Or.inl ⟨arbiter, rfl, howner, if_neg (not_not.mpr howner)⟩
    · refine Or.inr ⟨?_, if_pos howner⟩
      intro arbiter' harbiter'
      obtain rfl := Option.some.inj harbiter'
      exact howner

/-- `stopQueueLocked` does nothing to a job that is not active. -/
theorem stopQueueLocked_of_idle {job : Job} (hjob : m.jobs.lookup key = some job)
    (hidle : ¬ (job.state = .running ∨ 0 < job.workers)) :
    m.stopQueueLocked key now = some m := by
  rw [not_or] at hidle
  simp only [stopQueueLocked, hjob]
  exact if_pos ⟨hidle.1, by omega⟩

/-- `stopKeepaliveLocked` does nothing to a keepalive job that is not active. -/
theorem stopKeepaliveLocked_of_idle {keepalive : KeepaliveJob}
    (hkeepalive : m.keepalives.lookup key = some keepalive)
    (hidle : ¬ (keepalive.state ≠ .stopped ∨ 0 < keepalive.workers)) :
    m.stopKeepaliveLocked key now = some m := by
  rw [not_or, not_not] at hidle
  simp only [stopKeepaliveLocked, hkeepalive]
  exact if_pos ⟨hidle.1, by omega⟩

/-- Cancelling a context leaves the keepalive jobs alone. -/
@[simp]
theorem callCancel_keepalives (cancel : Option Nat) :
    (m.callCancel cancel).keepalives = m.keepalives := by
  cases cancel <;> rfl

/-- Stopping a queue job leaves the keepalive jobs alone. -/
theorem stopQueueLocked_keepalives (h : m.stopQueueLocked key now = some m') :
    m'.keepalives = m.keepalives := by
  rcases stopQueueLocked_cases h with ⟨job, arbiter, -, -, -, rfl⟩ | ⟨-, rfl⟩
  · rw [callCancel_keepalives]
    rfl
  · rfl

/-- What any number of stop operations can do. -/
inductive Stops (now : Time) (m : Manager) : Manager → Prop
  | refl : Stops now m m
  | queue {m₁ m₂ : Manager} (key : String) (h : Stops now m m₁)
      (hstop : m₁.stopQueueLocked key now = some m₂) : Stops now m m₂
  | keepalive {m₁ m₂ : Manager} (key : String) (h : Stops now m m₁)
      (hstop : m₁.stopKeepaliveLocked key now = some m₂) : Stops now m m₂
  | adhoc {m₁ : Manager} (key : String) (h : Stops now m m₁) :
      Stops now m (m₁.stopAdhocLocked key)

/-- Stopping a queue job under a condition. -/
theorem Stops.queue_of_ite {m₀ : Manager} {condition : Prop} [Decidable condition]
    (hm : Stops now m₀ m)
    (h : (if condition then m.stopQueueLocked key now else some m) = some m') :
    Stops now m₀ m' := by
  split_ifs at h
  · exact hm.queue key h
  · cases h
    exact hm

/-- Stopping a keepalive job under a condition. -/
theorem Stops.keepalive_of_ite {m₀ : Manager} {condition : Prop} [Decidable condition]
    (hm : Stops now m₀ m)
    (h : (if condition then m.stopKeepaliveLocked key now else some m) = some m') :
    Stops now m₀ m' := by
  split_ifs at h
  · exact hm.keepalive key h
  · cases h
    exact hm

/-- One round of the loop of `stop` stops whatever is active on the target. -/
theorem stopKey_cases {result result' : StopResult}
    (h : stopKey now (m, result) key = some (m', result')) :
    ∃ job keepalive m₁ m₂, m.jobs.lookup key = some job ∧
      m.keepalives.lookup key = some keepalive ∧ m.stopQueueLocked key now = some m₁ ∧
      m₁.stopKeepaliveLocked key now = some m₂ ∧ m' = m₂.stopAdhocLocked key := by
  simp only [stopKey, Option.bind_eq_bind, Option.bind_eq_some_iff, Option.pure_def] at h
  obtain ⟨job, hjob, keepalive, hkeepalive, m₁, hqueue, m₂, hkeep, arbiter, harbiter, h⟩ := h
  have hstopQueue : m.stopQueueLocked key now = some m₁ := by
    split_ifs at hqueue with hactive
    · exact hqueue
    · rwa [stopQueueLocked_of_idle hjob hactive]
  have hstopKeepalive : m₁.stopKeepaliveLocked key now = some m₂ := by
    rw [← stopQueueLocked_keepalives hstopQueue] at hkeepalive
    split_ifs at hkeep with hactive
    · exact hkeep
    · rwa [stopKeepaliveLocked_of_idle hkeepalive hactive]
  refine ⟨job, keepalive, m₁, m₂, hjob, hkeepalive, hstopQueue, hstopKeepalive, ?_⟩
  have hadhoc : (if arbiter.owner = .adhoc then m₂.stopAdhocLocked key else m₂) =
      m₂.stopAdhocLocked key := by
    split_ifs with howner
    · rfl
    · simp [stopAdhocLocked, harbiter, howner]
  rw [hadhoc] at h
  split_ifs at h <;> cases h <;> rfl

/-- The loop of `stop` stops targets. -/
theorem stops_of_foldlM {keys : List String} {result result' : StopResult} {m₀ : Manager}
    (hm : Stops now m₀ m) (h : keys.foldlM (stopKey now) (m, result) = some (m', result')) :
    Stops now m₀ m' := by
  induction keys generalizing m result with
  | nil =>
    cases h
    exact hm
  | cons key keys ih =>
    rw [List.foldlM_cons, Option.bind_eq_bind, Option.bind_eq_some_iff] at h
    obtain ⟨⟨m₁, result₁⟩, hkey, h⟩ := h
    obtain ⟨_, _, _, _, -, -, hqueue, hkeepalive, rfl⟩ := stopKey_cases hkey
    exact ih (((hm.queue key hqueue).keepalive key hkeepalive).adhoc key) h

section

variable [Go.NetURL]

/-- What `stop` does. -/
theorem stop_cases {names : List String} {result : StopResult}
    (h : m.stop names now = some (m', result)) :
    ∃ m₁, Stops now m m₁ ∧ m₁.Shown m' ∧ (m.resolveLocked names).1.foldlM (stopKey now)
      (m, { unknown := (m.resolveLocked names).2 }) = some (m₁, result) := by
  simp only [stop, Option.bind_eq_bind, Option.bind_eq_some_iff, Option.pure_def] at h
  obtain ⟨⟨m₁, result₁⟩, hloop, m₂, hbroadcast, h⟩ := h
  cases h
  refine ⟨m₁, stops_of_foldlM .refl hloop, ?_, hloop⟩
  rcases shown_of_ite hbroadcast with ⟨-, hshown⟩ | ⟨-, rfl⟩
  · exact hshown
  · exact Shown.refl _

/-- What the section of `prepareMode` does: it refuses, or stops the other mode and an ad-hoc
request. -/
theorem prepareMode_cases {desired : Mode} {outcome : PrepareOutcome}
    (h : m.prepareMode key desired now = some (m', outcome)) :
    ∃ m₁, Stops now m m₁ ∧ m₁.Shown m' := by
  unfold prepareMode at h
  by_cases hrefused : (m.targets.lookup key).isNone = true ∨ m.shuttingDown = true
  · rw [if_pos hrefused] at h
    cases h
    exact ⟨m, .refl, .refl m⟩
  simp only [if_neg hrefused, Option.bind_eq_bind, Option.bind_eq_some_iff, Option.pure_def] at h
  obtain ⟨job, hjob, keepalive, hkeepalive, arbiter, harbiter, h⟩ := h
  by_cases hqueue : desired = .queue ∧ job.state = .running
  · rw [if_pos hqueue] at h
    cases h
    exact ⟨m, .refl, .refl m⟩
  rw [if_neg hqueue] at h
  by_cases hkeep : desired = .keepalive ∧ keepalive.state ≠ .stopped
  · rw [if_pos hkeep] at h
    cases h
    exact ⟨m, .refl, .refl m⟩
  simp only [if_neg hkeep, Option.bind_eq_some_iff] at h
  obtain ⟨m₂, hstopKeepalive, m₁, hstopQueue, busy, -, m₃, hbroadcast, h⟩ := h
  cases h
  have hadhoc : Stops now m (if arbiter.owner = .adhoc then m.stopAdhocLocked key else m) := by
    split_ifs
    · exact .adhoc key .refl
    · exact .refl
  refine ⟨m₁, (hadhoc.keepalive_of_ite hstopKeepalive).queue_of_ite hstopQueue, ?_⟩
  rcases shown_of_ite hbroadcast with ⟨-, hshown⟩ | ⟨-, rfl⟩
  · exact hshown
  · exact .refl _

/-- What the first section of `UpdateTarget` and of `DeleteTarget` does. -/
theorem stopTarget_cases {id : Int} {found : Except Error String}
    (h : m.stopTarget id now = some (m', found)) :
    ∃ m₁, Stops now m m₁ ∧ m₁.Shown m' := by
  unfold stopTarget at h
  cases hkey : m.targetKeyByIDLocked id with
  | none =>
    simp only [hkey] at h
    cases h
    exact ⟨m, .refl, .refl m⟩
  | some key =>
    simp only [hkey, Option.bind_eq_bind, Option.bind_eq_some_iff, Option.pure_def] at h
    obtain ⟨busy, -, h⟩ := h
    cases busy with
    | false =>
      simp only [Bool.false_eq_true, if_false] at h
      cases h
      exact ⟨m, .refl, .refl m⟩
    | true =>
      simp only [if_true, Option.bind_eq_some_iff] at h
      obtain ⟨m₁, hqueue, m₂, hkeepalive, m₃, hbroadcast, h⟩ := h
      cases h
      exact ⟨_, .adhoc key (.keepalive key (.queue key .refl hqueue) hkeepalive),
        shown_of_broadcast hbroadcast⟩

/-! ### Starting -/

omit [Go.NetURL] in
/-- A registration changes only the subscribers. -/
theorem addSubscriberLocked_eq (job : Job) (subscriber : Subscriber) :
    addSubscriberLocked job subscriber =
      { job with subscribers := (addSubscriberLocked job subscriber).subscribers } := by
  unfold addSubscriberLocked
  split_ifs <;> rfl

omit [Go.NetURL] in
/-- A new run does not count its worker yet. -/
theorem beginJob_workers (job : Job) (subscriber : Subscriber) (context : Nat) (now : Time) :
    (beginJob job subscriber context now).workers = job.workers := by
  rw [beginJob, addSubscriberLocked_eq]

omit [Go.NetURL] in
/-- What the section of `startQueue` after a failed `prepareMode` does. -/
theorem rejectQueue_cases {subscriber : Subscriber} {outcome : StartOutcome}
    (h : m.rejectQueue key subscriber = some (m', outcome)) :
    (m' = m ∧ ∃ name, outcome = .refused name) ∨
    (∃ target job, m.targets.lookup key = some target ∧ m.jobs.lookup key = some job ∧
      job.state = .running ∧ subscriber.recipient ≠ "" ∧
      outcome = .joined target.name job.runID ∧
      m' = m.setJob key (addSubscriberLocked job subscriber)) := by
  unfold rejectQueue at h
  cases htarget : m.targets.lookup key with
  | none =>
    simp only [htarget] at h
    cases h
    exact Or.inl ⟨rfl, _, rfl⟩
  | some target =>
    simp only [htarget] at h
    by_cases hrecipient : subscriber.recipient ≠ ""
    · simp only [if_pos hrecipient, Option.bind_eq_bind, Option.bind_eq_some_iff,
        Option.pure_def] at h
      obtain ⟨job, hjob, h⟩ := h
      split_ifs at h with hrunning
      · cases h
        exact Or.inr ⟨target, job, rfl, hjob, hrunning, hrecipient, rfl, rfl⟩
      · cases h
        exact Or.inl ⟨rfl, _, rfl⟩
    · rw [if_neg hrecipient] at h
      cases h
      exact Or.inl ⟨rfl, _, rfl⟩

/-- What the section of `startQueue` after a successful `prepareMode` does. -/
theorem commitQueue_cases {subscriber : Subscriber} {outcome : StartOutcome}
    (h : m.commitQueue key subscriber now = some (m', outcome)) :
    (m' = m ∧ (outcome = .retry ∨ ∃ name, outcome = .refused name)) ∨
    (∃ target job, m.targets.lookup key = some target ∧ m.jobs.lookup key = some job ∧
      job.state = .running ∧ outcome = .joined target.name job.runID ∧
      m' = m.setJob key (addSubscriberLocked job subscriber)) ∨
    (∃ target job keepalive arbiter, m.shuttingDown = false ∧
      m.targets.lookup key = some target ∧ m.jobs.lookup key = some job ∧
      m.keepalives.lookup key = some keepalive ∧ m.arbiters.lookup key = some arbiter ∧
      job.state ≠ .running ∧ keepalive.state = .stopped ∧ keepalive.workers = 0 ∧
      outcome = .started target.name (job.runID + 1) m.nextContext ∧
      { (m.setJob key { beginJob job subscriber m.nextContext now with
          workers := job.workers + 1 }).resignalled key arbiter with
        nextContext := m.nextContext + 1
        runWG := m.runWG + 1 }.Shown m') := by
  unfold commitQueue at h
  by_cases hdown : m.shuttingDown = true
  · rw [if_pos hdown] at h
    cases h
    exact Or.inl ⟨rfl, Or.inr ⟨_, rfl⟩⟩
  rw [if_neg hdown] at h
  cases htarget : m.targets.lookup key with
  | none =>
    simp only [htarget] at h
    cases h
    exact Or.inl ⟨rfl, Or.inr ⟨_, rfl⟩⟩
  | some target =>
    simp only [htarget, Option.bind_eq_bind, Option.bind_eq_some_iff, Option.pure_def] at h
    obtain ⟨job, hjob, h⟩ := h
    by_cases hrunning : job.state = .running
    · rw [if_pos hrunning] at h
      cases h
      exact Or.inr (Or.inl ⟨target, job, rfl, hjob, hrunning, rfl, rfl⟩)
    simp only [if_neg hrunning, Option.bind_eq_some_iff] at h
    obtain ⟨keepalive, hkeepalive, h⟩ := h
    by_cases hbusy : keepalive.state ≠ .stopped ∨ 0 < keepalive.workers
    · rw [if_pos hbusy] at h
      cases h
      exact Or.inl ⟨rfl, Or.inl rfl⟩
    simp only [if_neg hbusy, Option.bind_eq_some_iff] at h
    obtain ⟨m₁, hbroadcast, m₂, hsignal, h⟩ := h
    cases h
    obtain ⟨id, observers, rfl⟩ := shown_of_broadcast hbroadcast
    obtain ⟨arbiter, harbiter, rfl⟩ := signalTargetLocked_cases hsignal
    rw [not_or, not_not] at hbusy
    refine Or.inr (Or.inr ⟨target, job, keepalive, arbiter, by simpa using hdown, rfl, hjob,
      hkeepalive, harbiter, hrunning, hbusy.1, by omega, rfl, id, observers, ?_⟩)
    simp only [setJob, resignalled, AList.insert_insert, beginJob_workers]

/-- What the section of `startKeepalive` after a successful `prepareMode` does. -/
theorem commitKeepalive_cases {outcome : StartOutcome}
    (h : m.commitKeepalive key now = some (m', outcome)) :
    (m' = m ∧ (outcome = .retry ∨ ∃ name, outcome = .refused name)) ∨
    (∃ target job keepalive arbiter, m.shuttingDown = false ∧
      m.targets.lookup key = some target ∧ m.jobs.lookup key = some job ∧
      m.keepalives.lookup key = some keepalive ∧ m.arbiters.lookup key = some arbiter ∧
      keepalive.state = .stopped ∧ job.state ≠ .running ∧ job.workers = 0 ∧
      outcome = .started target.name (keepalive.runID + 1) m.nextContext ∧
      { (m.setKeepalive key { beginKeepaliveJob keepalive m.nextContext now with
          workers := keepalive.workers + 1 }).resignalled key arbiter with
        nextContext := m.nextContext + 1
        runWG := m.runWG + 1 }.Shown m') := by
  unfold commitKeepalive at h
  by_cases hdown : m.shuttingDown = true
  · rw [if_pos hdown] at h
    cases h
    exact Or.inl ⟨rfl, Or.inr ⟨_, rfl⟩⟩
  rw [if_neg hdown] at h
  cases htarget : m.targets.lookup key with
  | none =>
    simp only [htarget] at h
    cases h
    exact Or.inl ⟨rfl, Or.inr ⟨_, rfl⟩⟩
  | some target =>
    simp only [htarget, Option.bind_eq_bind, Option.bind_eq_some_iff, Option.pure_def] at h
    obtain ⟨keepalive, hkeepalive, h⟩ := h
    by_cases hon : keepalive.state ≠ .stopped
    · rw [if_pos hon] at h
      cases h
      exact Or.inl ⟨rfl, Or.inr ⟨_, rfl⟩⟩
    simp only [if_neg hon, Option.bind_eq_some_iff] at h
    obtain ⟨job, hjob, h⟩ := h
    by_cases hbusy : job.state = .running ∨ 0 < job.workers
    · rw [if_pos hbusy] at h
      cases h
      exact Or.inl ⟨rfl, Or.inl rfl⟩
    simp only [if_neg hbusy, Option.bind_eq_some_iff] at h
    obtain ⟨m₁, hbroadcast, m₂, hsignal, h⟩ := h
    cases h
    obtain ⟨id, observers, rfl⟩ := shown_of_broadcast hbroadcast
    obtain ⟨arbiter, harbiter, rfl⟩ := signalTargetLocked_cases hsignal
    rw [not_or] at hbusy
    refine Or.inr ⟨target, job, keepalive, arbiter, by simpa using hdown, rfl, hjob, hkeepalive,
      harbiter, not_not.mp hon, hbusy.1, by omega, rfl, id, observers, ?_⟩
    simp only [setKeepalive, resignalled, AList.insert_insert]
    rfl

/-! ### Settings -/

omit [Go.NetURL] in
/-- What one round of the loop of `UpdateSettings` does. -/
theorem rescheduleKeepalive_cases {draw : String → Nat}
    (h : m.rescheduleKeepalive now draw key = some m') :
    (∃ keepalive nextRequest, m.keepalives.lookup key = some keepalive ∧
      keepalive.state = .waitingNext ∧
      m' = { m with
        closed := keepalive.scheduleChanged :: m.closed
        nextChannel := m.nextChannel + 1
        keepalives := m.keepalives.insert key { keepalive with
          nextRequest, scheduleChanged := m.nextChannel } }) ∨ m' = m := by
  simp only [rescheduleKeepalive, Option.bind_eq_bind, Option.bind_eq_some_iff,
    Option.pure_def] at h
  obtain ⟨keepalive, hkeepalive, h⟩ := h
  split_ifs at h with hwaiting
  · simp only [signalKeepaliveScheduleLocked, setKeepalive, AList.lookup_insert,
      Option.bind_eq_bind, Option.bind_some, Option.pure_def, AList.insert_insert] at h
    cases h
    exact Or.inl ⟨keepalive, _, hkeepalive, hwaiting.1, rfl⟩
  · cases h
    exact Or.inr rfl

/-- What any number of rounds of the loop of `UpdateSettings` can do. -/
inductive Reschedules (now : Time) (draw : String → Nat) (m : Manager) : Manager → Prop
  | refl : Reschedules now draw m m
  | round {m₁ m₂ : Manager} (key : String) (h : Reschedules now draw m m₁)
      (hround : m₁.rescheduleKeepalive now draw key = some m₂) : Reschedules now draw m m₂

omit [Go.NetURL] in
/-- The loop of `UpdateSettings` reschedules keepalive jobs. -/
theorem reschedules_of_foldlM {draw : String → Nat} {keys : List String} {m₀ : Manager}
    (hm : Reschedules now draw m₀ m)
    (h : keys.foldlM (rescheduleKeepalive now draw) m = some m') :
    Reschedules now draw m₀ m' := by
  induction keys generalizing m with
  | nil =>
    cases h
    exact hm
  | cons key keys ih =>
    rw [List.foldlM_cons, Option.bind_eq_bind, Option.bind_eq_some_iff] at h
    obtain ⟨m₁, hround, h⟩ := h
    exact ih (hm.round key hround) h

/-- What `UpdateSettings` does: it reschedules keepalive jobs, may change the limit, and changes the
message. -/
theorem updateSettings_cases {keepaliveMin keepaliveMax : Duration} {maxParallel : Int}
    {successMessage : String} {draw : String → Nat}
    (h : m.updateSettings keepaliveMin keepaliveMax maxParallel successMessage now draw =
      some m') :
    ∃ m₁ m₂, Reschedules now draw { m with keepaliveMin, keepaliveMax } m₁ ∧
      ((m₂ = m₁ ∧ (0 < maxParallel → maxParallel = m₁.maxParallel)) ∨
        (0 < maxParallel ∧ m₂ = { m₁ with maxParallel }.signalParallelLocked)) ∧
      { m₂ with successMessage }.Shown m' := by
  simp only [updateSettings, Option.bind_eq_bind, Option.bind_eq_some_iff] at h
  obtain ⟨m₁, hloop, hbroadcast⟩ := h
  refine ⟨m₁, _, ?_, ?_, shown_of_broadcast hbroadcast⟩
  · split_ifs at hloop with hchanged
    · exact reschedules_of_foldlM .refl hloop
    · cases hloop
      simp only [ne_eq, not_or, not_not] at hchanged
      rw [hchanged.1, hchanged.2]
      exact .refl
  · split_ifs with hlimit
    · exact Or.inr ⟨hlimit.1, rfl⟩
    · exact Or.inl ⟨rfl, fun hpositive ↦ by_contra fun hne ↦ hlimit ⟨hpositive, hne⟩⟩

/-! ### Editing -/

/-- What `CreateTarget` does: an error and no change, or a new target under a free key. -/
theorem createTarget_cases {target : Option Target} {persist : Persist}
    {result : Except Error Unit} (h : m.createTarget target persist = some (m', result)) :
    (m' = m ∧ ∃ error, result = .error error) ∨
    (∃ saved, m.targets.lookup (normalizeName saved.name) = none ∧
      (result = .ok () ∧ ∃ given, target = some given ∧ runPersist given persist = .ok saved) ∧
      (m.addTarget saved).sortTargetsLocked.Shown m') := by
  unfold createTarget at h
  cases target with
  | none =>
    cases h
    exact Or.inl ⟨rfl, _, rfl⟩
  | some target =>
    dsimp only at h
    by_cases hexists : (m.targets.lookup (normalizeName target.name)).isSome = true
    · rw [if_pos hexists] at h
      cases h
      exact Or.inl ⟨rfl, _, rfl⟩
    rw [if_neg hexists] at h
    cases hpersist : runPersist target persist with
    | error error =>
      simp only [hpersist] at h
      cases h
      exact Or.inl ⟨rfl, _, rfl⟩
    | ok saved =>
      simp only [hpersist] at h
      by_cases hconflict : (m.targets.lookup (normalizeName saved.name)).isSome = true
      · rw [if_pos hconflict] at h
        cases h
        exact Or.inl ⟨rfl, _, rfl⟩
      · simp only [if_neg hconflict, Option.bind_eq_bind, Option.bind_eq_some_iff,
          Option.pure_def] at h
        obtain ⟨m₁, hbroadcast, h⟩ := h
        cases h
        exact Or.inr ⟨saved, by simpa using hconflict, ⟨rfl, target, rfl, hpersist⟩,
          shown_of_broadcast hbroadcast⟩

/-- What the last section of `UpdateTarget` does: an error and no change, or new data for an idle
target, which may move to another key. -/
theorem updateTarget_cases {id : Int} {target : Target} {persist : Persist}
    {result : Except Error Unit} (h : m.updateTarget id target persist = some (m', result)) :
    (m' = m ∧ ∃ error, result = .error error) ∨
    (∃ oldKey saved m₁, m.targetKeyByIDLocked id = some oldKey ∧
      m.targetBusyLocked oldKey = some false ∧
      m.conflicts (normalizeName saved.name) id = false ∧
      runPersist target persist = .ok saved ∧ result = .ok () ∧
      ((normalizeName saved.name = oldKey ∧ m₁ = m) ∨
        (normalizeName saved.name ≠ oldKey ∧
          m.renameTarget oldKey (normalizeName saved.name) = some m₁)) ∧
      { m₁ with
        targets := m₁.targets.insert (normalizeName saved.name) saved
        }.sortTargetsLocked.Shown m') := by
  unfold updateTarget at h
  cases hkey : m.targetKeyByIDLocked id with
  | none =>
    simp only [hkey] at h
    cases h
    exact Or.inl ⟨rfl, _, rfl⟩
  | some oldKey =>
    simp only [hkey, Option.bind_eq_bind, Option.bind_eq_some_iff, Option.pure_def] at h
    obtain ⟨busy, hbusy, h⟩ := h
    cases busy with
    | true =>
      simp only [if_true] at h
      cases h
      exact Or.inl ⟨rfl, _, rfl⟩
    | false =>
      simp only [Bool.false_eq_true, if_false] at h
      split_ifs at h with hconflict
      · cases h
        exact Or.inl ⟨rfl, _, rfl⟩
      cases hpersist : runPersist target persist with
      | error error =>
        simp only [hpersist] at h
        cases h
        exact Or.inl ⟨rfl, _, rfl⟩
      | ok saved =>
        simp only [hpersist] at h
        by_cases hagain : m.conflicts (normalizeName saved.name) id = true
        · rw [if_pos hagain] at h
          cases h
          exact Or.inl ⟨rfl, _, rfl⟩
        · simp only [if_neg hagain, Option.bind_eq_some_iff] at h
          obtain ⟨m₁, hrename, m₂, hbroadcast, h⟩ := h
          cases h
          refine Or.inr ⟨oldKey, saved, m₁, rfl, hbusy, by simpa using hagain, rfl, rfl, ?_,
            shown_of_broadcast hbroadcast⟩
          split_ifs at hrename with hmoved
          · exact Or.inr ⟨hmoved, hrename⟩
          · cases hrename
            exact Or.inl ⟨not_not.mp hmoved, rfl⟩

/-- What the last section of `DeleteTarget` does: an error and no change, or an idle target is
removed. -/
theorem deleteTarget_cases {id : Int} {persist : Persist} {result : Except Error Unit}
    (h : m.deleteTarget id persist = some (m', result)) :
    (m' = m ∧ ∃ error, result = .error error) ∨
    (∃ key, m.targetKeyByIDLocked id = some key ∧ m.targetBusyLocked key = some false ∧
      result = .ok () ∧
      { m with
        targets := m.targets.erase key
        jobs := m.jobs.erase key
        keepalives := m.keepalives.erase key
        arbiters := m.arbiters.erase key
        order := m.order.erase key }.Shown m') := by
  unfold deleteTarget at h
  cases hkey : m.targetKeyByIDLocked id with
  | none =>
    simp only [hkey] at h
    cases h
    exact Or.inl ⟨rfl, _, rfl⟩
  | some key =>
    simp only [hkey, Option.bind_eq_bind, Option.bind_eq_some_iff, Option.pure_def] at h
    obtain ⟨busy, hbusy, h⟩ := h
    cases busy with
    | true =>
      simp only [if_true] at h
      cases h
      exact Or.inl ⟨rfl, _, rfl⟩
    | false =>
      simp only [Bool.false_eq_true, if_false] at h
      cases persist with
      | failed message =>
        cases h
        exact Or.inl ⟨rfl, _, rfl⟩
      | absent | saved _ =>
        simp only [Option.bind_eq_some_iff] at h
        obtain ⟨m₁, hbroadcast, h⟩ := h
        cases h
        exact Or.inr ⟨key, rfl, hbusy, rfl, shown_of_broadcast hbroadcast⟩

/-! ### Observing -/

/-- What `Observe` does to the manager. -/
theorem observe_cases {buffer : Int} {snapshot : ManagerSnapshot} {id : Nat}
    (h : m.observe buffer = some (m', snapshot, id)) :
    ∃ observers, m' = { m with nextObserverID := m.nextObserverID + 1, observers } := by
  simp only [observe, Option.bind_eq_bind, Option.bind_eq_some_iff, Option.pure_def] at h
  obtain ⟨_, -, h⟩ := h
  cases h
  exact ⟨_, rfl⟩

end

end Manager

end CodexQueueBot.Jobs
