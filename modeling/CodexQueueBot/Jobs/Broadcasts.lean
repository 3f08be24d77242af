import CodexQueueBot.Jobs.Activity
import CodexQueueBot.Jobs.CallOutcomes

/-!
# Every visible change is broadcast

A section of the manager either leaves the snapshot and the channels of the observers as they are,
or publishes the snapshot of the state that it leaves: `Discloses` says so. Several sections change
records without a broadcast. They take or give back the arbiter of a target, or count a worker of a
run that has just been announced; the snapshot shows the owner of an arbiter only through the `Busy`
flag and through `AdhocRunning`, and the target is busy before and after, because the worker that
takes the step is counted or its job is running.
-/

set_option autoImplicit false
set_option relaxedAutoImplicit false

namespace CodexQueueBot.Jobs

open Lib

namespace Manager

variable {m m' m₁ : Manager} {key : String} {runID : Nat} {now : Time}

/-! ### Observers -/

/-- What concerns the observers: the number of the last event and of the last observer, and the
observers themselves. -/
def feed (m : Manager) : Nat × Nat × List Observer :=
  (m.nextEventID, m.nextObserverID, m.observers)

/-- The numbers and observers of a feed. -/
theorem eq_of_feed {nextEventID nextObserverID : Nat} {observers : List Observer}
    (h : m.feed = (nextEventID, nextObserverID, observers)) :
    m.nextEventID = nextEventID ∧ m.nextObserverID = nextObserverID ∧ m.observers = observers := by
  cases h
  exact ⟨rfl, rfl, rfl⟩

/-- A signal leaves the feed alone. -/
theorem signalTargetLocked_feed (h : m.signalTargetLocked key = some m') :
    m'.feed = m.feed := by
  obtain ⟨arbiter, -, rfl⟩ := signalTargetLocked_cases h
  rfl

/-- A release leaves the feed alone. -/
theorem releaseTargetLocked_feed {owner : RequestOwner}
    (h : m.releaseTargetLocked key owner runID = some m') : m'.feed = m.feed := by
  obtain ⟨arbiter, -, ⟨-, rfl⟩ | ⟨-, rfl⟩⟩ := releaseTargetLocked_cases h <;> rfl

/-- Cancelling a context leaves the feed alone. -/
theorem callCancel_feed (cancel : Option Nat) :
    (m.callCancel cancel).feed = m.feed := by
  cases cancel <;> rfl

/-- Stop operations leave the feed alone. -/
theorem Stops.feed (h : Stops now m m') : m'.feed = m.feed := by
  induction h with
  | refl => rfl
  | queue key _ hstop ih =>
    rcases stopQueueLocked_cases hstop with ⟨job, arbiter, -, -, -, rfl⟩ | ⟨-, rfl⟩
    · rw [callCancel_feed]
      exact ih
    · exact ih
  | keepalive key _ hstop ih =>
    rcases stopKeepaliveLocked_cases hstop with ⟨keepalive, arbiter, -, -, -, rfl⟩ | ⟨-, rfl⟩
    · rw [callCancel_feed]
      exact ih
    · exact ih
  | adhoc key _ ih =>
    rename_i m₁ _
    rcases stopAdhocLocked_cases m₁ key with ⟨arbiter, -, -, heq⟩ | ⟨-, heq⟩
    · rw [heq, callCancel_feed]
      exact ih
    · rw [heq]
      exact ih

/-- Rescheduling leaves the feed alone. -/
theorem Reschedules.feed {draw : String → Nat} (h : Reschedules now draw m m') :
    m'.feed = m.feed := by
  induction h with
  | refl => rfl
  | round key _ hround ih =>
    rcases rescheduleKeepalive_cases hround with ⟨keepalive, _, -, -, rfl⟩ | rfl
    · exact ih
    · exact ih

/-- Giving back the counts of an ad-hoc request leaves the feed alone. -/
theorem giveBack_feed (slotAcquired processStarted : Bool) :
    ((m.giveBackProcess processStarted).giveBackSlot slotAcquired).feed = m.feed := by
  unfold giveBackSlot giveBackProcess
  split_ifs <;> rfl

section

variable [Go.NetURL]

/-! ### Snapshots -/

/-- A snapshot shows the entries of the targets in order, the processes and the limit. -/
theorem snapshotLocked_congr (horder : m'.order = m.order)
    (hprocesses : m'.currentProcesses = m.currentProcesses)
    (hlimit : m'.maxParallel = m.maxParallel) (hentries : m'.targetSnapshot = m.targetSnapshot) :
    m'.snapshotLocked = m.snapshotLocked := by
  simp only [snapshotLocked, horder, hprocesses, hlimit, hentries]

/-- The entry of a target shows of an arbiter whether the target is busy and whether the owner is an
ad-hoc request. -/
theorem targetSnapshot_setArbiter {arbiter new : TargetArbiter}
    (harbiter : m.arbiters.lookup key = some arbiter)
    (hadhoc : (new.owner == .adhoc) = (arbiter.owner == .adhoc))
    (hbusy : ∀ job keepalive, m.jobs.lookup key = some job →
      m.keepalives.lookup key = some keepalive →
      busyRecords job keepalive new = busyRecords job keepalive arbiter) :
    (m.setArbiter key new).targetSnapshot = m.targetSnapshot := by
  funext other
  by_cases heq : other = key
  · subst heq
    simp only [targetSnapshot, setArbiter, AList.lookup_insert, harbiter, Manager.target]
    cases hjob : m.jobs.lookup other with
    | none => rfl
    | some job =>
      cases hkeepalive : m.keepalives.lookup other with
      | none => rfl
      | some keepalive => simp [hbusy job keepalive hjob hkeepalive, hadhoc]
  · simp only [targetSnapshot, setArbiter, AList.lookup_insert_ne heq, Manager.target]

/-- The entry of a target shows of a job the fields of its snapshot and whether the target is
busy. -/
theorem targetSnapshot_setJob {job new : Job} (hjob : m.jobs.lookup key = some job)
    (hshown : ∀ target, queueSnapshot target new = queueSnapshot target job)
    (hbusy : ∀ keepalive arbiter,
      busyRecords new keepalive arbiter = busyRecords job keepalive arbiter) :
    (m.setJob key new).targetSnapshot = m.targetSnapshot := by
  funext other
  by_cases heq : other = key
  · subst heq
    simp only [targetSnapshot, setJob, AList.lookup_insert, hjob, Manager.target]
    simp [hbusy, hshown]
  · simp only [targetSnapshot, setJob, AList.lookup_insert_ne heq, Manager.target]

/-- The entry of a target shows of a keepalive job the fields of its snapshot and whether the target
is busy. -/
theorem targetSnapshot_setKeepalive {keepalive new : KeepaliveJob}
    (hkeepalive : m.keepalives.lookup key = some keepalive)
    (hshown : ∀ target, keepaliveSnapshot target new = keepaliveSnapshot target keepalive)
    (hbusy : ∀ job arbiter, busyRecords job new arbiter = busyRecords job keepalive arbiter) :
    (m.setKeepalive key new).targetSnapshot = m.targetSnapshot := by
  funext other
  by_cases heq : other = key
  · subst heq
    simp only [targetSnapshot, setKeepalive, AList.lookup_insert, hkeepalive, Manager.target]
    simp [hbusy, hshown]
  · simp only [targetSnapshot, setKeepalive, AList.lookup_insert_ne heq, Manager.target]

/-- The entries do not show the channel of an arbiter. -/
theorem targetSnapshot_resignalled {arbiter : TargetArbiter}
    (harbiter : m.arbiters.lookup key = some arbiter) :
    (m.resignalled key arbiter).targetSnapshot = m.targetSnapshot := by
  have hset : (m.setArbiter key { arbiter with changed := m.nextChannel }).targetSnapshot =
      m.targetSnapshot := targetSnapshot_setArbiter harbiter rfl fun _ _ _ _ ↦ rfl
  exact hset

/-! ### Disclosure -/

/-- Nothing that is visible changes, and nothing is published. -/
def Unseen (m m' : Manager) : Prop :=
  m'.feed = m.feed ∧ m'.snapshotLocked = m.snapshotLocked

/-- The next event is published, with the snapshot of the new state. -/
def Announced (m m' : Manager) : Prop :=
  ∃ event : Event, event.id = m.nextEventID + 1 ∧
    m'.feed = (event.id, m.nextObserverID, m.observers.map (publishTo event)) ∧
    m'.snapshotLocked = some event.snapshot

/-- A section changes nothing visible, or publishes the new state. -/
def Discloses (m m' : Manager) : Prop :=
  Unseen m m' ∨ Announced m m'

/-- No change is unseen. -/
theorem Discloses.refl (m : Manager) : m.Discloses m :=
  Or.inl ⟨rfl, rfl⟩

/-- A change that is not visible, of the fields that a snapshot is made of. -/
theorem Discloses.of_unseen (hfeed : m'.feed = m.feed)
    (horder : m'.order = m.order) (hprocesses : m'.currentProcesses = m.currentProcesses)
    (hlimit : m'.maxParallel = m.maxParallel) (hentries : m'.targetSnapshot = m.targetSnapshot) :
    m.Discloses m' :=
  Or.inl ⟨hfeed, snapshotLocked_congr horder hprocesses hlimit hentries⟩

/-- A broadcast at the end of a section announces the state. -/
theorem announced_of_broadcast (h : m₁.broadcastStateLocked = some m')
    (hfeed : m₁.feed = m.feed) : m.Announced m' := by
  simp only [broadcastStateLocked, Option.bind_eq_bind, Option.bind_eq_some_iff, Option.pure_def,
    Option.some.injEq] at h
  obtain ⟨snapshot, hsnapshot, rfl⟩ := h
  obtain ⟨hevent, hobserver, hobservers⟩ := eq_of_feed hfeed
  refine ⟨⟨m₁.nextEventID + 1, snapshot⟩, congrArg (· + 1) hevent, ?_, hsnapshot⟩
  rw [← hobserver, ← hobservers]
  rfl

/-- A broadcast at the end of a section discloses the state. -/
theorem Discloses.of_broadcast (h : m₁.broadcastStateLocked = some m')
    (hfeed : m₁.feed = m.feed) : m.Discloses m' :=
  Or.inr (announced_of_broadcast h hfeed)

/-- What is announced stays announced when nothing visible changes afterwards. -/
theorem Announced.unseen (h : m.Announced m₁) (hunseen : m₁.Unseen m') : m.Announced m' := by
  obtain ⟨event, hevent, hfeed, hsnapshot⟩ := h
  exact ⟨event, hevent, hunseen.1.trans hfeed, hunseen.2.trans hsnapshot⟩

/-- A broadcast under a condition discloses the state. -/
theorem Discloses.of_ite {condition : Prop} [Decidable condition]
    (h : (if condition then m₁.broadcastStateLocked else some m) = some m')
    (hfeed : m₁.feed = m.feed) : m.Discloses m' := by
  split_ifs at h
  · exact .of_broadcast h hfeed
  · cases h
    exact .refl _

/-! ### Sections of queue workers -/

omit [Go.NetURL] in
/-- A target is busy whatever its arbiter says. -/
def Occupied (m : Manager) (key : String) : Prop :=
  ∀ job keepalive arbiter, m.jobs.lookup key = some job →
    m.keepalives.lookup key = some keepalive → busyRecords job keepalive arbiter = true

/-- A target that is busy anyway is released unseen, unless the owner is an ad-hoc request. -/
theorem Discloses.of_release {owner : RequestOwner} (hoccupied : m.Occupied key)
    (howner : owner ≠ .adhoc) (h : m.releaseTargetLocked key owner runID = some m') :
    m.Discloses m' := by
  obtain ⟨arbiter, harbiter, ⟨⟨hmine, -⟩, rfl⟩ | ⟨-, rfl⟩⟩ := releaseTargetLocked_cases h
  · have hset : (m.setArbiter key { arbiter with
        owner := .none, ownerRunID := 0, cancel := none,
        changed := m.nextChannel }).targetSnapshot = m.targetSnapshot := by
      refine targetSnapshot_setArbiter harbiter ?_ ?_
      · simp [hmine, howner]
      · intro job keepalive hjob hkeepalive
        rw [hoccupied job keepalive _ hjob hkeepalive, hoccupied job keepalive _ hjob hkeepalive]
    exact .of_unseen rfl rfl rfl rfl hset
  · exact .refl _

/-- `acquireQueueTarget` takes a target whose queue is on. -/
theorem Discloses.acquireQueueTarget {outcome : TargetOutcome}
    (h : m.acquireQueueTarget key runID = some (m', outcome)) : m.Discloses m' := by
  obtain ⟨job, arbiter, hjob, harbiter, hcases⟩ := acquireQueueTarget_cases h
  rcases hcases with ⟨-, -, rfl⟩ | ⟨hcurrent, hfree, -, rfl⟩ | ⟨-, -, -, rfl⟩
  · exact .refl _
  · refine .of_unseen rfl rfl rfl rfl (targetSnapshot_setArbiter harbiter ?_ ?_)
    · rw [hfree]
      rfl
    · intro job' keepalive hjob' _
      obtain rfl := Option.some.inj (hjob.symm.trans hjob')
      simp [busyRecords, hcurrent.2]
  · exact .refl _

/-- `beginAttempt`. -/
theorem Discloses.beginAttempt {begun : Option (Nat × Target)}
    (h : m.beginAttempt key runID now = some (m', begun)) : m.Discloses m' := by
  simp only [Manager.beginAttempt, Option.bind_eq_bind, Option.bind_eq_some_iff,
    Option.pure_def] at h
  obtain ⟨job, -, arbiter, -, h⟩ := h
  split_ifs at h
  · cases h
    exact .refl _
  · simp only [Option.bind_eq_some_iff] at h
    obtain ⟨m₁, hbroadcast, h⟩ := h
    cases h
    exact .of_broadcast hbroadcast rfl

/-- `markFailure`. -/
theorem Discloses.markFailure {result : Result} {valid : Bool} (hoccupied : m.Occupied key)
    (h : m.markFailure key runID result = some (m', valid)) : m.Discloses m' := by
  simp only [Manager.markFailure, Option.bind_eq_bind, Option.bind_eq_some_iff,
    Option.pure_def] at h
  obtain ⟨job, -, h⟩ := h
  split_ifs at h <;> simp only [Option.bind_eq_some_iff] at h
  · obtain ⟨m₁, hrelease, m₂, hbroadcast, h⟩ := h
    cases h
    exact .of_broadcast hbroadcast (releaseTargetLocked_feed hrelease :)
  · obtain ⟨m₁, hrelease, h⟩ := h
    cases h
    exact .of_release hoccupied (by decide) hrelease

/-- `markSuccess`. -/
theorem Discloses.markSuccess {success : Option Success} (hoccupied : m.Occupied key)
    (h : m.markSuccess key runID now = some (m', success)) : m.Discloses m' := by
  simp only [Manager.markSuccess, Option.bind_eq_bind, Option.bind_eq_some_iff,
    Option.pure_def] at h
  obtain ⟨job, -, h⟩ := h
  split_ifs at h <;> simp only [Option.bind_eq_some_iff] at h
  · obtain ⟨m₁, hrelease, h⟩ := h
    cases h
    exact .of_release hoccupied (by decide) hrelease
  · obtain ⟨m₁, hrelease, m₂, hbroadcast, h⟩ := h
    cases h
    exact .of_broadcast hbroadcast
      ((releaseTargetLocked_feed hrelease).trans (callCancel_feed _))

/-- `markQueueCancelled`. -/
theorem Discloses.markQueueCancelled (hoccupied : m.Occupied key)
    (h : m.markQueueCancelled key runID now = some m') : m.Discloses m' := by
  simp only [Manager.markQueueCancelled, Option.bind_eq_bind, Option.bind_eq_some_iff,
    Option.pure_def] at h
  obtain ⟨job, -, m₁, hrelease, h⟩ := h
  split_ifs at h
  · cases h
    exact .of_release hoccupied (by decide) hrelease
  · simp only [Option.bind_eq_some_iff] at h
    obtain ⟨m₂, hsignal, hbroadcast⟩ := h
    have hreleased := releaseTargetLocked_feed hrelease
    exact .of_broadcast hbroadcast ((signalTargetLocked_feed hsignal).trans hreleased)

/-- `finishQueueWorker`. -/
theorem Discloses.finishQueueWorker (h : m.finishQueueWorker key = some m') : m.Discloses m' := by
  unfold Manager.finishQueueWorker at h
  split at h
  · exact .of_ite h rfl
  · cases h
    exact .refl _

/-! ### Sections of keepalive workers -/

/-- The first section of `beginKeepaliveRequest`. -/
theorem Discloses.beginKeepaliveRequest {outcome : TargetOutcome}
    (h : m.beginKeepaliveRequest key runID = some (m', outcome)) : m.Discloses m' := by
  simp only [Manager.beginKeepaliveRequest, Option.bind_eq_bind, Option.bind_eq_some_iff,
    Option.pure_def] at h
  obtain ⟨keepalive, -, job, -, arbiter, -, h⟩ := h
  by_cases hstale : keepalive.runID ≠ runID ∨ keepalive.state = .stopped
  · rw [if_pos hstale] at h
    cases h
    exact .refl _
  rw [if_neg hstale] at h
  by_cases htaken : job.state = .running ∨ arbiter.owner ≠ .none
  · rw [if_pos htaken, Option.bind_eq_some_iff] at h
    obtain ⟨m₁, hwrite, h⟩ := h
    cases h
    exact .of_ite hwrite rfl
  · rw [if_neg htaken, Option.bind_eq_some_iff] at h
    obtain ⟨m₁, hwrite, h⟩ := h
    cases h
    exact .of_ite hwrite rfl

/-- The second section of `beginKeepaliveRequest`. -/
theorem Discloses.confirmKeepaliveRequest {outcome : ConfirmOutcome}
    (h : m.confirmKeepaliveRequest key runID now = some (m', outcome)) : m.Discloses m' := by
  simp only [Manager.confirmKeepaliveRequest, Option.bind_eq_bind, Option.bind_eq_some_iff,
    Option.pure_def] at h
  obtain ⟨keepalive, -, job, -, arbiter, -, h⟩ := h
  by_cases hstale : keepalive.runID ≠ runID ∨ keepalive.state = .stopped
  · rw [if_pos hstale] at h
    cases h
    exact .refl _
  rw [if_neg hstale] at h
  by_cases htaken : job.state = .running ∨ arbiter.owner ≠ .none
  · rw [if_pos htaken, Option.bind_eq_some_iff] at h
    obtain ⟨m₁, hwrite, h⟩ := h
    cases h
    exact .of_ite hwrite rfl
  · rw [if_neg htaken, Option.bind_eq_some_iff] at h
    obtain ⟨m₁, hbroadcast, h⟩ := h
    cases h
    exact .of_broadcast hbroadcast rfl

/-- `finishKeepaliveRequest`. -/
theorem Discloses.finishKeepaliveRequest {result : Result} {draw : Nat} {valid : Bool}
    (hoccupied : m.Occupied key)
    (h : m.finishKeepaliveRequest key runID result now draw = some (m', valid)) :
    m.Discloses m' := by
  simp only [Manager.finishKeepaliveRequest, Option.bind_eq_bind, Option.bind_eq_some_iff,
    Option.pure_def] at h
  obtain ⟨keepalive, -, h⟩ := h
  split_ifs at h <;> simp only [Option.bind_eq_some_iff] at h
  · obtain ⟨m₁, hrelease, h⟩ := h
    cases h
    exact .of_release hoccupied (by decide) hrelease
  · obtain ⟨m₁, hrelease, m₂, hbroadcast, h⟩ := h
    cases h
    exact .of_broadcast hbroadcast (releaseTargetLocked_feed hrelease :)

/-- `markKeepaliveCancelled`. -/
theorem Discloses.markKeepaliveCancelled (hoccupied : m.Occupied key)
    (h : m.markKeepaliveCancelled key runID now = some m') : m.Discloses m' := by
  simp only [Manager.markKeepaliveCancelled, Option.bind_eq_bind, Option.bind_eq_some_iff,
    Option.pure_def] at h
  obtain ⟨keepalive, -, m₁, hrelease, h⟩ := h
  split_ifs at h
  · cases h
    exact .of_release hoccupied (by decide) hrelease
  · simp only [Option.bind_eq_some_iff] at h
    obtain ⟨m₂, hsignal, hbroadcast⟩ := h
    have hreleased := releaseTargetLocked_feed hrelease
    exact .of_broadcast hbroadcast ((signalTargetLocked_feed hsignal).trans hreleased)

/-- `finishKeepaliveWorker`. -/
theorem Discloses.finishKeepaliveWorker (h : m.finishKeepaliveWorker key = some m') :
    m.Discloses m' := by
  unfold Manager.finishKeepaliveWorker at h
  split at h
  · exact .of_ite h rfl
  · cases h
    exact .refl _

/-! ### Sections of ad-hoc requests -/

/-- The second section of `RunAdhoc`. -/
theorem Discloses.confirmAdhoc {confirmed : Bool}
    (h : m.confirmAdhoc key runID = some (m', confirmed)) : m.Discloses m' := by
  unfold Manager.confirmAdhoc at h
  split at h
  · cases h
    exact .refl _
  · split_ifs at h
    · cases h
      exact .refl _
    · simp only [Option.bind_eq_bind, Option.bind_eq_some_iff, Option.pure_def] at h
      obtain ⟨m₁, hbroadcast, h⟩ := h
      cases h
      exact .of_broadcast hbroadcast rfl

/-- `finishAdhocRequest`, after its context is cancelled. -/
theorem Discloses.finishAdhocRequest {slotAcquired processStarted : Bool} {cancel : Option Nat}
    (h : (m.callCancel cancel).finishAdhocRequest key runID slotAcquired processStarted =
      some m') : m.Discloses m' := by
  have hback := (@giveBack_feed (m.callCancel cancel) slotAcquired processStarted).trans
    (callCancel_feed cancel)
  simp only [Manager.finishAdhocRequest, Option.bind_eq_bind] at h
  split at h
  · exact .of_broadcast h hback
  · split_ifs at h
    · rw [Option.bind_eq_some_iff] at h
      obtain ⟨m₁, hsignal, hbroadcast⟩ := h
      exact .of_broadcast hbroadcast ((signalTargetLocked_feed hsignal).trans hback)
    · exact .of_broadcast h hback

/-- The first section of `RunAdhoc`. -/
theorem Discloses.reserveAdhoc {id : Int} {reserved : Except Error Reservation}
    (h : m.reserveAdhoc id = some (m', reserved)) : m.Discloses m' := by
  unfold Manager.reserveAdhoc at h
  by_cases hrunner : ¬ m.promptRunner = true
  · rw [if_pos hrunner] at h
    cases h
    exact .refl _
  rw [if_neg hrunner] at h
  cases hkey : m.targetKeyByIDLocked id with
  | none =>
    rw [hkey] at h
    cases h
    exact .refl _
  | some key =>
    simp only [hkey] at h
    by_cases hdown : m.shuttingDown = true ∨ m.rootDone = true
    · rw [if_pos hdown] at h
      cases h
      exact .refl _
    simp only [if_neg hdown, Option.bind_eq_bind, Option.bind_eq_some_iff, Option.pure_def] at h
    obtain ⟨busy, -, h⟩ := h
    cases busy with
    | true =>
      cases h
      exact .refl _
    | false =>
      simp only [Bool.false_eq_true, if_false, Option.bind_eq_some_iff] at h
      obtain ⟨arbiter, -, m₁, hbroadcast, h⟩ := h
      cases h
      exact .of_broadcast hbroadcast rfl

/-! ### Sections of the calls -/

/-- A subscriber is not shown. -/
theorem Discloses.addSubscriber {job : Job} (hjob : m.jobs.lookup key = some job)
    (subscriber : Subscriber) :
    m.Discloses (m.setJob key (addSubscriberLocked job subscriber)) := by
  refine .of_unseen rfl rfl rfl rfl (targetSnapshot_setJob hjob ?_ ?_)
  · intro target
    unfold addSubscriberLocked
    split_ifs <;> rfl
  · intro keepalive arbiter
    unfold addSubscriberLocked
    split_ifs <;> rfl

/-- The section of `startQueue` after `prepareMode` has failed. -/
theorem Discloses.rejectQueue {subscriber : Subscriber} {outcome : StartOutcome}
    (h : m.rejectQueue key subscriber = some (m', outcome)) : m.Discloses m' := by
  rcases rejectQueue_cases h with ⟨rfl, -⟩ | ⟨target, job, -, hjob, -, -, -, rfl⟩
  · exact .refl _
  · exact .addSubscriber hjob subscriber

/-- A signal and the count of a worker whose queue run is on are not shown. -/
theorem Unseen.countQueueWorker {job : Job} (hjob : m.jobs.lookup key = some job)
    (hrunning : job.state = .running) (hsignal : m.signalTargetLocked key = some m₁) :
    m.Unseen { m₁.setJob key { job with workers := job.workers + 1 } with
      runWG := m₁.runWG + 1 } := by
  obtain ⟨arbiter, harbiter, rfl⟩ := signalTargetLocked_cases hsignal
  refine ⟨rfl, snapshotLocked_congr rfl rfl rfl ?_⟩
  have hset : ((m.resignalled key arbiter).setJob key
      { job with workers := job.workers + 1 }).targetSnapshot =
      (m.resignalled key arbiter).targetSnapshot :=
    targetSnapshot_setJob hjob (fun _ ↦ rfl) fun _ _ ↦ by simp [busyRecords, hrunning]
  exact hset.trans (targetSnapshot_resignalled harbiter)

/-- A signal and the count of a worker whose keepalive run is on are not shown. -/
theorem Unseen.countKeepaliveWorker {keepalive : KeepaliveJob}
    (hkeepalive : m.keepalives.lookup key = some keepalive) (hon : keepalive.state ≠ .stopped)
    (hsignal : m.signalTargetLocked key = some m₁) :
    m.Unseen { m₁.setKeepalive key { keepalive with workers := keepalive.workers + 1 } with
      runWG := m₁.runWG + 1 } := by
  obtain ⟨arbiter, harbiter, rfl⟩ := signalTargetLocked_cases hsignal
  refine ⟨rfl, snapshotLocked_congr rfl rfl rfl ?_⟩
  have hset : ((m.resignalled key arbiter).setKeepalive key
      { keepalive with workers := keepalive.workers + 1 }).targetSnapshot =
      (m.resignalled key arbiter).targetSnapshot :=
    targetSnapshot_setKeepalive hkeepalive (fun _ ↦ rfl) fun _ _ ↦ by simp [busyRecords, hon]
  exact hset.trans (targetSnapshot_resignalled harbiter)

/-- The section of `startQueue` after `prepareMode` has succeeded: the worker is counted after the
broadcast, but the run that it belongs to is on. -/
theorem Discloses.commitQueue {subscriber : Subscriber} {outcome : StartOutcome}
    (h : m.commitQueue key subscriber now = some (m', outcome)) : m.Discloses m' := by
  unfold Manager.commitQueue at h
  by_cases hdown : m.shuttingDown = true
  · rw [if_pos hdown] at h
    cases h
    exact .refl _
  rw [if_neg hdown] at h
  cases htarget : m.targets.lookup key with
  | none =>
    simp only [htarget] at h
    cases h
    exact .refl _
  | some target =>
    simp only [htarget, Option.bind_eq_bind, Option.bind_eq_some_iff, Option.pure_def] at h
    obtain ⟨job, hjob, h⟩ := h
    by_cases hrunning : job.state = .running
    · rw [if_pos hrunning] at h
      cases h
      exact .addSubscriber hjob subscriber
    simp only [if_neg hrunning, Option.bind_eq_some_iff] at h
    obtain ⟨keepalive, -, h⟩ := h
    by_cases hbusy : keepalive.state ≠ .stopped ∨ 0 < keepalive.workers
    · rw [if_pos hbusy] at h
      cases h
      exact .refl _
    simp only [if_neg hbusy, Option.bind_eq_some_iff] at h
    obtain ⟨m₁, hbroadcast, m₂, hsignal, h⟩ := h
    cases h
    have hannounced : m.Announced m₁ := announced_of_broadcast hbroadcast rfl
    have hjob₁ : m₁.jobs.lookup key = some (beginJob job subscriber m.nextContext now) := by
      obtain ⟨_, _, rfl⟩ := shown_of_broadcast hbroadcast
      exact AList.lookup_insert _
    exact Or.inr (hannounced.unseen (.countQueueWorker hjob₁ rfl hsignal))

/-- The section of `startKeepalive` after `prepareMode` has succeeded. -/
theorem Discloses.commitKeepalive {outcome : StartOutcome}
    (h : m.commitKeepalive key now = some (m', outcome)) : m.Discloses m' := by
  unfold Manager.commitKeepalive at h
  by_cases hdown : m.shuttingDown = true
  · rw [if_pos hdown] at h
    cases h
    exact .refl _
  rw [if_neg hdown] at h
  cases htarget : m.targets.lookup key with
  | none =>
    simp only [htarget] at h
    cases h
    exact .refl _
  | some target =>
    simp only [htarget, Option.bind_eq_bind, Option.bind_eq_some_iff, Option.pure_def] at h
    obtain ⟨keepalive, hkeepalive, h⟩ := h
    by_cases hstopped : keepalive.state ≠ .stopped
    · rw [if_pos hstopped] at h
      cases h
      exact .refl _
    simp only [if_neg hstopped, Option.bind_eq_some_iff] at h
    obtain ⟨job, -, h⟩ := h
    by_cases hbusy : job.state = .running ∨ 0 < job.workers
    · rw [if_pos hbusy] at h
      cases h
      exact .refl _
    simp only [if_neg hbusy, Option.bind_eq_some_iff] at h
    obtain ⟨m₁, hbroadcast, m₂, hsignal, h⟩ := h
    cases h
    have hannounced : m.Announced m₁ := announced_of_broadcast hbroadcast rfl
    have hkeepalive₁ : m₁.keepalives.lookup key =
        some (beginKeepaliveJob keepalive m.nextContext now) := by
      obtain ⟨_, _, rfl⟩ := shown_of_broadcast hbroadcast
      exact AList.lookup_insert _
    exact Or.inr (hannounced.unseen (.countKeepaliveWorker hkeepalive₁
        (by simp [beginKeepaliveJob]) hsignal))

/-- The section of `prepareMode` broadcasts if it stops anything. -/
theorem Discloses.prepareMode {desired : Mode} {outcome : PrepareOutcome}
    (h : m.prepareMode key desired now = some (m', outcome)) : m.Discloses m' := by
  unfold Manager.prepareMode at h
  by_cases hrefused : (m.targets.lookup key).isNone = true ∨ m.shuttingDown = true
  · rw [if_pos hrefused] at h
    cases h
    exact .refl _
  simp only [if_neg hrefused, Option.bind_eq_bind, Option.bind_eq_some_iff, Option.pure_def] at h
  obtain ⟨job, -, keepalive, -, arbiter, -, h⟩ := h
  by_cases hqueue : desired = .queue ∧ job.state = .running
  · rw [if_pos hqueue] at h
    cases h
    exact .refl _
  rw [if_neg hqueue] at h
  by_cases hkeep : desired = .keepalive ∧ keepalive.state ≠ .stopped
  · rw [if_pos hkeep] at h
    cases h
    exact .refl _
  simp only [if_neg hkeep, Option.bind_eq_some_iff] at h
  obtain ⟨m₂, hstopKeepalive, m₁, hstopQueue, busy, -, m₃, hbroadcast, h⟩ := h
  cases h
  have hadhoc : Stops now m (if arbiter.owner = .adhoc then m.stopAdhocLocked key else m) := by
    split_ifs
    · exact .adhoc key .refl
    · exact .refl
  have hstops := (hadhoc.keepalive_of_ite hstopKeepalive).queue_of_ite hstopQueue
  by_cases hany : arbiter.owner = .adhoc ∨
      (desired = .queue ∧ (keepalive.state ≠ .stopped ∨ 0 < keepalive.workers)) ∨
      (desired = .keepalive ∧ (job.state = .running ∨ 0 < job.workers))
  · rw [if_pos hany] at hbroadcast
    exact .of_broadcast hbroadcast hstops.feed
  · rw [if_neg hany] at hbroadcast
    rw [not_or, not_or] at hany
    rw [if_neg hany.1, if_neg hany.2.1] at hstopKeepalive
    rw [if_neg hany.2.2] at hstopQueue
    cases hstopKeepalive
    cases hstopQueue
    cases hbroadcast
    exact .refl _

omit [Go.NetURL] in
/-- The loop of `stop` that stops nothing changes nothing. -/
theorem foldlM_stopKey_eq {keys : List String} {result result' : StopResult}
    (h : keys.foldlM (stopKey now) (m, result) = some (m', result'))
    (hnone : result'.stopped = []) : m' = m ∧ result.stopped = [] := by
  induction keys generalizing m result with
  | nil =>
    cases h
    exact ⟨rfl, hnone⟩
  | cons key keys ih =>
    rw [List.foldlM_cons, Option.bind_eq_bind, Option.bind_eq_some_iff] at h
    obtain ⟨⟨m₁, result₁⟩, hkey, h⟩ := h
    obtain ⟨rfl, hresult⟩ := ih h
    simp only [stopKey, Option.bind_eq_bind, Option.bind_eq_some_iff, Option.pure_def] at hkey
    obtain ⟨job, -, keepalive, -, m₂, hqueue, m₃, hkeepalive, arbiter, -, hkey⟩ := hkey
    by_cases hany : (job.state = .running ∨ 0 < job.workers) ∨
        (keepalive.state ≠ .stopped ∨ 0 < keepalive.workers) ∨ arbiter.owner = .adhoc
    · rw [if_pos hany] at hkey
      cases hkey
      simp at hresult
    · rw [if_neg hany] at hkey
      obtain ⟨hnoQueue, hrest⟩ := not_or.mp hany
      obtain ⟨hnoKeepalive, hnoAdhoc⟩ := not_or.mp hrest
      rw [if_neg hnoQueue] at hqueue
      rw [if_neg hnoKeepalive] at hkeepalive
      cases hqueue
      cases hkeepalive
      rw [if_neg hnoAdhoc] at hkey
      cases hkey
      exact ⟨rfl, hresult⟩

/-- `stop` broadcasts if it stops anything. -/
theorem Discloses.stop {names : List String} {result : StopResult}
    (h : m.stop names now = some (m', result)) : m.Discloses m' := by
  simp only [Manager.stop, Option.bind_eq_bind, Option.bind_eq_some_iff, Option.pure_def] at h
  obtain ⟨⟨m₁, result₁⟩, hloop, m₂, hbroadcast, h⟩ := h
  cases h
  split_ifs at hbroadcast with hstopped
  · exact .of_broadcast hbroadcast (stops_of_foldlM .refl hloop).feed
  · cases hbroadcast
    rw [(foldlM_stopKey_eq hloop (not_not.mp hstopped)).1]
    exact .refl _

/-- The first section of `UpdateTarget` and of `DeleteTarget`. -/
theorem Discloses.stopTarget {id : Int} {found : Except Error String}
    (h : m.stopTarget id now = some (m', found)) : m.Discloses m' := by
  unfold Manager.stopTarget at h
  cases hkey : m.targetKeyByIDLocked id with
  | none =>
    simp only [hkey] at h
    cases h
    exact .refl _
  | some key =>
    simp only [hkey, Option.bind_eq_bind, Option.bind_eq_some_iff, Option.pure_def] at h
    obtain ⟨busy, -, h⟩ := h
    split_ifs at h
    · simp only [Option.bind_eq_some_iff] at h
      obtain ⟨m₁, hqueue, m₂, hkeepalive, m₃, hbroadcast, h⟩ := h
      cases h
      have hstops : Stops now m (m₂.stopAdhocLocked key) :=
        .adhoc key (.keepalive key (.queue key .refl hqueue) hkeepalive)
      exact .of_broadcast hbroadcast hstops.feed
    · cases h
      exact .refl _

/-- `UpdateSettings`. -/
theorem Discloses.updateSettings {keepaliveMin keepaliveMax : Duration} {maxParallel : Int}
    {successMessage : String} {draw : String → Nat}
    (h : m.updateSettings keepaliveMin keepaliveMax maxParallel successMessage now draw =
      some m') : m.Discloses m' := by
  simp only [Manager.updateSettings, Option.bind_eq_bind, Option.bind_eq_some_iff] at h
  obtain ⟨m₁, hloop, hbroadcast⟩ := h
  have hfeed : m₁.feed = m.feed := by
    split_ifs at hloop
    · have hrescheduled := (reschedules_of_foldlM .refl hloop).feed
      exact hrescheduled
    · cases hloop
      rfl
  refine .of_broadcast hbroadcast ?_
  split_ifs
  · exact hfeed
  · exact hfeed

/-- `CreateTarget`. -/
theorem Discloses.createTarget {target : Option Target} {persist : Persist}
    {result : Except Error Unit} (h : m.createTarget target persist = some (m', result)) :
    m.Discloses m' := by
  unfold Manager.createTarget at h
  cases target with
  | none =>
    cases h
    exact .refl _
  | some target =>
    dsimp only at h
    split_ifs at h
    · cases h
      exact .refl _
    cases hpersist : runPersist target persist with
    | error error =>
      simp only [hpersist] at h
      cases h
      exact .refl _
    | ok saved =>
      simp only [hpersist] at h
      split_ifs at h
      · cases h
        exact .refl _
      · simp only [Option.bind_eq_bind, Option.bind_eq_some_iff, Option.pure_def] at h
        obtain ⟨m₁, hbroadcast, h⟩ := h
        cases h
        exact .of_broadcast hbroadcast rfl

/-- The last section of `UpdateTarget`. -/
theorem Discloses.updateTarget {id : Int} {target : Target} {persist : Persist}
    {result : Except Error Unit} (h : m.updateTarget id target persist = some (m', result)) :
    m.Discloses m' := by
  unfold Manager.updateTarget at h
  cases hkey : m.targetKeyByIDLocked id with
  | none =>
    simp only [hkey] at h
    cases h
    exact .refl _
  | some oldKey =>
    simp only [hkey, Option.bind_eq_bind, Option.bind_eq_some_iff, Option.pure_def] at h
    obtain ⟨busy, -, h⟩ := h
    by_cases hbusy : busy = true
    · rw [if_pos hbusy] at h
      cases h
      exact .refl _
    rw [if_neg hbusy] at h
    by_cases hconflict : m.conflicts (normalizeName target.name) id = true
    · rw [if_pos hconflict] at h
      cases h
      exact .refl _
    rw [if_neg hconflict] at h
    cases hpersist : runPersist target persist with
    | error error =>
      simp only [hpersist] at h
      cases h
      exact .refl _
    | ok saved =>
      simp only [hpersist] at h
      by_cases hagain : m.conflicts (normalizeName saved.name) id = true
      · rw [if_pos hagain] at h
        cases h
        exact .refl _
      simp only [if_neg hagain, Option.bind_eq_some_iff] at h
      obtain ⟨m₁, hrename, m₂, hbroadcast, h⟩ := h
      cases h
      have hfeed : m₁.feed = m.feed := by
        split_ifs at hrename
        · obtain ⟨_, _, _, -, -, -, rfl⟩ := renameTarget_cases hrename
          rfl
        · cases hrename
          rfl
      exact .of_broadcast hbroadcast hfeed

/-- The last section of `DeleteTarget`. -/
theorem Discloses.deleteTarget {id : Int} {persist : Persist} {result : Except Error Unit}
    (h : m.deleteTarget id persist = some (m', result)) : m.Discloses m' := by
  unfold Manager.deleteTarget at h
  cases hkey : m.targetKeyByIDLocked id with
  | none =>
    simp only [hkey] at h
    cases h
    exact .refl _
  | some key =>
    simp only [hkey, Option.bind_eq_bind, Option.bind_eq_some_iff, Option.pure_def] at h
    obtain ⟨busy, -, h⟩ := h
    split_ifs at h
    · cases h
      exact .refl _
    cases persist with
    | failed message =>
      cases h
      exact .refl _
    | absent | saved _ =>
      simp only [Option.bind_eq_some_iff] at h
      obtain ⟨m₁, hbroadcast, h⟩ := h
      cases h
      exact .of_broadcast hbroadcast rfl

end

end Manager

end CodexQueueBot.Jobs
