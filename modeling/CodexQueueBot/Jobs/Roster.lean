import CodexQueueBot.Jobs.Edits
import CodexQueueBot.Jobs.Starts
import Mathlib.Data.List.Induction

/-!
# The subscribers of a job

The map of subscribers lives on the job across its runs. It is cleared when a run ends, in whatever
way, so that a job that is not running has no subscribers (`Tidy`). While a run is on, the map grows
only by the registrations that calls record in the history (`Follows`): the map of a job that is
running is the old map of the same run with the recorded subscribers added, the latest one winning
for each key, or the run is new.
-/

set_option autoImplicit false
set_option relaxedAutoImplicit false

namespace CodexQueueBot.Jobs

open Lib Manager

/-! ### Registrations -/

/-- The subscribers that were registered for a run, in the order of their registration. -/
def registrations (key : String) (runID : Nat) (trace : List Happening) : List Subscriber :=
  trace.filterMap fun
    | .subscribed _ key' runID' subscriber =>
      if key' = key ∧ runID' = runID then some subscriber else none
    | _ => none

/-- A map of subscribers with one more. -/
def enrol (subscribers : Table String Subscriber) (subscriber : Subscriber) :
    Table String Subscriber :=
  subscribers.insert (subscriberKey subscriber) subscriber

/-- The map of registered subscribers, the latest one for each key. -/
def latest (subscribers : List Subscriber) : Table String Subscriber :=
  subscribers.foldl enrol ∅

/-- Registrations in two parts of a history. -/
theorem registrations_append (key : String) (runID : Nat) (first second : List Happening) :
    registrations key runID (first ++ second) =
      registrations key runID first ++ registrations key runID second :=
  List.filterMap_append

/-- Later registrations are added to the earlier ones. -/
theorem latest_append (first second : List Subscriber) :
    latest (first ++ second) = second.foldl enrol (latest first) :=
  List.foldl_append

/-- The latest registration for a key wins. -/
theorem lookup_latest (subscribers : List Subscriber) (key : String) :
    (latest subscribers).lookup key =
      (subscribers.filter fun subscriber ↦ subscriberKey subscriber = key).getLast? := by
  induction subscribers using List.reverseRecOn with
  | nil => rfl
  | append_singleton subscribers subscriber ih =>
    rw [latest_append, List.filter_append, List.getLast?_append]
    show (enrol (latest subscribers) subscriber).lookup key = _
    rw [enrol, Table.lookup_insert_apply, ih]
    by_cases heq : subscriberKey subscriber = key
    · simp [heq]
    · simp [heq, Ne.symm heq]

/-- Something that is recorded is not a registration. -/
def Happening.unrelated : Happening → Bool
  | .subscribed _ _ _ _ => false
  | _ => true

/-- A history without registrations. -/
theorem registrations_eq_nil {key : String} {runID : Nat} {trace : List Happening}
    (h : ∀ happening ∈ trace, happening.unrelated = true) : registrations key runID trace = [] := by
  refine List.filterMap_eq_nil_iff.mpr fun happening hmem ↦ ?_
  have hunrelated := h happening hmem
  cases happening with
  | subscribed => cases hunrelated
  | started | began | succeeded | notified => rfl

/-- The registration of a call is one for the run it names. -/
theorem registrations_subscription {kind : StartKind} {subscriber : Subscriber}
    (hkind : kind = .queue subscriber) (self : Nat) (key : String) (runID : Nat) :
    registrations key runID (kind.subscription self key runID) =
      if subscriber.recipient = "" then [] else [subscriber] := by
  rw [hkind, StartKind.subscription]
  split_ifs
  · rfl
  · simp [registrations]

/-- The registration of a call is not one for another target. -/
theorem registrations_subscription_of_ne {kind : StartKind} {key other : String}
    (hne : other ≠ key) (self runID runID' : Nat) :
    registrations other runID' (kind.subscription self key runID) = [] := by
  unfold StartKind.subscription
  split
  · split_ifs
    · rfl
    · simp [registrations, hne.symm]
  · rfl

/-- A registration enrols a subscriber with a recipient. -/
theorem addSubscriberLocked_subscribers (job : Job) (subscriber : Subscriber) :
    (addSubscriberLocked job subscriber).subscribers =
      (if subscriber.recipient = "" then [] else [subscriber]).foldl enrol job.subscribers := by
  unfold addSubscriberLocked
  split_ifs <;> rfl

/-! ### Jobs that settle -/

/-- A job that shows the same run as before. -/
structure Job.SameRun (job job' : Job) : Prop where
  state : job'.state = job.state
  runID : job'.runID = job.runID
  subscribers : job'.subscribers = job.subscribers

/-- A job that is not running, without subscribers. -/
def Job.Vacated (job : Job) : Prop :=
  job.state ≠ .running ∧ job.subscribers = ∅

/-- What a worker does to its job keeps the run with its subscribers, or ends it without. -/
theorem Job.Moves.settles {runID : Nat} {job job' : Job} (h : job.Moves runID job') :
    job.SameRun job' ∨ job'.Vacated := by
  cases h with
  | attempted | failed | finished => exact Or.inl ⟨rfl, rfl, rfl⟩
  | succeeded | cancelled => exact Or.inr ⟨by simp [Job.succeeded, Job.cancelled], rfl⟩

namespace Manager

/-- A job that is not running has no subscribers. -/
def Tidy (m : Manager) : Prop :=
  ∀ (key : String) (job : Job), m.jobs.lookup key = some job → job.state ≠ .running →
    job.subscribers = ∅

/-- Every job shows the same run as before, or is vacated. -/
def Settles (m m' : Manager) : Prop :=
  ∀ (key : String) (job' : Job), m'.jobs.lookup key = some job' →
    (∃ job, m.jobs.lookup key = some job ∧ job.SameRun job') ∨ job'.Vacated

variable {m m₁ m' : Manager} {key : String} {now : Time}

/-- Jobs that are left alone. -/
theorem Settles.of_jobs (h : m'.jobs = m.jobs) : m.Settles m' := by
  intro key job hjob
  rw [h] at hjob
  exact Or.inl ⟨job, hjob, rfl, rfl, rfl⟩

/-- One job is written. -/
theorem Settles.insert {job new : Job} (hjob : m.jobs.lookup key = some job)
    (hnew : job.SameRun new ∨ new.Vacated) (h : m'.jobs = m.jobs.insert key new) :
    m.Settles m' := by
  intro other job' hjob'
  rw [h, Table.lookup_insert_apply] at hjob'
  split_ifs at hjob' with hother
  · cases hjob'
    subst hother
    exact hnew.imp_left fun hsame ↦ ⟨job, hjob, hsame⟩
  · exact Or.inl ⟨job', hjob', rfl, rfl, rfl⟩

/-- Jobs that settle twice. -/
theorem Settles.trans (hfirst : m.Settles m₁) (hsecond : m₁.Settles m') : m.Settles m' := by
  intro key job' hjob'
  rcases hsecond key job' hjob' with ⟨job₁, hjob₁, hsame⟩ | hvacated
  · rcases hfirst key job₁ hjob₁ with ⟨job, hjob, hbefore⟩ | ⟨hstate, hsubscribers⟩
    · exact Or.inl ⟨job, hjob, hsame.state.trans hbefore.state, hsame.runID.trans hbefore.runID,
        hsame.subscribers.trans hbefore.subscribers⟩
    · exact Or.inr ⟨hsame.state ▸ hstate, hsame.subscribers.trans hsubscribers⟩
  · exact Or.inr hvacated

/-- Tidy jobs stay tidy when they settle. -/
theorem Settles.tidy (h : m.Settles m') (htidy : m.Tidy) : m'.Tidy := by
  intro key job' hjob' hidle
  rcases h key job' hjob' with ⟨job, hjob, hsame⟩ | hvacated
  · rw [hsame.subscribers]
    exact htidy key job hjob (hsame.state ▸ hidle)
  · exact hvacated.2

/-- A stopped job is vacated. -/
theorem vacated_stopJob {job : Job} (htidy : job.state ≠ .running → job.subscribers = ∅) :
    (stopJob job now).Vacated := by
  unfold stopJob
  split_ifs with hrunning
  · exact ⟨by simp, rfl⟩
  · exact ⟨hrunning, htidy hrunning⟩

/-- Stops leave the jobs settled. -/
theorem Stops.settles (h : Stops now m m') (htidy : m.Tidy) : m.Settles m' := by
  induction h with
  | refl => exact .of_jobs rfl
  | queue key _ hstop ih =>
    refine ih.trans ?_
    rcases stopQueueLocked_cases hstop with ⟨job, arbiter, hjob, -, -, rfl⟩ | ⟨-, rfl⟩
    · refine .insert hjob (Or.inr (vacated_stopJob ?_)) (callCancel_jobs _)
      exact ih.tidy htidy key job hjob
    · exact .of_jobs rfl
  | keepalive key _ hstop ih =>
    refine ih.trans ?_
    rcases stopKeepaliveLocked_cases hstop with ⟨_, _, -, -, -, rfl⟩ | ⟨-, rfl⟩
    · exact .of_jobs (callCancel_jobs _)
    · exact .of_jobs rfl
  | @adhoc m₁ key _ ih =>
    refine ih.trans ?_
    rcases stopAdhocLocked_cases m₁ key with ⟨_, -, -, heq⟩ | ⟨-, heq⟩ <;> rw [heq]
    · exact .of_jobs (callCancel_jobs _)
    · exact .of_jobs rfl

/-- An edit leaves the jobs settled. -/
theorem Edited.settles (h : m.Edited m') (htidy : m.Tidy) : m.Settles m' := by
  intro key job hjob
  rcases h.jobs key job hjob with hsame | ⟨hidle, ⟨old, hold⟩ | rfl⟩
  · exact Or.inl ⟨job, hsame, rfl, rfl, rfl⟩
  · exact Or.inr ⟨hidle, htidy old job hold hidle⟩
  · exact Or.inr ⟨hidle, rfl⟩

/-- Rescheduling leaves the jobs alone. -/
theorem Reschedules.jobs {draw : String → Nat} (h : Reschedules now draw m m') :
    m'.jobs = m.jobs := by
  induction h with
  | refl => rfl
  | round key _ hround ih =>
    rcases rescheduleKeepalive_cases hround with ⟨_, _, -, -, rfl⟩ | rfl <;> exact ih

/-- `UpdateSettings` leaves the jobs alone. -/
theorem updateSettings_jobs [Go.NetURL] {keepaliveMin keepaliveMax : Duration} {maxParallel : Int}
    {successMessage : String} {draw : String → Nat}
    (h : m.updateSettings keepaliveMin keepaliveMax maxParallel successMessage now draw =
      some m') : m'.jobs = m.jobs := by
  obtain ⟨m₁, m₂, hloop, hlimit, hshown⟩ := updateSettings_cases h
  have hjobs : m₂.jobs = m.jobs := by
    rcases hlimit with ⟨rfl, -⟩ | ⟨-, rfl⟩ <;> exact hloop.jobs
  exact hshown.jobs.trans hjobs

/-- The first section of `RunAdhoc` leaves the jobs alone. -/
theorem reserveAdhoc_jobs [Go.NetURL] {id : Int} {reserved : Except Error Reservation}
    (h : m.reserveAdhoc id = some (m', reserved)) : m'.jobs = m.jobs := by
  rcases reserveAdhoc_cases h with ⟨rfl, -⟩ | ⟨key, arbiter, -, -, -, -, -, -, hshown⟩
  · rfl
  · exact hshown.jobs

/-- A job that is running is in the same run as before, with the recorded subscribers added, or in a
new run. -/
def Follows (m m' : Manager) (happenings : List Happening) : Prop :=
  ∀ (key : String) (job' : Job), m'.jobs.lookup key = some job' → job'.state = .running →
    ∃ job, m.jobs.lookup key = some job ∧ ((job.state = .running ∧ job'.runID = job.runID ∧
      job'.subscribers = (registrations key job.runID happenings).foldl enrol job.subscribers) ∨
      job'.runID = job.runID + 1)

/-- Jobs that settle follow a history without registrations. -/
theorem Settles.follows (h : m.Settles m') {happenings : List Happening}
    (hunrelated : ∀ happening ∈ happenings, happening.unrelated = true) :
    m.Follows m' happenings := by
  intro key job' hjob' hrunning
  rcases h key job' hjob' with ⟨job, hjob, hsame⟩ | hvacated
  · refine ⟨job, hjob, Or.inl ⟨hsame.state ▸ hrunning, hsame.runID, ?_⟩⟩
    rw [registrations_eq_nil hunrelated]
    exact hsame.subscribers
  · exact absurd hrunning hvacated.1

end Manager

/-! ### Steps -/

section

variable [Go.NetURL] {m : Manager} {next self : Nat} {input : Input} {effect : Effect}

/-- A step of a queue worker leaves the jobs settled and registers nobody. -/
theorem QueueWorker.step_settles {w : QueueWorker} (h : w.step m self input = some effect) :
    m.Settles effect.manager ∧ ∀ happening ∈ effect.happenings, happening.unrelated = true := by
  refine ⟨?_, ?_⟩
  · rcases (QueueWorker.step_jobs h).2 with heq | ⟨job, job', -, hjob, hmoves, heq⟩
    · exact .of_jobs heq
    · exact .insert hjob hmoves.settles heq
  · obtain ⟨pc, -, hrecords⟩ := QueueWorker.step_records h
    generalize effect.happenings = happenings at hrecords
    cases hrecords <;> simp [Happening.unrelated]

/-- A step of a keepalive worker leaves the jobs settled and registers nobody. -/
theorem KeepaliveWorker.step_settles {w : KeepaliveWorker}
    (h : w.step m self input = some effect) :
    m.Settles effect.manager ∧ ∀ happening ∈ effect.happenings, happening.unrelated = true := by
  refine ⟨.of_jobs (KeepaliveWorker.step_jobs h).1, ?_⟩
  rcases KeepaliveWorker.step_records h with heq | ⟨heq, -⟩ <;>
    simp [heq, Happening.unrelated]

/-- A step of a `RunAdhoc` call leaves the jobs settled and registers nobody. -/
theorem AdhocCall.step_settles {call : AdhocCall} (h : call.step m self input = some effect) :
    m.Settles effect.manager ∧ ∀ happening ∈ effect.happenings, happening.unrelated = true := by
  refine ⟨.of_jobs ?_, ?_⟩
  · unfold AdhocCall.step at h
    cases hpc : call.pc <;>
      simp only [hpc, Option.bind_eq_bind, Option.bind_eq_some_iff, Prod.exists] at h
    case acquire =>
      rcases hacquire : m.acquire with ⟨m₁, outcome⟩
      simp only [hacquire] at h
      rcases acquire_cases hacquire with ⟨-, rfl, rfl⟩ | ⟨-, rfl, rfl⟩ <;> cases h <;> rfl
    case confirm =>
      obtain ⟨m₁, confirmed, hsection, h⟩ := h
      have hmanager : effect.manager = m₁ := by split_ifs at h <;> cases h <;> rfl
      rw [hmanager]
      rcases confirmAdhoc_cases hsection with ⟨-, _, -, -, hshown⟩ | ⟨-, rfl, -⟩
      · exact hshown.jobs
      · rfl
    case finishRequest =>
      obtain ⟨m₁, hsection, h⟩ := h
      cases h
      have hgive : ∀ (m : Manager) (slotAcquired processStarted : Bool),
          ((m.giveBackProcess processStarted).giveBackSlot slotAcquired).jobs = m.jobs := by
        intro m slotAcquired processStarted
        unfold giveBackSlot giveBackProcess
        split_ifs <;> rfl
      rcases finishAdhocRequest_cases hsection with ⟨arbiter, -, -, hshown⟩ | ⟨-, hshown⟩ <;>
        exact hshown.jobs.trans (hgive _ _ _)
    case awaitSlot =>
      obtain ⟨_, -, h⟩ := h
      cases h
      rfl
    case checkContext | running | workerDone =>
      cases h
      rfl
    case returned => cases h
  · rcases AdhocCall.step_records h with heq | heq <;> simp [heq, Happening.unrelated]

/-- A step of a start call follows what it records, and keeps the jobs tidy. -/
theorem StartCall.step_follows {call : StartCall} (htidy : m.Tidy)
    (h : call.step m next self input = some effect) :
    m.Follows effect.manager effect.happenings ∧ effect.manager.Tidy := by
  have hsettled : ∀ {m' : Manager}, m.Settles m' → m.Follows m' [] ∧ m'.Tidy :=
    fun hsettles ↦ ⟨hsettles.follows fun _ hmem ↦ (by cases hmem), hsettles.tidy htidy⟩
  have hacts := StartCall.step_acts h
  cases hacts with
  | passes hstops hshown pc => exact hsettled ((hstops.settles htidy).trans (.of_jobs hshown.jobs))
  | refuses => exact hsettled (.of_jobs rfl)
  | @joins subscriber key rest name job hkind _ hjob hrunning =>
    obtain ⟨hstate, hrun⟩ : (addSubscriberLocked job subscriber).state = .running ∧
        (addSubscriberLocked job subscriber).runID = job.runID := by
      rw [addSubscriberLocked_eq]
      exact ⟨hrunning, rfl⟩
    refine ⟨?_, ?_⟩
    · intro other job' hjob' hrunning'
      rw [show (m.setJob key (addSubscriberLocked job subscriber)).jobs =
        m.jobs.insert key (addSubscriberLocked job subscriber) from rfl,
        Table.lookup_insert_apply] at hjob'
      split_ifs at hjob' with hother
      · cases hjob'
        subst hother
        refine ⟨job, hjob, Or.inl ⟨hrunning, hrun, ?_⟩⟩
        rw [registrations_subscription hkind, addSubscriberLocked_subscribers]
      · refine ⟨job', hjob', Or.inl ⟨hrunning', rfl, ?_⟩⟩
        rw [registrations_subscription_of_ne hother]
        rfl
    · intro other job' hjob' hidle
      rw [show (m.setJob key (addSubscriberLocked job subscriber)).jobs =
        m.jobs.insert key (addSubscriberLocked job subscriber) from rfl,
        Table.lookup_insert_apply] at hjob'
      split_ifs at hjob' with hother
      · cases hjob'
        exact absurd hstate hidle
      · exact htidy other job' hjob' hidle
  | @startsQueue subscriber key rest name job arbiter now m' hkind _ _ hjob _ hshown =>
    have hjobs : m'.jobs = m.jobs.insert key (startedJob job subscriber m.nextContext now) :=
      hshown.jobs
    refine ⟨?_, ?_⟩
    · intro other job' hjob' hrunning'
      replace hjob' : m'.jobs.lookup other = some job' := hjob'
      rw [hjobs, Table.lookup_insert_apply] at hjob'
      split_ifs at hjob' with hother
      · cases hjob'
        subst hother
        exact ⟨job, hjob, Or.inr rfl⟩
      · refine ⟨job', hjob', Or.inl ⟨hrunning', rfl, ?_⟩⟩
        have hnone : registrations other job'.runID (.started next .queue key (job.runID + 1) ::
            call.kind.subscription self key (job.runID + 1)) = [] :=
          registrations_subscription_of_ne hother self (job.runID + 1) job'.runID
        rw [hnone]
        rfl
    · intro other job' hjob' hidle
      replace hjob' : m'.jobs.lookup other = some job' := hjob'
      rw [hjobs, Table.lookup_insert_apply] at hjob'
      split_ifs at hjob' with hother
      · cases hjob'
        exact absurd rfl hidle
      · exact htidy other job' hjob' hidle
  | startsKeepalive _ _ _ _ hshown =>
    have hsettles := Settles.of_jobs (m := m) hshown.jobs
    refine ⟨hsettles.follows ?_, hsettles.tidy htidy⟩
    intro happening hmem
    rw [List.mem_singleton.mp hmem]
    rfl

end

namespace System

variable [Go.NetURL] {s s' : System} {label : Label}

/-- Every step of the system follows what it records, and keeps the jobs tidy. -/
theorem step_follows (htabled : s.manager.Tabled) (htidy : s.manager.Tidy)
    (hlawful : s.Lawful label) (hstep : s.step label = some s') :
    ∃ happenings, s'.trace = s.trace ++ happenings ∧
      s.manager.Follows s'.manager happenings ∧ s'.manager.Tidy := by
  have hsettled : s'.trace = s.trace → s.manager.Settles s'.manager →
      ∃ happenings, s'.trace = s.trace ++ happenings ∧
        s.manager.Follows s'.manager happenings ∧ s'.manager.Tidy := by
    intro htrace hsettles
    exact ⟨[], by rw [htrace, List.append_nil], hsettles.follows fun _ hmem ↦ (by cases hmem),
      hsettles.tidy htidy⟩
  cases label
  case stop names now =>
    simp only [step, Option.map_eq_some_iff] at hstep
    obtain ⟨⟨m₁, result⟩, hsection, rfl⟩ := hstep
    obtain ⟨m₂, hstops, hshown, -⟩ := stop_cases hsection
    exact hsettled rfl ((hstops.settles htidy).trans (.of_jobs hshown.jobs))
  case runAdhoc id now =>
    simp only [step, Option.bind_eq_bind, Option.bind_eq_some_iff, Option.pure_def,
      Prod.exists] at hstep
    obtain ⟨m₁, reserved, hsection, hstep⟩ := hstep
    have hjobs := reserveAdhoc_jobs hsection
    cases reserved <;> cases hstep <;> exact hsettled rfl (.of_jobs hjobs)
  case createTarget target persist =>
    simp only [step, Option.map_eq_some_iff] at hstep
    obtain ⟨⟨m₁, result⟩, hsection, rfl⟩ := hstep
    exact hsettled rfl ((Edited.createTarget htabled hsection).settles htidy)
  case updateTarget id target now =>
    cases target with
    | none =>
      cases hstep
      exact hsettled rfl (.of_jobs rfl)
    | some target =>
      obtain ⟨_, _, hsection, -, htrace, -⟩ := editCall_manager hstep
      obtain ⟨m₂, hstops, hshown⟩ := stopTarget_cases hsection
      exact hsettled htrace ((hstops.settles htidy).trans (.of_jobs hshown.jobs))
  case deleteTarget id now =>
    obtain ⟨_, _, hsection, -, htrace, -⟩ := editCall_manager hstep
    obtain ⟨m₂, hstops, hshown⟩ := stopTarget_cases hsection
    exact hsettled htrace ((hstops.settles htidy).trans (.of_jobs hshown.jobs))
  case updateSettings =>
    simp only [step, Option.map_eq_some_iff] at hstep
    obtain ⟨m₁, hsection, rfl⟩ := hstep
    exact hsettled rfl (.of_jobs (updateSettings_jobs hsection))
  case observe buffer =>
    simp only [step, Option.map_eq_some_iff] at hstep
    obtain ⟨⟨m₁, snapshot, id⟩, hsection, rfl⟩ := hstep
    obtain ⟨_, rfl⟩ := observe_cases hsection
    exact hsettled rfl (.of_jobs rfl)
  case beginShutdown =>
    cases hstep
    refine hsettled rfl (.of_jobs ?_)
    show s.manager.beginShutdown.jobs = s.manager.jobs
    unfold beginShutdown
    split_ifs <;> rfl
  case cancelAdhoc call =>
    simp only [step] at hstep
    split at hstep <;> cases hstep
    exact hsettled rfl (.of_jobs (callCancel_jobs _))
  case advance self input =>
    obtain ⟨proc, effect, hproc, heffect, rfl⟩ := step_advance hstep
    refine ⟨effect.happenings, rfl, ?_⟩
    have hworker : s.manager.Settles effect.manager ∧
        (∀ happening ∈ effect.happenings, happening.unrelated = true) →
        s.manager.Follows effect.manager effect.happenings ∧ effect.manager.Tidy :=
      fun h ↦ ⟨h.1.follows h.2, h.1.tidy htidy⟩
    cases proc with
    | queue w => exact hworker (QueueWorker.step_settles heffect)
    | keepalive w => exact hworker (KeepaliveWorker.step_settles heffect)
    | adhoc call => exact hworker (AdhocCall.step_settles heffect)
    | start call => exact StartCall.step_follows htidy heffect
    | edit call =>
      refine hworker ⟨Edited.settles (.editCall_step htabled ?_ heffect) htidy, ?_⟩
      · rintro id target rfl
        exact hlawful id target hproc
      · rw [(EditCall.step_proc heffect).2.2]
        exact fun _ hmem ↦ by cases hmem
    | wait call =>
      obtain ⟨hmanager, -, -, hhappenings⟩ := WaitCall.step_proc heffect
      refine hworker ⟨.of_jobs (by rw [hmanager]), ?_⟩
      rw [hhappenings]
      exact fun _ hmem ↦ by cases hmem
  case start | startKeepalive | setMessenger | closeSubscription | receive | wait | cancelRoot =>
    cases hstep
    exact hsettled rfl (.of_jobs rfl)

/-- A job that is not running has no subscribers, in every reachable state. -/
theorem Reachable.tidy (h : s.Reachable) : s.manager.Tidy := by
  refine h.induct (P := fun s ↦ s.manager.Tidy) ?_ ?_
  · intro settings targets _
    have hadd : ∀ (targets : List Target) (m : Manager), m.Tidy →
        (targets.foldl addTarget m).Tidy := by
      intro targets
      induction targets with
      | nil => exact fun _ htidy ↦ htidy
      | cons target targets ih =>
        intro m htidy
        refine ih _ ?_
        intro key job hjob hidle
        rw [addTarget, addRecords, Table.lookup_insert_apply] at hjob
        split_ifs at hjob
        · cases hjob
          rfl
        · exact htidy key job hjob hidle
    exact hadd targets _ fun _ _ hlookup ↦ (by cases hlookup)
  · intro s s' label hreach htidy hlawful hstep
    obtain ⟨-, -, -, htidy'⟩ := step_follows hreach.tabled htidy hlawful hstep
    exact htidy'

end System

end CodexQueueBot.Jobs
