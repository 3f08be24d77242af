import CodexQueueBot.Jobs.Tables
import CodexQueueBot.Lib.LedgerPreservation

/-!
# The system as a ledger of exclusive runs

The abstract view of the system. A target is a resource with two modes, queue and keepalive; its
jobs are their tracks, its arbiter says who owns it, and a `RunAdhoc` call is a guest. A goroutine
is a worker whose flags are read off its program point: alive until `finishQueueWorker`,
`finishKeepaliveWorker` or `finishAdhocRequest`, active until it has given up its run, and between
acquisition and release of the target, of a slot and of a process. Calls of other operations are
workers that have ended.

The lemmas say how each update of the manager looks in the ledger.
-/

set_option autoImplicit false
set_option relaxedAutoImplicit false

namespace CodexQueueBot.Jobs

open Lib

/-! ### Records -/

/-- A queue job as a track. -/
def Job.track (job : Job) : Track where
  on := job.state = .running
  runID := job.runID
  workers := job.workers
  token := job.cancel

/-- A keepalive job as a track. -/
def KeepaliveJob.track (keepalive : KeepaliveJob) : Track where
  on := keepalive.state ≠ .stopped
  runID := keepalive.runID
  workers := keepalive.workers
  token := keepalive.cancel

/-- The owner of an arbiter with its run. -/
def TargetArbiter.claim (arbiter : TargetArbiter) : Option (Claimant Mode × Nat) :=
  match arbiter.owner with
  | .none => none
  | .queue => some (.mode .queue, arbiter.ownerRunID)
  | .keepalive => some (.mode .keepalive, arbiter.ownerRunID)
  | .adhoc => some (.guest, arbiter.ownerRunID)

/-- The owner that stands for a claimant. -/
def ownerOf : Claimant Mode → RequestOwner
  | .mode .queue => .queue
  | .mode .keepalive => .keepalive
  | .guest => .adhoc

/-- The records of a target as a resource. -/
def cellOf (job : Job) (keepalive : KeepaliveJob) (arbiter : TargetArbiter) : Cell Mode where
  track
    | .queue => job.track
    | .keepalive => keepalive.track
  owner := arbiter.claim

/-- An arbiter has an owner exactly when it has a claim. -/
theorem TargetArbiter.claim_eq_none {arbiter : TargetArbiter} :
    arbiter.claim = none ↔ arbiter.owner = .none := by
  unfold claim
  cases arbiter.owner <;> simp

/-- The claim of a claimant and a run is the ownership of the owner that stands for it. -/
theorem TargetArbiter.claim_eq_some {arbiter : TargetArbiter} {claimant : Claimant Mode}
    {runID : Nat} :
    arbiter.claim = some (claimant, runID) ↔ arbiter.OwnedBy (ownerOf claimant) runID := by
  unfold claim OwnedBy
  rcases claimant with ⟨_ | _⟩ | _ <;> cases arbiter.owner <;> simp [ownerOf]

/-- The current run of a queue job is that of its track. -/
theorem Job.track_current {job : Job} {runID : Nat} :
    job.track.Current runID ↔ job.Current runID := by
  simp only [Track.Current, Job.Current, track, decide_eq_true_eq]
  exact And.comm

/-- The current run of a keepalive job is that of its track. -/
theorem KeepaliveJob.track_current {keepalive : KeepaliveJob} {runID : Nat} :
    keepalive.track.Current runID ↔ keepalive.Current runID := by
  simp only [Track.Current, KeepaliveJob.Current, track, decide_eq_true_eq]
  exact And.comm

/-- A queue track is busy exactly when the job is running or has workers. -/
theorem Job.track_busy {job : Job} :
    job.track.Busy ↔ job.state = .running ∨ 0 < job.workers := by
  simp [Track.Busy, track]

/-- A keepalive track is busy exactly when the job is not stopped or has workers. -/
theorem KeepaliveJob.track_busy {keepalive : KeepaliveJob} :
    keepalive.track.Busy ↔ keepalive.state ≠ .stopped ∨ 0 < keepalive.workers := by
  simp [Track.Busy, track]

/-- A target that is not busy is idle. -/
theorem idle_of_not_busy {job : Job} {keepalive : KeepaliveJob} {arbiter : TargetArbiter}
    (h : Manager.busyRecords job keepalive arbiter = false) :
    (cellOf job keepalive arbiter).Idle := by
  obtain ⟨hstate, hworkers, hstopped, hkeepalive, howner⟩ := Manager.busyRecords_eq_false.mp h
  refine ⟨?_, TargetArbiter.claim_eq_none.mpr howner⟩
  rintro (_ | _)
  · show ¬ job.track.Busy
    simp [Job.track_busy, hstate, hworkers]
  · show ¬ keepalive.track.Busy
    simp [KeepaliveJob.track_busy, hstopped, hkeepalive]

/-! ### Goroutines -/

/-- A queue worker as a worker of the ledger. -/
def QueueWorker.view (w : QueueWorker) : Worker String Mode where
  key := w.key
  claimant := .mode .queue
  runID := w.runID
  token := w.context
  live := match w.pc with
    | .workerDone | .exited => false
    | _ => true
  active := match w.pc with
    | .notifySuccess _ _ _ | .releaseSlot | .releaseTarget | .finishWorker | .workerDone
    | .exited => false
    | _ => true
  holds := match w.pc with
    | .acquire | .awaitSlot _ | .beginAttempt | .running _ _ | .finishProcess _ _ _
    | .markSuccess _ _ | .checkContext _ | .markFailure _ | .releaseSlot | .releaseTarget
    | .markCancelled true => true
    | _ => false
  slot := match w.pc with
    | .beginAttempt | .running _ _ | .finishProcess _ _ _ | .releaseSlot => true
    | _ => false
  process := match w.pc with
    | .running _ _ | .finishProcess _ _ _ => true
    | _ => false

/-- A keepalive worker as a worker of the ledger. -/
def KeepaliveWorker.view (w : KeepaliveWorker) : Worker String Mode where
  key := w.key
  claimant := .mode .keepalive
  runID := w.runID
  token := w.context
  live := match w.pc with
    | .workerDone | .exited => false
    | _ => true
  active := match w.pc with
    | .finishWorker | .workerDone | .exited => false
    | _ => true
  holds := match w.pc with
    | .running _ _ | .finishProcess _ | .checkContext _ | .finishRequest _
    | .markCancelled true => true
    | _ => false
  slot := match w.pc with
    | .confirmRequest | .releaseSlot _ | .running _ _ | .finishProcess _ => true
    | _ => false
  process := match w.pc with
    | .running _ _ | .finishProcess _ => true
    | _ => false

/-- An accepted `RunAdhoc` call as a guest of the ledger. -/
def AdhocCall.view (call : AdhocCall) : Worker String Mode where
  key := call.key
  claimant := .guest
  runID := call.runID
  token := call.context
  live := match call.pc with
    | .workerDone _ | .returned _ => false
    | _ => true
  active := false
  holds := match call.pc with
    | .workerDone _ | .returned _ => false
    | _ => true
  slot := match call.pc with
    | .checkContext | .confirm | .running => true
    | .finishRequest slotAcquired _ _ => slotAcquired
    | _ => false
  process := match call.pc with
    | .running => true
    | .finishRequest _ processStarted _ => processStarted
    | _ => false

/-- A worker that has ended, for the calls of other operations. -/
def bystander : Worker String Mode where
  key := ""
  claimant := .guest
  runID := 0
  token := 0
  live := false
  active := false
  holds := false
  slot := false
  process := false

/-- A goroutine as a worker of the ledger. -/
def Proc.view : Proc → Worker String Mode
  | .queue worker => worker.view
  | .keepalive worker => worker.view
  | .adhoc call => call.view
  | .start _ | .edit _ | .wait _ => bystander

/-- A bystander has ended. -/
theorem bystander_gone : bystander.Gone :=
  ⟨rfl, rfl, rfl, rfl, rfl⟩

/-! ### Managers -/

namespace Manager

/-- The records of a key as a resource, if all of them are there. -/
def cell (m : Manager) (key : String) : Option (Cell Mode) := do
  let job ← m.jobs.lookup key
  let keepalive ← m.keepalives.lookup key
  let arbiter ← m.arbiters.lookup key
  return cellOf job keepalive arbiter

/-- A manager and workers as a ledger. -/
def ledger (m : Manager) (workers : List (Worker String Mode)) : Ledger String Mode where
  cells := m.cell
  workers := workers
  slots := m.slotsInUse
  processes := m.currentProcesses
  guests := m.nextAdhocRunID
  cancelled := { context | m.contextDone context = true }

variable {m m' : Manager} {key : String} {cell : Cell Mode} {runID : Nat} {now : Time}
  {workers : List (Worker String Mode)}

/-- A resource comes from the records of its key. -/
theorem cell_eq_some :
    m.cell key = some cell ↔ ∃ job keepalive arbiter, m.jobs.lookup key = some job ∧
      m.keepalives.lookup key = some keepalive ∧ m.arbiters.lookup key = some arbiter ∧
      cell = cellOf job keepalive arbiter := by
  simp only [Manager.cell, Option.bind_eq_bind, Option.bind_eq_some_iff, Option.pure_def,
    Option.some.injEq]
  constructor
  · rintro ⟨job, hjob, keepalive, hkeepalive, arbiter, harbiter, rfl⟩
    exact ⟨job, keepalive, arbiter, hjob, hkeepalive, harbiter, rfl⟩
  · rintro ⟨job, keepalive, arbiter, hjob, hkeepalive, harbiter, rfl⟩
    exact ⟨job, hjob, keepalive, hkeepalive, arbiter, harbiter, rfl⟩

/-- Records make a resource. -/
theorem cell_of {job : Job} {keepalive : KeepaliveJob} {arbiter : TargetArbiter}
    (hjob : m.jobs.lookup key = some job) (hkeepalive : m.keepalives.lookup key = some keepalive)
    (harbiter : m.arbiters.lookup key = some arbiter) :
    m.cell key = some (cellOf job keepalive arbiter) :=
  cell_eq_some.mpr ⟨job, keepalive, arbiter, hjob, hkeepalive, harbiter, rfl⟩

/-- The queue track of a resource is that of the job. -/
theorem track_queue_of_cell (hcell : m.cell key = some cell) {job : Job}
    (hjob : m.jobs.lookup key = some job) : cell.track .queue = job.track := by
  obtain ⟨job', _, _, hjob', -, -, rfl⟩ := cell_eq_some.mp hcell
  obtain rfl := Option.some.inj (hjob.symm.trans hjob')
  rfl

/-- The keepalive track of a resource is that of the keepalive job. -/
theorem track_keepalive_of_cell (hcell : m.cell key = some cell) {keepalive : KeepaliveJob}
    (hkeepalive : m.keepalives.lookup key = some keepalive) :
    cell.track .keepalive = keepalive.track := by
  obtain ⟨_, keepalive', _, -, hkeepalive', -, rfl⟩ := cell_eq_some.mp hcell
  obtain rfl := Option.some.inj (hkeepalive.symm.trans hkeepalive')
  rfl

/-- The owner of a resource is that of the arbiter. -/
theorem owner_of_cell (hcell : m.cell key = some cell) {arbiter : TargetArbiter}
    (harbiter : m.arbiters.lookup key = some arbiter) : cell.owner = arbiter.claim := by
  obtain ⟨_, _, arbiter', -, -, harbiter', rfl⟩ := cell_eq_some.mp hcell
  obtain rfl := Option.some.inj (harbiter.symm.trans harbiter')
  rfl

/-- In shaped tables the records of a job make a resource. -/
theorem Tabled.cell_of_job (h : m.Tabled) {job : Job} (hjob : m.jobs.lookup key = some job) :
    ∃ cell, m.cell key = some cell := by
  have hkey := (h.jobs key).mp (Table.mem_of_lookup hjob)
  obtain ⟨keepalive, hkeepalive⟩ := Table.exists_lookup_of_mem ((h.keepalives key).mpr hkey)
  obtain ⟨arbiter, harbiter⟩ := Table.exists_lookup_of_mem ((h.arbiters key).mpr hkey)
  exact ⟨_, cell_of hjob hkeepalive harbiter⟩

/-- In shaped tables the records of a keepalive job make a resource. -/
theorem Tabled.cell_of_keepalive (h : m.Tabled) {keepalive : KeepaliveJob}
    (hkeepalive : m.keepalives.lookup key = some keepalive) : ∃ cell, m.cell key = some cell := by
  have hkey := (h.keepalives key).mp (Table.mem_of_lookup hkeepalive)
  obtain ⟨job, hjob⟩ := Table.exists_lookup_of_mem ((h.jobs key).mpr hkey)
  exact h.cell_of_job hjob

/-- In shaped tables the records of an arbiter make a resource. -/
theorem Tabled.cell_of_arbiter (h : m.Tabled) {arbiter : TargetArbiter}
    (harbiter : m.arbiters.lookup key = some arbiter) : ∃ cell, m.cell key = some cell := by
  have hkey := (h.arbiters key).mp (Table.mem_of_lookup harbiter)
  obtain ⟨job, hjob⟩ := Table.exists_lookup_of_mem ((h.jobs key).mpr hkey)
  exact h.cell_of_job hjob

/-- In shaped tables a key without target has no resource. -/
theorem Tabled.cell_eq_none (h : m.Tabled) (hkey : key ∉ m.targets) : m.cell key = none := by
  have hjob : m.jobs.lookup key = none :=
    Table.lookup_eq_none_of_notMem (mt (h.jobs key).mp hkey)
  simp [Manager.cell, hjob]

/-! ### Updates in the ledger -/

/-- A broadcast does not show in the ledger. -/
theorem Shown.ledger (h : m.Shown m') : m'.ledger workers = m.ledger workers := by
  obtain ⟨_, _, rfl⟩ := h
  rfl

/-- Writing a job sets the queue track. -/
theorem ledger_setJob (hcell : m.cell key = some cell) (job : Job) :
    (m.setJob key job).ledger workers =
      (m.ledger workers).setCell key (some (cell.setTrack .queue job.track)) := by
  refine Ledger.ext (funext fun other ↦ ?_) rfl rfl rfl rfl rfl
  obtain ⟨_, keepalive, arbiter, -, hkeepalive, harbiter, rfl⟩ := cell_eq_some.mp hcell
  show (m.setJob key job).cell other = Function.update m.cell key _ other
  rw [Function.update_apply]
  split_ifs with hkey
  · subst hkey
    refine (cell_of (m := m.setJob other job) (AList.lookup_insert m.jobs) hkeepalive
      harbiter).trans ?_
    congr 1
    refine Cell.ext (funext fun mode ↦ ?_) rfl
    cases mode <;> rfl
  · simp [Manager.cell, setJob, AList.lookup_insert_ne hkey]

/-- Writing a keepalive job sets the keepalive track. -/
theorem ledger_setKeepalive (hcell : m.cell key = some cell) (keepalive : KeepaliveJob) :
    (m.setKeepalive key keepalive).ledger workers =
      (m.ledger workers).setCell key (some (cell.setTrack .keepalive keepalive.track)) := by
  refine Ledger.ext (funext fun other ↦ ?_) rfl rfl rfl rfl rfl
  obtain ⟨job, _, arbiter, hjob, -, harbiter, rfl⟩ := cell_eq_some.mp hcell
  show (m.setKeepalive key keepalive).cell other = Function.update m.cell key _ other
  rw [Function.update_apply]
  split_ifs with hkey
  · subst hkey
    refine (cell_of (m := m.setKeepalive other keepalive) hjob
      (AList.lookup_insert m.keepalives) harbiter).trans ?_
    congr 1
    refine Cell.ext (funext fun mode ↦ ?_) rfl
    cases mode <;> rfl
  · simp [Manager.cell, setKeepalive, AList.lookup_insert_ne hkey]

/-- Writing an arbiter sets the owner. -/
theorem ledger_setArbiter (hcell : m.cell key = some cell) (arbiter : TargetArbiter) :
    (m.setArbiter key arbiter).ledger workers =
      (m.ledger workers).setCell key (some { cell with owner := arbiter.claim }) := by
  refine Ledger.ext (funext fun other ↦ ?_) rfl rfl rfl rfl rfl
  obtain ⟨job, keepalive, _, hjob, hkeepalive, -, rfl⟩ := cell_eq_some.mp hcell
  show (m.setArbiter key arbiter).cell other = Function.update m.cell key _ other
  rw [Function.update_apply]
  split_ifs with hkey
  · subst hkey
    exact cell_of hjob hkeepalive (AList.lookup_insert m.arbiters)
  · simp [Manager.cell, setArbiter, AList.lookup_insert_ne hkey]

/-- The resource of a key whose arbiter is written. -/
theorem cell_setArbiter (hcell : m.cell key = some cell) (arbiter : TargetArbiter) :
    (m.setArbiter key arbiter).cell key = some { cell with owner := arbiter.claim } := by
  obtain ⟨job, keepalive, _, hjob, hkeepalive, -, rfl⟩ := cell_eq_some.mp hcell
  exact cell_of hjob hkeepalive (AList.lookup_insert m.arbiters)

/-- A resource that is written as it was. -/
theorem setCell_self (hcell : m.cell key = some cell) :
    (m.ledger workers).setCell key (some cell) = m.ledger workers := by
  refine Ledger.ext ?_ rfl rfl rfl rfl rfl
  show Function.update m.cell key (some cell) = m.cell
  rw [← hcell, Function.update_eq_self]

/-- A job written with the same track does not show. -/
theorem ledger_setJob_self (hcell : m.cell key = some cell) {job new : Job}
    (hjob : m.jobs.lookup key = some job) (htrack : new.track = job.track) :
    (m.setJob key new).ledger workers = m.ledger workers := by
  rw [ledger_setJob hcell, htrack, ← track_queue_of_cell hcell hjob, Cell.setTrack,
    Function.update_eq_self, setCell_self hcell]

/-- A keepalive job written with the same track does not show. -/
theorem ledger_setKeepalive_self (hcell : m.cell key = some cell) {keepalive new : KeepaliveJob}
    (hkeepalive : m.keepalives.lookup key = some keepalive)
    (htrack : new.track = keepalive.track) :
    (m.setKeepalive key new).ledger workers = m.ledger workers := by
  rw [ledger_setKeepalive hcell, htrack, ← track_keepalive_of_cell hcell hkeepalive,
    Cell.setTrack, Function.update_eq_self, setCell_self hcell]

/-- The channel of an arbiter does not show. -/
theorem ledger_resignalled (arbiter : TargetArbiter) :
    (m.resignalled key arbiter).ledger workers = (m.setArbiter key arbiter).ledger workers := by
  refine Ledger.ext (funext fun other ↦ ?_) rfl rfl rfl rfl rfl
  show (m.resignalled key arbiter).cell other = (m.setArbiter key arbiter).cell other
  simp only [Manager.cell, resignalled, setArbiter, Table.lookup_insert_apply]
  split_ifs
  · rfl
  · rfl

/-- A new channel for an arbiter does not show. -/
theorem ledger_resignalled_self {arbiter : TargetArbiter}
    (harbiter : m.arbiters.lookup key = some arbiter) :
    (m.resignalled key arbiter).ledger workers = m.ledger workers := by
  rw [ledger_resignalled]
  refine Ledger.ext (funext fun other ↦ ?_) rfl rfl rfl rfl rfl
  show (m.setArbiter key arbiter).cell other = m.cell other
  simp only [Manager.cell, setArbiter, Table.lookup_insert_apply]
  split_ifs with hkey
  · rw [hkey, harbiter]
  · rfl

/-- A free arbiter has no owner. -/
theorem ledger_freed (hcell : m.cell key = some cell) (arbiter : TargetArbiter) :
    (m.freed key arbiter).ledger workers =
      (m.ledger workers).setCell key (some { cell with owner := none }) := by
  rw [freed, ledger_resignalled, ledger_setArbiter hcell]
  rfl

/-- Cancelled contexts are cancelled tokens. -/
theorem ledger_cancelled (contexts : List Nat) :
    { m with cancelled := contexts ++ m.cancelled }.ledger workers =
      (m.ledger workers).cancel { context | context ∈ contexts } := by
  refine Ledger.ext rfl rfl rfl rfl rfl (Set.ext fun context ↦ ?_)
  simp [Manager.ledger, Ledger.cancel, contextDone]
  tauto

/-- Calling a cancel function cancels its token. -/
theorem ledger_callCancel (cancel : Option Nat) :
    (m.callCancel cancel).ledger workers =
      (m.ledger workers).cancel { context | context ∈ cancel.toList } := by
  cases cancel with
  | none => exact ledger_cancelled []
  | some context => exact ledger_cancelled [context]

end Manager

/-! ### Systems -/

/-- A state of the system as a ledger. -/
def System.ledger (s : System) : Ledger String Mode :=
  s.manager.ledger (s.procs.map Proc.view)

end CodexQueueBot.Jobs
