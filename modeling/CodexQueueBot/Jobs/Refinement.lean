import CodexQueueBot.Jobs.View

/-!
# The workers act on the ledger

Every step of a worker or of a `RunAdhoc` call is a sequence of acts on the ledger that the system
is viewed as. `stage` is the ledger with one worker singled out; the first part says which act each
update of the manager is when that worker makes it, and the second part composes them along the
program points of `run`, `runKeepalive` and `RunAdhoc`.
-/

set_option autoImplicit false
set_option relaxedAutoImplicit false

namespace CodexQueueBot.Jobs

open Lib Relation

/-! ### Tracks of keepalive jobs -/

/-- A keepalive job that stays on keeps its track when its state changes. -/
theorem KeepaliveJob.track_of_on {keepalive new : KeepaliveJob} (hon : keepalive.state ≠ .stopped)
    (hnew : new.state ≠ .stopped) (hrun : new.runID = keepalive.runID)
    (hworkers : new.workers = keepalive.workers) (hcancel : new.cancel = keepalive.cancel) :
    new.track = keepalive.track := by
  simp [track, hon, hnew, hrun, hworkers, hcancel]

/-- A judged keepalive job keeps its track. -/
theorem KeepaliveJob.track_judged {keepalive : KeepaliveJob} (hon : keepalive.state ≠ .stopped)
    (success : Bool) (error : String) (now nextRequest : Time) :
    (keepalive.judged success error now nextRequest).track = keepalive.track := by
  cases success <;> exact track_of_on hon (by simp [judged]) rfl rfl rfl

namespace Manager

/-! ### Acts of one worker -/

/-- The ledger in which the worker at a position is the given one. -/
def stage (m : Manager) (workers : List (Worker String Mode)) (i : Nat)
    (w : Worker String Mode) : Ledger String Mode :=
  m.ledger (workers.set i w)

section Acts

variable {courteous : Bool} {m m' : Manager} {workers : List (Worker String Mode)} {i : Nat}
  {w : Worker String Mode} {cell : Cell Mode} {now : Time}

/-- The worker of a stage. -/
theorem stage_worker (hi : i < workers.length) :
    (m.stage workers i w).workers[i]? = some w :=
  List.getElem?_set_self hi

/-- Changing the worker of a stage. -/
theorem stage_set (w' : Worker String Mode) :
    m.stage workers i w' = (m.stage workers i w).setWorker i w' := by
  simp [stage, ledger, Ledger.setWorker]

/-- A broadcast does not show in a stage. -/
theorem Shown.stage (h : m.Shown m') : m'.stage workers i w = m.stage workers i w :=
  h.ledger

/-- Writing a job in a stage. -/
theorem stage_setJob {key : String} (hcell : m.cell key = some cell) (job : Job) :
    (m.setJob key job).stage workers i w =
      (m.stage workers i w).setCell key (some (cell.setTrack .queue job.track)) :=
  ledger_setJob hcell job

/-- Writing a keepalive job in a stage. -/
theorem stage_setKeepalive {key : String} (hcell : m.cell key = some cell)
    (keepalive : KeepaliveJob) :
    (m.setKeepalive key keepalive).stage workers i w =
      (m.stage workers i w).setCell key (some (cell.setTrack .keepalive keepalive.track)) :=
  ledger_setKeepalive hcell keepalive

/-- Writing an arbiter in a stage. -/
theorem stage_setArbiter {key : String} (hcell : m.cell key = some cell)
    (arbiter : TargetArbiter) :
    (m.setArbiter key arbiter).stage workers i w =
      (m.stage workers i w).setCell key (some { cell with owner := arbiter.claim }) :=
  ledger_setArbiter hcell arbiter

/-- A job written with the same track does not show in a stage. -/
theorem stage_setJob_self {key : String} (hcell : m.cell key = some cell) {job new : Job}
    (hjob : m.jobs.lookup key = some job) (htrack : new.track = job.track) :
    (m.setJob key new).stage workers i w = m.stage workers i w :=
  ledger_setJob_self hcell hjob htrack

/-- A keepalive job written with the same track does not show in a stage. -/
theorem stage_setKeepalive_self {key : String} (hcell : m.cell key = some cell)
    {keepalive new : KeepaliveJob} (hkeepalive : m.keepalives.lookup key = some keepalive)
    (htrack : new.track = keepalive.track) :
    (m.setKeepalive key new).stage workers i w = m.stage workers i w :=
  ledger_setKeepalive_self hcell hkeepalive htrack

/-- A new state of a keepalive job that stays on does not show in a stage. -/
theorem stage_setKeepalive_state {key : String} (hcell : m.cell key = some cell)
    {keepalive : KeepaliveJob} (hkeepalive : m.keepalives.lookup key = some keepalive)
    (hon : keepalive.state ≠ .stopped) {state : KeepaliveState} (hstate : state ≠ .stopped) :
    (m.setKeepalive key { keepalive with state }).stage workers i w = m.stage workers i w :=
  stage_setKeepalive_self hcell hkeepalive (KeepaliveJob.track_of_on hon hstate rfl rfl rfl)

/-- A new channel for an arbiter does not show in a stage. -/
theorem stage_resignalled_self {key : String} {arbiter : TargetArbiter}
    (harbiter : m.arbiters.lookup key = some arbiter) :
    (m.resignalled key arbiter).stage workers i w = m.stage workers i w :=
  ledger_resignalled_self harbiter

/-- Freeing an arbiter in a stage. -/
theorem stage_freed {key : String} (hcell : m.cell key = some cell) (arbiter : TargetArbiter) :
    (m.freed key arbiter).stage workers i w =
      (m.stage workers i w).setCell key (some { cell with owner := none }) :=
  ledger_freed hcell arbiter

/-- A live worker of a valid stage has its resource. -/
theorem cell_of_stage (hi : i < workers.length) (hvalid : (m.stage workers i w).Valid)
    (hlive : w.live = true) : ∃ cell, m.cell w.key = some cell :=
  hvalid.present i w (stage_worker hi) hlive

/-- Taking the target. -/
theorem act_take (hi : i < workers.length) (hcell : m.cell w.key = some cell)
    (hlive : w.live = true) (hfree : cell.owner = none) {arbiter : TargetArbiter}
    (hclaim : arbiter.claim = some (w.claimant, w.runID)) :
    Act courteous (m.stage workers i w)
      ((m.setArbiter w.key arbiter).stage workers i { w with holds := true }) := by
  rw [stage_set (m := m.setArbiter w.key arbiter) (w := w), stage_setArbiter hcell, hclaim]
  exact Act.take (stage_worker hi) hcell hlive hfree

/-- Releasing the target, whether it is held or not. -/
theorem acts_release (hi : i < workers.length) (hvalid : (m.stage workers i w).Valid)
    (hlive : w.live = true) {mode : Mode} (hmode : w.claimant = .mode mode)
    (hprocess : w.process = false)
    (hrelease : m.releaseTargetLocked w.key (ownerOf w.claimant) w.runID = some m') :
    ReflTransGen (Act courteous) (m.stage workers i w)
      (m'.stage workers i { w with holds := false }) := by
  obtain ⟨cell, hcell⟩ := cell_of_stage hi hvalid hlive
  have hholds := hvalid.owner_iff_holds (stage_worker hi) hlive hcell
  obtain ⟨arbiter, harbiter, ⟨howned, rfl⟩ | ⟨hother, rfl⟩⟩ := releaseTargetLocked_cases hrelease
  · rw [owner_of_cell hcell harbiter, TargetArbiter.claim_eq_some] at hholds
    refine .single ?_
    rw [stage_set (m := m.freed w.key arbiter) (w := w), stage_freed hcell]
    exact Act.drop (stage_worker hi) hcell hmode (hholds.mp howned) hprocess
  · rw [owner_of_cell hcell harbiter, TargetArbiter.claim_eq_some] at hholds
    have hnot : w.holds = false := by simpa using mt hholds.mpr hother
    have heq : { w with holds := false } = w := by rw [← hnot]
    rw [heq]

/-- Taking a slot. -/
theorem act_enter (hi : i < workers.length) (hlive : w.live = true) (hslot : w.slot = false) :
    Act courteous (m.stage workers i w)
      ({ m with slotsInUse := m.slotsInUse + 1 }.stage workers i { w with slot := true }) := by
  rw [stage_set (m := { m with slotsInUse := m.slotsInUse + 1 }) (w := w)]
  exact Act.enter (stage_worker hi) hlive hslot

/-- Giving a slot back. -/
theorem act_yield (hi : i < workers.length) (hslot : w.slot = true)
    (hprocess : w.process = false) :
    Act courteous (m.stage workers i w)
      ({ m with slotsInUse := m.slotsInUse - 1 }.signalParallelLocked.stage workers i
        { w with slot := false }) := by
  rw [stage_set (m := signalParallelLocked _) (w := w)]
  exact Act.yield (stage_worker hi) hslot hprocess

/-- Starting a process. -/
theorem act_launch (hi : i < workers.length) (hholds : w.holds = true) (hslot : w.slot = true)
    (hprocess : w.process = false) :
    Act courteous (m.stage workers i w)
      ({ m with currentProcesses := m.currentProcesses + 1 }.stage workers i
        { w with process := true }) := by
  rw [stage_set (m := { m with currentProcesses := m.currentProcesses + 1 }) (w := w)]
  exact Act.launch (stage_worker hi) hholds hslot hprocess

/-- Starting a process together with a write to the job that keeps its track. -/
theorem act_launch_setJob (hi : i < workers.length) (hholds : w.holds = true)
    (hslot : w.slot = true) (hprocess : w.process = false) {key : String}
    (hcell : m.cell key = some cell) {job new : Job} (hjob : m.jobs.lookup key = some job)
    (htrack : new.track = job.track) :
    Act courteous (m.stage workers i w)
      ({ m.setJob key new with currentProcesses := m.currentProcesses + 1 }.stage workers i
        { w with process := true }) := by
  have hsame := @stage_setJob_self { m with currentProcesses := m.currentProcesses + 1 } workers i
    { w with process := true } _ key hcell _ new hjob htrack
  exact hsame ▸ act_launch hi hholds hslot hprocess

/-- Starting a process together with a write to the keepalive job that keeps its track. -/
theorem act_launch_setKeepalive (hi : i < workers.length) (hholds : w.holds = true)
    (hslot : w.slot = true) (hprocess : w.process = false) {key : String}
    (hcell : m.cell key = some cell) {keepalive new : KeepaliveJob}
    (hkeepalive : m.keepalives.lookup key = some keepalive)
    (htrack : new.track = keepalive.track) :
    Act courteous (m.stage workers i w)
      ({ m.setKeepalive key new with currentProcesses := m.currentProcesses + 1 }.stage workers i
        { w with process := true }) := by
  have hsame := @stage_setKeepalive_self { m with currentProcesses := m.currentProcesses + 1 }
    workers i { w with process := true } _ key hcell _ new hkeepalive htrack
  exact hsame ▸ act_launch hi hholds hslot hprocess

/-- Ending a process. -/
theorem act_finish (hi : i < workers.length) (hprocess : w.process = true) :
    Act courteous (m.stage workers i w)
      ({ m with
        currentProcesses := m.currentProcesses - 1
        slotsInUse := m.slotsInUse - 1 }.signalParallelLocked.stage workers i
        { w with slot := false, process := false }) := by
  rw [stage_set (m := signalParallelLocked _) (w := w)]
  exact Act.finish (stage_worker hi) hprocess

/-- Giving up a run that is not on any more. -/
theorem act_leaveStale (hi : i < workers.length) (hcell : m.cell w.key = some cell)
    (hlive : w.live = true) {mode : Mode} (hmode : w.claimant = .mode mode)
    (hstale : ¬ (cell.track mode).Current w.runID) :
    Act courteous (m.stage workers i w) (m.stage workers i { w with active := false }) := by
  rw [stage_set (w := w) { w with active := false }]
  exact Act.leaveStale (stage_worker hi) hcell hmode hlive hstale

/-- Ending the queue run that is on. -/
theorem act_leaveQueue (hi : i < workers.length) (hcell : m.cell w.key = some cell)
    (hlive : w.live = true) (hmode : w.claimant = .mode .queue) {job new : Job}
    (hjob : m.jobs.lookup w.key = some job) (hcurrent : job.Current w.runID)
    (htrack : new.track = ⟨false, job.runID, job.workers, none⟩) :
    Act courteous (m.stage workers i w)
      ((m.setJob w.key new).stage workers i { w with active := false }) := by
  have hqueue := track_queue_of_cell hcell hjob
  rw [stage_set (m := m.setJob w.key new) (w := w), stage_setJob hcell, htrack]
  have hact := @Act.leaveCurrent _ _ _ _ courteous _ _ _ _ _ (stage_worker hi) hcell hmode hlive
    (by rw [hqueue]; exact Job.track_current.mpr hcurrent)
  rw [hqueue] at hact
  exact hact

/-- Ending the keepalive run that is on. -/
theorem act_leaveKeepalive (hi : i < workers.length) (hcell : m.cell w.key = some cell)
    (hlive : w.live = true) (hmode : w.claimant = .mode .keepalive)
    {keepalive new : KeepaliveJob} (hkeepalive : m.keepalives.lookup w.key = some keepalive)
    (hcurrent : keepalive.Current w.runID)
    (htrack : new.track = ⟨false, keepalive.runID, keepalive.workers, none⟩) :
    Act courteous (m.stage workers i w)
      ((m.setKeepalive w.key new).stage workers i { w with active := false }) := by
  have hkeep := track_keepalive_of_cell hcell hkeepalive
  rw [stage_set (m := m.setKeepalive w.key new) (w := w), stage_setKeepalive hcell, htrack]
  have hact := @Act.leaveCurrent _ _ _ _ courteous _ _ _ _ _ (stage_worker hi) hcell hmode hlive
    (by rw [hkeep]; exact KeepaliveJob.track_current.mpr hcurrent)
  rw [hkeep] at hact
  exact hact

/-- Calling a cancel function. -/
theorem act_callCancel (cancel : Option Nat) :
    Act courteous (m.stage workers i w) ((m.callCancel cancel).stage workers i w) := by
  have hledger : (m.callCancel cancel).stage workers i w =
      (m.stage workers i w).cancel { context | context ∈ cancel.toList } :=
    ledger_callCancel cancel
  rw [hledger]
  exact Act.cancel _

/-- Giving up a run that is not on any more, and the target. -/
theorem acts_leaveStale_release (hi : i < workers.length) (hvalid : (m.stage workers i w).Valid)
    (hlive : w.live = true) {mode : Mode} (hmode : w.claimant = .mode mode)
    (hprocess : w.process = false) (hcell : m.cell w.key = some cell)
    (hstale : ¬ (cell.track mode).Current w.runID)
    (hrelease : m.releaseTargetLocked w.key (ownerOf w.claimant) w.runID = some m') :
    ReflTransGen (Act courteous) (m.stage workers i w)
      (m'.stage workers i { w with active := false, holds := false }) := by
  have hleave : Act courteous (m.stage workers i w)
      (m.stage workers i { w with active := false }) :=
    act_leaveStale hi hcell hlive hmode hstale
  exact (ReflTransGen.single hleave).trans
    (acts_release (w := { w with active := false }) hi (hleave.valid hvalid) hlive hmode hprocess
      hrelease)

/-- Ending the queue run that is on, cancelling its context, and releasing the target. -/
theorem acts_leaveQueue_release (hi : i < workers.length) (hvalid : (m.stage workers i w).Valid)
    (hlive : w.live = true) (hmode : w.claimant = .mode .queue) (hprocess : w.process = false)
    (hcell : m.cell w.key = some cell) {job new : Job} (hjob : m.jobs.lookup w.key = some job)
    (hcurrent : job.Current w.runID) (htrack : new.track = ⟨false, job.runID, job.workers, none⟩)
    {cancel : Option Nat}
    (hrelease : ((m.setJob w.key new).callCancel cancel).releaseTargetLocked w.key
      (ownerOf w.claimant) w.runID = some m') :
    ReflTransGen (Act courteous) (m.stage workers i w)
      (m'.stage workers i { w with active := false, holds := false }) := by
  have hleave : ReflTransGen (Act courteous) (m.stage workers i w)
      (((m.setJob w.key new).callCancel cancel).stage workers i { w with active := false }) :=
    .tail (.single (act_leaveQueue hi hcell hlive hmode hjob hcurrent htrack))
      (act_callCancel cancel)
  exact hleave.trans
    (acts_release (w := { w with active := false }) hi (Act.valid_of_reflTransGen hleave hvalid)
      hlive hmode hprocess hrelease)

/-- The track of a live worker counts it. -/
theorem workers_pos (hi : i < workers.length) (hvalid : (m.stage workers i w).Valid)
    (hlive : w.live = true) {mode : Mode} (hmode : w.claimant = .mode mode)
    (hcell : m.cell w.key = some cell) : 0 < (cell.track mode).workers := by
  rw [hvalid.counted _ _ mode hcell]
  exact Pool.countP_pos_of_getElem? (stage_worker hi) (by simp [Worker.serves, hlive, hmode])

section

variable [Go.NetURL]

/-- The end of a queue worker. -/
theorem act_retireQueue (hi : i < workers.length) (hvalid : (m.stage workers i w).Valid)
    (hlive : w.live = true) (hmode : w.claimant = .mode .queue) (hactive : w.active = false)
    (hholds : w.holds = false) (hslot : w.slot = false) (hprocess : w.process = false)
    (hfinish : m.finishQueueWorker w.key = some m') :
    Act courteous (m.stage workers i w) (m'.stage workers i { w with live := false }) := by
  obtain ⟨cell, hcell⟩ := cell_of_stage hi hvalid hlive
  have hpos := workers_pos hi hvalid hlive hmode hcell
  rcases finishQueueWorker_cases hfinish with ⟨job, hjob, -, hshown⟩ | ⟨hzero, rfl⟩
  · have hqueue := track_queue_of_cell hcell hjob
    rw [hshown.stage, stage_set (m := setJob _ _ _) (w := w), stage_setJob hcell]
    have hact := @Act.retire _ _ _ _ courteous _ _ _ _ _ (stage_worker hi) hcell hmode hlive
      hactive hholds hslot hprocess
    rw [hqueue] at hact
    exact hact
  · obtain ⟨job, _, _, hjob, -, -, rfl⟩ := cell_eq_some.mp hcell
    have hworkers := hzero job hjob
    exact absurd hpos (by rw [track_queue_of_cell hcell hjob, Job.track, hworkers]; simp)

/-- The end of a keepalive worker. -/
theorem act_retireKeepalive (hi : i < workers.length) (hvalid : (m.stage workers i w).Valid)
    (hlive : w.live = true) (hmode : w.claimant = .mode .keepalive) (hactive : w.active = false)
    (hholds : w.holds = false) (hslot : w.slot = false) (hprocess : w.process = false)
    (hfinish : m.finishKeepaliveWorker w.key = some m') :
    Act courteous (m.stage workers i w) (m'.stage workers i { w with live := false }) := by
  obtain ⟨cell, hcell⟩ := cell_of_stage hi hvalid hlive
  have hpos := workers_pos hi hvalid hlive hmode hcell
  rcases finishKeepaliveWorker_cases hfinish with ⟨keepalive, hkeepalive, -, hshown⟩ | ⟨hzero, rfl⟩
  · have hkeep := track_keepalive_of_cell hcell hkeepalive
    rw [hshown.stage, stage_set (m := setKeepalive _ _ _) (w := w), stage_setKeepalive hcell]
    have hact := @Act.retire _ _ _ _ courteous _ _ _ _ _ (stage_worker hi) hcell hmode hlive
      hactive hholds hslot hprocess
    rw [hkeep] at hact
    exact hact
  · obtain ⟨_, keepalive, _, -, hkeepalive, -, rfl⟩ := cell_eq_some.mp hcell
    have hworkers := hzero keepalive hkeepalive
    exact absurd hpos
      (by rw [track_keepalive_of_cell hcell hkeepalive, KeepaliveJob.track, hworkers]; simp)

end

end Acts

end Manager

/-! ### Steps of the queue workers -/

section

variable [Go.NetURL] {courteous : Bool} {m : Manager} {workers : List (Worker String Mode)}
  {i self : Nat} {input : Input} {effect : Effect}

open Manager

/-- Every step of a queue worker is a sequence of acts. -/
theorem QueueWorker.step_acts {w : QueueWorker} (hi : i < workers.length)
    (hvalid : (m.stage workers i w.view).Valid) (hstep : w.step m self input = some effect) :
    effect.spawned = [] ∧ ReflTransGen (Act courteous) (m.stage workers i w.view)
      (effect.manager.stage workers i effect.proc.view) := by
  obtain ⟨key, runID, context, pc⟩ := w
  unfold QueueWorker.step at hstep
  cases pc <;> simp only [Option.bind_eq_bind, Option.bind_eq_some_iff, Prod.exists] at hstep
  case acquireTarget =>
    obtain ⟨m₁, outcome, hsection, hstep⟩ := hstep
    obtain ⟨job, arbiter, -, harbiter, hcases⟩ := acquireQueueTarget_cases hsection
    rcases hcases with ⟨-, rfl, rfl⟩ | ⟨-, hfree, rfl, rfl⟩ | ⟨-, -, rfl, rfl⟩ <;> cases hstep
    · exact ⟨rfl, .refl⟩
    · obtain ⟨cell, hcell⟩ := cell_of_stage hi hvalid rfl
      have howner := owner_of_cell hcell harbiter
      rw [TargetArbiter.claim_eq_none.mpr hfree] at howner
      exact ⟨rfl, .single (act_take hi hcell rfl howner rfl)⟩
    · exact ⟨rfl, .refl⟩
  case awaitTarget | awaitSlot =>
    obtain ⟨woken, -, hstep⟩ := hstep
    cases hstep
    cases woken <;> exact ⟨rfl, .refl⟩
  case acquire =>
    rcases hacquire : m.acquire with ⟨m₁, _ | changed⟩ <;> simp only [hacquire] at hstep <;>
      cases hstep
    · rcases acquire_cases hacquire with ⟨-, -, rfl⟩ | ⟨-, hcontra, -⟩
      · exact ⟨rfl, .single (act_enter hi rfl rfl)⟩
      · cases hcontra
    · rcases acquire_cases hacquire with ⟨-, hcontra, -⟩ | ⟨-, -, rfl⟩
      · cases hcontra
      · exact ⟨rfl, .refl⟩
  case beginAttempt =>
    obtain ⟨m₁, begun, hsection, hstep⟩ := hstep
    obtain ⟨cell, hcell⟩ : ∃ cell, m.cell key = some cell := cell_of_stage hi hvalid rfl
    obtain ⟨job, arbiter, hjob, harbiter, hcases⟩ := beginAttempt_cases hsection
    rcases hcases with ⟨-, -, rfl, hshown⟩ | ⟨hrefused, rfl, rfl⟩ <;> cases hstep
    · refine ⟨rfl, ?_⟩
      rw [hshown.stage]
      exact .single (act_launch_setJob hi rfl rfl rfl hcell hjob rfl)
    · refine ⟨rfl, .single (act_leaveStale hi hcell rfl rfl ?_)⟩
      have hclaim := (hvalid.owner_iff_holds (stage_worker hi) rfl hcell).mpr rfl
      rw [owner_of_cell hcell harbiter, TargetArbiter.claim_eq_some] at hclaim
      rw [track_queue_of_cell hcell hjob, Job.track_current]
      exact fun hcurrent ↦ hrefused ⟨hcurrent, hclaim⟩
  case running | workerDone | notifySuccess =>
    cases hstep
    exact ⟨rfl, .refl⟩
  case checkContext result =>
    cases hstep
    refine ⟨rfl, ?_⟩
    dsimp only
    split_ifs <;> exact .refl
  case finishProcess attempt target result =>
    obtain ⟨m₁, hsection, hstep⟩ := hstep
    cases hstep
    refine ⟨rfl, ?_⟩
    dsimp only
    rw [(finishProcess_cases hsection).stage]
    split_ifs <;> exact .single (act_finish hi rfl)
  case markSuccess attempt target =>
    obtain ⟨m₁, success, hsection, hstep⟩ := hstep
    obtain ⟨cell, hcell⟩ : ∃ cell, m.cell key = some cell := cell_of_stage hi hvalid rfl
    obtain ⟨job, hjob, hcases⟩ := markSuccess_cases hsection
    rcases hcases with ⟨hcurrent, rfl, m₂, hrelease, hshown⟩ | ⟨hstale, rfl, hrelease⟩ <;>
      cases hstep
    · refine ⟨rfl, ?_⟩
      rw [hshown.stage]
      exact acts_leaveQueue_release hi hvalid rfl rfl rfl hcell hjob hcurrent rfl hrelease
    · refine ⟨rfl, acts_leaveStale_release hi hvalid rfl rfl rfl hcell ?_ hrelease⟩
      rwa [track_queue_of_cell hcell hjob, Job.track_current]
  case markFailure result =>
    obtain ⟨m₁, valid, hsection, hstep⟩ := hstep
    obtain ⟨cell, hcell⟩ : ∃ cell, m.cell key = some cell := cell_of_stage hi hvalid rfl
    obtain ⟨job, hjob, hcases⟩ := markFailure_cases hsection
    rcases hcases with ⟨-, rfl, m₂, hrelease, hshown⟩ | ⟨hstale, rfl, hrelease⟩ <;> cases hstep
    · refine ⟨rfl, ?_⟩
      have hsame := fun w ↦ @stage_setJob_self m workers i w _ key hcell _ (job.failed
        (sanitizeTargetError (m.target key) result.error)) hjob rfl
      have hreleased : ReflTransGen (Act courteous) (stage _ workers i _) _ :=
        acts_release hi (by rw [hsame]; exact hvalid) rfl rfl rfl hrelease
      rw [hsame] at hreleased
      rw [hshown.stage]
      exact hreleased
    · refine ⟨rfl, acts_leaveStale_release hi hvalid rfl rfl rfl hcell ?_ hrelease⟩
      rwa [track_queue_of_cell hcell hjob, Job.track_current]
  case releaseSlot =>
    cases hstep
    refine ⟨rfl, ?_⟩
    dsimp only
    rw [releaseSlot_eq]
    exact .single (act_yield hi rfl rfl)
  case releaseTarget =>
    obtain ⟨m₁, hsection, hstep⟩ := hstep
    cases hstep
    exact ⟨rfl, acts_release hi hvalid rfl rfl rfl hsection⟩
  case markCancelled holding =>
    obtain ⟨m₁, hsection, hstep⟩ := hstep
    cases hstep
    refine ⟨rfl, ?_⟩
    obtain ⟨job, m₂, hjob, hrelease, hcases⟩ := markQueueCancelled_cases hsection
    have hreleased : ReflTransGen (Act courteous) _ (m₂.stage workers i _) :=
      acts_release hi hvalid rfl rfl rfl hrelease
    obtain ⟨cell, hcell⟩ := cell_of_stage hi (Act.valid_of_reflTransGen hreleased hvalid) rfl
    rw [← releaseTargetLocked_jobs hrelease] at hjob
    rcases hcases with ⟨hcurrent, m₃, hsignal, hshown⟩ | ⟨hstale, rfl⟩
    · obtain ⟨arbiter, harbiter, rfl⟩ := signalTargetLocked_cases hsignal
      rw [hshown.stage]
      rw [stage_resignalled_self harbiter]
      exact hreleased.tail (act_leaveQueue hi hcell rfl rfl hjob hcurrent rfl)
    · exact hreleased.tail (act_leaveStale hi hcell rfl rfl
        (by rwa [track_queue_of_cell hcell hjob, Job.track_current]))
  case finishWorker =>
    obtain ⟨m₁, hsection, hstep⟩ := hstep
    cases hstep
    exact ⟨rfl, .single (act_retireQueue hi hvalid rfl rfl rfl rfl rfl rfl hsection)⟩
  case exited => cases hstep

/-! ### Steps of the keepalive workers -/

/-- Every step of a keepalive worker is a sequence of acts. -/
theorem KeepaliveWorker.step_acts {w : KeepaliveWorker} (hi : i < workers.length)
    (hvalid : (m.stage workers i w.view).Valid) (hstep : w.step m self input = some effect) :
    effect.spawned = [] ∧ ReflTransGen (Act courteous) (m.stage workers i w.view)
      (effect.manager.stage workers i effect.proc.view) := by
  obtain ⟨key, runID, context, pc⟩ := w
  unfold KeepaliveWorker.step at hstep
  cases pc <;> simp only [Option.bind_eq_bind, Option.bind_eq_some_iff, Prod.exists] at hstep
  case beginRequest =>
    obtain ⟨m₁, outcome, hsection, hstep⟩ := hstep
    obtain ⟨cell, hcell⟩ : ∃ cell, m.cell key = some cell := cell_of_stage hi hvalid rfl
    have hsame : ∀ w, m₁.stage workers i w = m.stage workers i w := by
      intro w
      obtain ⟨keepalive, job, arbiter, hkeepalive, -, -, hcases⟩ :=
        beginKeepaliveRequest_cases hsection
      rcases hcases with ⟨-, -, rfl⟩ | ⟨hcurrent, -, rfl | ⟨state, hstate, hshown⟩⟩
      · rfl
      · rfl
      · rw [hshown.stage, stage_setKeepalive_state hcell hkeepalive hcurrent.2 hstate]
    cases outcome <;> cases hstep <;> refine ⟨rfl, ?_⟩ <;> rw [hsame] <;> exact .refl
  case awaitTarget | awaitSlot =>
    obtain ⟨woken, -, hstep⟩ := hstep
    cases hstep
    cases woken <;> exact ⟨rfl, .refl⟩
  case acquire =>
    rcases hacquire : m.acquire with ⟨m₁, _ | changed⟩ <;> simp only [hacquire] at hstep <;>
      cases hstep
    · rcases acquire_cases hacquire with ⟨-, -, rfl⟩ | ⟨-, hcontra, -⟩
      · exact ⟨rfl, .single (act_enter hi rfl rfl)⟩
      · cases hcontra
    · rcases acquire_cases hacquire with ⟨-, hcontra, -⟩ | ⟨-, -, rfl⟩
      · cases hcontra
      · exact ⟨rfl, .refl⟩
  case confirmRequest =>
    obtain ⟨m₁, outcome, hsection, hstep⟩ := hstep
    obtain ⟨cell, hcell⟩ : ∃ cell, m.cell key = some cell := cell_of_stage hi hvalid rfl
    obtain ⟨keepalive, job, arbiter, hkeepalive, -, harbiter, hcases⟩ :=
      confirmKeepaliveRequest_cases hsection
    rcases hcases with ⟨-, rfl, rfl⟩ | ⟨hcurrent, rfl, -, rfl | ⟨state, hstate, hshown⟩⟩ |
      ⟨hcurrent, rfl, -, hfree, hshown⟩ <;> cases hstep <;> refine ⟨rfl, ?_⟩
    · exact .refl
    · exact .refl
    · rw [hshown.stage, stage_setKeepalive_state hcell hkeepalive hcurrent.2 hstate]
      exact .refl
    · have howner := owner_of_cell hcell harbiter
      rw [TargetArbiter.claim_eq_none.mpr hfree] at howner
      rw [hshown.stage]
      refine (ReflTransGen.single (@act_take _ _ _ _ _ _ hi hcell rfl howner
        { arbiter with owner := .keepalive, ownerRunID := runID } rfl)).tail ?_
      exact act_launch_setKeepalive (m := m.setArbiter key _) hi rfl rfl rfl
        (cell_setArbiter hcell _) hkeepalive
        (KeepaliveJob.track_of_on hcurrent.2 (by simp [KeepaliveJob.requested]) rfl rfl rfl)
  case releaseSlot changed =>
    cases changed <;> cases hstep <;> refine ⟨rfl, ?_⟩ <;> dsimp only <;> rw [releaseSlot_eq] <;>
      exact .single (act_yield hi rfl rfl)
  case running | workerDone =>
    cases hstep
    exact ⟨rfl, .refl⟩
  case finishProcess result =>
    obtain ⟨m₁, hsection, hstep⟩ := hstep
    cases hstep
    refine ⟨rfl, ?_⟩
    dsimp only
    rw [(finishProcess_cases hsection).stage]
    exact .single (act_finish hi rfl)
  case checkContext result =>
    cases hstep
    refine ⟨rfl, ?_⟩
    dsimp only
    split_ifs <;> exact .refl
  case finishRequest result =>
    obtain ⟨m₁, valid, hsection, hstep⟩ := hstep
    obtain ⟨cell, hcell⟩ : ∃ cell, m.cell key = some cell := cell_of_stage hi hvalid rfl
    obtain ⟨keepalive, hkeepalive, hcases⟩ := finishKeepaliveRequest_cases hsection
    rcases hcases with ⟨hcurrent, rfl, m₂, hrelease, hshown⟩ | ⟨hstale, rfl, hrelease⟩ <;>
      cases hstep
    · refine ⟨rfl, ?_⟩
      have hsame := fun w ↦ @stage_setKeepalive_self m workers i w _ key hcell _ (keepalive.judged
        result.success (sanitizeTargetError (m.target key) result.error) input.now
        (input.now + randomDuration m.keepaliveMin m.keepaliveMax input.draw)) hkeepalive
        (KeepaliveJob.track_judged hcurrent.2 _ _ _ _)
      have hreleased : ReflTransGen (Act courteous) (stage _ workers i _) _ :=
        acts_release hi (by rw [hsame]; exact hvalid) rfl rfl rfl hrelease
      rw [hsame] at hreleased
      rw [hshown.stage]
      exact hreleased
    · refine ⟨rfl, acts_leaveStale_release hi hvalid rfl rfl rfl hcell ?_ hrelease⟩
      rwa [track_keepalive_of_cell hcell hkeepalive, KeepaliveJob.track_current]
  case waitNext =>
    split at hstep <;> cases hstep <;> refine ⟨rfl, ?_⟩
    · exact .refl
    · dsimp only
      split_ifs <;> exact .refl
  case awaitNext nextRequest changed =>
    split_ifs at hstep
    · cases hstep
      exact ⟨rfl, .refl⟩
    · rw [Option.bind_eq_some_iff] at hstep
      obtain ⟨woken, -, hstep⟩ := hstep
      cases hstep
      cases woken <;> exact ⟨rfl, .refl⟩
  case markCancelled holding =>
    obtain ⟨m₁, hsection, hstep⟩ := hstep
    cases hstep
    refine ⟨rfl, ?_⟩
    obtain ⟨keepalive, m₂, hkeepalive, hrelease, hcases⟩ := markKeepaliveCancelled_cases hsection
    have hreleased : ReflTransGen (Act courteous) _ (m₂.stage workers i _) :=
      acts_release hi hvalid rfl rfl rfl hrelease
    obtain ⟨cell, hcell⟩ := cell_of_stage hi (Act.valid_of_reflTransGen hreleased hvalid) rfl
    rw [← releaseTargetLocked_keepalives hrelease] at hkeepalive
    rcases hcases with ⟨hcurrent, m₃, hsignal, hshown⟩ | ⟨hstale, rfl⟩
    · obtain ⟨arbiter, harbiter, rfl⟩ := signalTargetLocked_cases hsignal
      rw [hshown.stage, stage_resignalled_self harbiter]
      exact hreleased.tail (act_leaveKeepalive hi hcell rfl rfl hkeepalive hcurrent rfl)
    · exact hreleased.tail (act_leaveStale hi hcell rfl rfl
        (by rwa [track_keepalive_of_cell hcell hkeepalive, KeepaliveJob.track_current]))
  case finishWorker =>
    obtain ⟨m₁, hsection, hstep⟩ := hstep
    cases hstep
    exact ⟨rfl, .single (act_retireKeepalive hi hvalid rfl rfl rfl rfl rfl rfl hsection)⟩
  case exited => cases hstep

end

end CodexQueueBot.Jobs
