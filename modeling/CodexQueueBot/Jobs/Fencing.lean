import CodexQueueBot.Jobs.Activity
import CodexQueueBot.Jobs.History
import CodexQueueBot.Lib.LedgerFence

/-!
# Stops fence old runs

A stop moves the run numbers of a target on, so that no worker that existed before carries a number
that is on, then or ever after. Such a worker goes on with its program, but each of its remaining
sections compares its number before it writes. It begins no attempt and no request, its run does not
succeed, and it leaves the records to later runs: of the jobs it changes only the count of workers,
and it gives back only the target that it itself has taken.

One thing can still come from it. A run that has succeeded before the stop has collected its
subscribers, and it notifies them even when the stop comes between (`stop_not_silent`).
-/

set_option autoImplicit false
set_option relaxedAutoImplicit false

namespace CodexQueueBot.Jobs

open Lib

/-- A queue worker or a keepalive worker of a target. -/
def Proc.worksOn (key : String) : Proc → Bool
  | .queue worker => worker.key = key
  | .keepalive worker => worker.key = key
  | .adhoc _ | .start _ | .edit _ | .wait _ => false

/-- A worker of a target is one of its ledger's workers, in a mode. -/
theorem Proc.view_of_worksOn {proc : Proc} {key : String} (h : proc.worksOn key = true) :
    proc.view.key = key ∧ ∃ mode, proc.view.claimant = .mode mode := by
  cases proc with
  | queue w => exact ⟨of_decide_eq_true h, .queue, rfl⟩
  | keepalive w => exact ⟨of_decide_eq_true h, .keepalive, rfl⟩
  | adhoc call | start call | edit call | wait call => cases h

/-- A step of a worker leaves a worker of the same target. -/
theorem Proc.worksOn_of_step [Go.NetURL] {proc : Proc} {key : String} {m : Manager}
    {next self : Nat} {input : Input} {effect : Effect} (h : proc.worksOn key = true)
    (hstep : proc.step m next self input = some effect) : effect.proc.worksOn key = true := by
  cases proc with
  | queue w =>
    obtain ⟨pc, heq, -⟩ := QueueWorker.step_proc hstep
    rw [heq]
    exact h
  | keepalive w =>
    obtain ⟨pc, heq, -⟩ := KeepaliveWorker.step_proc hstep
    rw [heq]
    exact h
  | adhoc call | start call | edit call | wait call => cases h

namespace Manager

/-- What a step of a goroutine leaves alone, if it is not to disturb other runs: the jobs but for
their counts of workers, and every arbiter whose target the goroutine does not hold. -/
structure Spares (m m' : Manager) (proc : Proc) : Prop where
  jobs : ∀ (key : String) (job : Job), m.jobs.lookup key = some job →
    ∃ workers, m'.jobs.lookup key = some { job with workers }
  keepalives : ∀ (key : String) (keepalive : KeepaliveJob),
    m.keepalives.lookup key = some keepalive →
    ∃ workers, m'.keepalives.lookup key = some { keepalive with workers }
  arbiters : ∀ (key : String) (arbiter : TargetArbiter), m.arbiters.lookup key = some arbiter →
    ¬ proc.Holds key arbiter.owner arbiter.ownerRunID → m'.arbiters.lookup key = some arbiter

variable {m m' : Manager} {key : String} {runID : Nat} {now : Time}
  {workers : List (Worker String Mode)} {i : Nat} {worker : Worker String Mode}

/-! ### Stops raise fences -/

/-- Stopping a queue job fences the queue workers of the target. -/
theorem fenced_stopQueueLocked (hvalid : (m.ledger workers).Valid)
    (hworker : workers[i]? = some worker) (hkey : worker.key = key)
    (hmode : worker.claimant = .mode .queue) (h : m.stopQueueLocked key now = some m') :
    (m'.ledger workers).Fenced i := by
  subst hkey
  intro worker' cell' mode hworker' hlive hcell' hmode'
  obtain rfl := Option.some.inj (hworker.symm.trans hworker')
  obtain rfl : mode = .queue := Claimant.mode.inj (hmode'.symm.trans hmode)
  obtain ⟨cell, hcell⟩ := hvalid.present i worker hworker hlive
  have hle := hvalid.numbered i worker cell .queue hworker hlive hcell hmode
  have hbusy := hvalid.busy_of_live hworker hlive hcell hmode
  obtain ⟨job, _, _, hjob, -, -, rfl⟩ := cell_eq_some.mp hcell
  replace hle : worker.runID ≤ job.runID := hle
  rcases stopQueueLocked_cases h with ⟨job', arbiter, hjob', -, -, rfl⟩ | ⟨hidle, -⟩
  · obtain rfl := Option.some.inj (hjob.symm.trans hjob')
    have hstopped : (((m.setJob worker.key (stopJob job now)).resignalled worker.key
        arbiter).callCancel job.cancel).jobs.lookup worker.key = some (stopJob job now) := by
      rw [callCancel_jobs]
      exact AList.lookup_insert m.jobs
    rw [track_queue_of_cell hcell' hstopped, track_stopJob]
    exact Nat.lt_succ_of_le hle
  · obtain ⟨hstate, hworkers⟩ := hidle job hjob
    rcases Job.track_busy.mp hbusy with hrunning | hpos
    · exact absurd hrunning hstate
    · omega

/-- Stopping a keepalive job fences the keepalive workers of the target. -/
theorem fenced_stopKeepaliveLocked (hvalid : (m.ledger workers).Valid)
    (hworker : workers[i]? = some worker) (hkey : worker.key = key)
    (hmode : worker.claimant = .mode .keepalive) (h : m.stopKeepaliveLocked key now = some m') :
    (m'.ledger workers).Fenced i := by
  subst hkey
  intro worker' cell' mode hworker' hlive hcell' hmode'
  obtain rfl := Option.some.inj (hworker.symm.trans hworker')
  obtain rfl : mode = .keepalive := Claimant.mode.inj (hmode'.symm.trans hmode)
  obtain ⟨cell, hcell⟩ := hvalid.present i worker hworker hlive
  have hle := hvalid.numbered i worker cell .keepalive hworker hlive hcell hmode
  have hbusy := hvalid.busy_of_live hworker hlive hcell hmode
  obtain ⟨_, keepalive, _, -, hkeepalive, -, rfl⟩ := cell_eq_some.mp hcell
  replace hle : worker.runID ≤ keepalive.runID := hle
  rcases stopKeepaliveLocked_cases h with ⟨keepalive', arbiter, hkeepalive', -, -, rfl⟩ |
    ⟨hidle, -⟩
  · obtain rfl := Option.some.inj (hkeepalive.symm.trans hkeepalive')
    have hstopped : (((m.setKeepalive worker.key (stopKeepaliveJob keepalive now)).resignalled
        worker.key arbiter).callCancel keepalive.cancel).keepalives.lookup worker.key =
        some (stopKeepaliveJob keepalive now) := by
      rw [callCancel_keepalives]
      exact AList.lookup_insert m.keepalives
    rw [track_keepalive_of_cell hcell' hstopped, track_stopKeepaliveJob]
    exact Nat.lt_succ_of_le hle
  · obtain ⟨hstate, hworkers⟩ := hidle keepalive hkeepalive
    rcases KeepaliveJob.track_busy.mp hbusy with hon | hpos
    · exact absurd hstate hon
    · omega

/-- Stops keep the tables and the invariant. -/
theorem Stops.valid (h : Stops now m m') (htabled : m.Tabled)
    (hvalid : (m.ledger workers).Valid) : m'.Tabled ∧ (m'.ledger workers).Valid :=
  ⟨htabled.of_domain h.domain, Act.valid_of_reflTransGen
      (@Stops.acts false _ _ _ _ h htabled) hvalid⟩

/-- Stops keep a fence. -/
theorem Stops.fenced (h : Stops now m m') (htabled : m.Tabled) (hvalid : (m.ledger workers).Valid)
    (hworker : workers[i]? = some worker) (hfenced : (m.ledger workers).Fenced i) :
    (m'.ledger workers).Fenced i :=
  Act.fenced_of_reflTransGen (@Stops.acts false _ _ _ _ h htabled) hvalid
    (List.getElem?_eq_some_iff.mp hworker).1 hfenced

/-- One round of the loop of `stop` fences the workers of its target. -/
theorem fenced_stopKey (htabled : m.Tabled) (hvalid : (m.ledger workers).Valid)
    (hworker : workers[i]? = some worker) (hkey : worker.key = key) {mode : Mode}
    (hmode : worker.claimant = .mode mode) {result result' : StopResult}
    (h : stopKey now (m, result) key = some (m', result')) : (m'.ledger workers).Fenced i := by
  obtain ⟨_, _, m₁, m₂, -, -, hqueue, hkeepalive, rfl⟩ := stopKey_cases h
  have hfirst : Stops now m m₁ := .queue key .refl hqueue
  have hsecond : Stops now m₁ m₂ := .keepalive key .refl hkeepalive
  have hthird : Stops now m₂ (m₂.stopAdhocLocked key) := .adhoc key .refl
  obtain ⟨htabled₁, hvalid₁⟩ := hfirst.valid htabled hvalid
  obtain ⟨htabled₂, hvalid₂⟩ := hsecond.valid htabled₁ hvalid₁
  refine hthird.fenced htabled₂ hvalid₂ hworker ?_
  cases mode with
  | queue =>
    exact hsecond.fenced htabled₁ hvalid₁ hworker
      (fenced_stopQueueLocked hvalid hworker hkey hmode hqueue)
  | keepalive => exact fenced_stopKeepaliveLocked hvalid₁ hworker hkey hmode hkeepalive

/-- The loop of `stop` fences the workers of its targets. -/
theorem fenced_of_foldlM {keys : List String} (htabled : m.Tabled)
    (hvalid : (m.ledger workers).Valid) (hworker : workers[i]? = some worker)
    (hkey : worker.key ∈ keys) {mode : Mode} (hmode : worker.claimant = .mode mode)
    {result result' : StopResult}
    (h : keys.foldlM (stopKey now) (m, result) = some (m', result')) :
    (m'.ledger workers).Fenced i := by
  induction keys generalizing m result with
  | nil => cases hkey
  | cons key keys ih =>
    rw [List.foldlM_cons, Option.bind_eq_bind, Option.bind_eq_some_iff] at h
    obtain ⟨⟨m₁, result₁⟩, hround, h⟩ := h
    have hstops : Stops now m m₁ := by
      obtain ⟨_, _, _, _, -, -, hqueue, hkeepalive, rfl⟩ := stopKey_cases hround
      exact .adhoc key (.keepalive key (.queue key .refl hqueue) hkeepalive)
    obtain ⟨htabled₁, hvalid₁⟩ := hstops.valid htabled hvalid
    by_cases heq : worker.key = key
    · exact (stops_of_foldlM .refl h).fenced htabled₁ hvalid₁ hworker
        (fenced_stopKey htabled hvalid hworker heq hmode hround)
    · exact ih htabled₁ hvalid₁ (List.mem_of_ne_of_mem heq hkey) h

/-! ### Steps behind a fence -/

/-- A release leaves every arbiter alone but the one it releases. -/
theorem lookup_of_release {owner : RequestOwner} {other : String} {arbiter : TargetArbiter}
    (h : m.releaseTargetLocked key owner runID = some m')
    (harbiter : m.arbiters.lookup other = some arbiter)
    (hforeign : ¬ (other = key ∧ arbiter.OwnedBy owner runID)) :
    m'.arbiters.lookup other = some arbiter := by
  obtain ⟨released, hreleased, ⟨howned, rfl⟩ | ⟨-, rfl⟩⟩ := releaseTargetLocked_cases h
  · have hne : other ≠ key := by
      rintro rfl
      obtain rfl := Option.some.inj (hreleased.symm.trans harbiter)
      exact hforeign ⟨rfl, howned⟩
    exact (AList.lookup_insert_ne hne).trans harbiter
  · exact harbiter

end Manager

section

variable [Go.NetURL] {m : Manager} {self : Nat} {input : Input} {effect : Effect}

open Manager

/-- A queue worker whose run is not on touches no arbiter but the one it owns. -/
theorem QueueWorker.step_arbiters {w : QueueWorker}
    (hstale : w.view.live = true → ∀ job, m.jobs.lookup w.key = some job → ¬ job.Current w.runID)
    (h : w.step m self input = some effect) {key : String} {arbiter : TargetArbiter}
    (harbiter : m.arbiters.lookup key = some arbiter)
    (hforeign : w.view.live = true → ¬ (key = w.key ∧ arbiter.OwnedBy .queue w.runID)) :
    effect.manager.arbiters.lookup key = some arbiter := by
  unfold QueueWorker.step at h
  cases hpc : w.pc <;>
    simp only [hpc, Option.bind_eq_bind, Option.bind_eq_some_iff, Prod.exists] at h
  case acquireTarget =>
    have hlive : w.view.live = true := by simp [view, hpc]
    obtain ⟨m₁, outcome, hsection, h⟩ := h
    obtain ⟨job, _, hjob, -, hcases⟩ := acquireQueueTarget_cases hsection
    rcases hcases with ⟨-, rfl, rfl⟩ | ⟨hcurrent, -⟩ | ⟨hcurrent, -⟩
    · cases h
      exact harbiter
    · exact absurd hcurrent (hstale hlive job hjob)
    · exact absurd hcurrent (hstale hlive job hjob)
  case acquire =>
    rcases hacquire : m.acquire with ⟨m₁, outcome⟩
    simp only [hacquire] at h
    rcases acquire_cases hacquire with ⟨-, rfl, rfl⟩ | ⟨-, rfl, rfl⟩ <;> cases h <;> exact harbiter
  case beginAttempt =>
    have hlive : w.view.live = true := by simp [view, hpc]
    obtain ⟨m₁, begun, hsection, h⟩ := h
    obtain ⟨job, _, hjob, -, hcases⟩ := beginAttempt_cases hsection
    rcases hcases with ⟨hcurrent, -⟩ | ⟨-, rfl, rfl⟩
    · exact absurd hcurrent (hstale hlive job hjob)
    · cases h
      exact harbiter
  case finishProcess =>
    obtain ⟨m₁, hsection, h⟩ := h
    cases h
    rw [(finishProcess_cases hsection).arbiters]
    exact harbiter
  case markSuccess =>
    have hlive : w.view.live = true := by simp [view, hpc]
    obtain ⟨m₁, success, hsection, h⟩ := h
    obtain ⟨job, hjob, hcases⟩ := markSuccess_cases hsection
    rcases hcases with ⟨hcurrent, -⟩ | ⟨-, rfl, hrelease⟩
    · exact absurd hcurrent (hstale hlive job hjob)
    · cases h
      exact lookup_of_release hrelease harbiter (hforeign hlive)
  case markFailure =>
    have hlive : w.view.live = true := by simp [view, hpc]
    obtain ⟨m₁, valid, hsection, h⟩ := h
    cases h
    obtain ⟨job, hjob, hcases⟩ := markFailure_cases hsection
    rcases hcases with ⟨hcurrent, -⟩ | ⟨-, -, hrelease⟩
    · exact absurd hcurrent (hstale hlive job hjob)
    · exact lookup_of_release hrelease harbiter (hforeign hlive)
  case releaseTarget =>
    have hlive : w.view.live = true := by simp [view, hpc]
    obtain ⟨m₁, hrelease, h⟩ := h
    cases h
    exact lookup_of_release hrelease harbiter (hforeign hlive)
  case markCancelled =>
    have hlive : w.view.live = true := by simp [view, hpc]
    obtain ⟨m₁, hsection, h⟩ := h
    cases h
    obtain ⟨job, m₂, hjob, hrelease, hcases⟩ := markQueueCancelled_cases hsection
    rcases hcases with ⟨hcurrent, -⟩ | ⟨-, rfl⟩
    · exact absurd hcurrent (hstale hlive job hjob)
    · exact lookup_of_release hrelease harbiter (hforeign hlive)
  case finishWorker =>
    obtain ⟨m₁, hsection, h⟩ := h
    cases h
    rcases finishQueueWorker_cases hsection with ⟨job, -, -, hshown⟩ | ⟨-, rfl⟩
    · rw [hshown.arbiters]
      exact harbiter
    · exact harbiter
  case awaitTarget | awaitSlot =>
    obtain ⟨_, -, h⟩ := h
    cases h
    exact harbiter
  case running | notifySuccess | checkContext | releaseSlot | workerDone =>
    cases h
    exact harbiter
  case exited => cases h

/-- A keepalive worker whose run is not on touches no arbiter but the one it owns. -/
theorem KeepaliveWorker.step_arbiters {w : KeepaliveWorker}
    (hstale : w.view.live = true → ∀ keepalive, m.keepalives.lookup w.key = some keepalive →
      ¬ keepalive.Current w.runID)
    (h : w.step m self input = some effect) {key : String} {arbiter : TargetArbiter}
    (harbiter : m.arbiters.lookup key = some arbiter)
    (hforeign : w.view.live = true → ¬ (key = w.key ∧ arbiter.OwnedBy .keepalive w.runID)) :
    effect.manager.arbiters.lookup key = some arbiter := by
  unfold KeepaliveWorker.step at h
  cases hpc : w.pc <;>
    simp only [hpc, Option.bind_eq_bind, Option.bind_eq_some_iff, Prod.exists] at h
  case beginRequest =>
    have hlive : w.view.live = true := by simp [view, hpc]
    obtain ⟨m₁, outcome, hsection, h⟩ := h
    obtain ⟨keepalive, _, _, hkeepalive, -, -, hcases⟩ := beginKeepaliveRequest_cases hsection
    rcases hcases with ⟨-, rfl, rfl⟩ | ⟨hcurrent, -⟩
    · cases h
      exact harbiter
    · exact absurd hcurrent (hstale hlive keepalive hkeepalive)
  case acquire =>
    rcases hacquire : m.acquire with ⟨m₁, outcome⟩
    simp only [hacquire] at h
    rcases acquire_cases hacquire with ⟨-, rfl, rfl⟩ | ⟨-, rfl, rfl⟩ <;> cases h <;> exact harbiter
  case confirmRequest =>
    have hlive : w.view.live = true := by simp [view, hpc]
    obtain ⟨m₁, outcome, hsection, h⟩ := h
    obtain ⟨keepalive, _, _, hkeepalive, -, -, hcases⟩ := confirmKeepaliveRequest_cases hsection
    rcases hcases with ⟨-, rfl, rfl⟩ | ⟨hcurrent, -⟩ | ⟨hcurrent, -⟩
    · cases h
      exact harbiter
    · exact absurd hcurrent (hstale hlive keepalive hkeepalive)
    · exact absurd hcurrent (hstale hlive keepalive hkeepalive)
  case releaseSlot changed => cases changed <;> cases h <;> exact harbiter
  case finishProcess =>
    obtain ⟨m₁, hsection, h⟩ := h
    cases h
    rw [(finishProcess_cases hsection).arbiters]
    exact harbiter
  case finishRequest =>
    have hlive : w.view.live = true := by simp [view, hpc]
    obtain ⟨m₁, valid, hsection, h⟩ := h
    cases h
    obtain ⟨keepalive, hkeepalive, hcases⟩ := finishKeepaliveRequest_cases hsection
    rcases hcases with ⟨hcurrent, -⟩ | ⟨-, -, hrelease⟩
    · exact absurd hcurrent (hstale hlive keepalive hkeepalive)
    · exact lookup_of_release hrelease harbiter (hforeign hlive)
  case waitNext => split at h <;> cases h <;> exact harbiter
  case awaitNext =>
    split_ifs at h
    · cases h
      exact harbiter
    · rw [Option.bind_eq_some_iff] at h
      obtain ⟨_, -, h⟩ := h
      cases h
      exact harbiter
  case markCancelled =>
    have hlive : w.view.live = true := by simp [view, hpc]
    obtain ⟨m₁, hsection, h⟩ := h
    cases h
    obtain ⟨keepalive, m₂, hkeepalive, hrelease, hcases⟩ := markKeepaliveCancelled_cases hsection
    rcases hcases with ⟨hcurrent, -⟩ | ⟨-, rfl⟩
    · exact absurd hcurrent (hstale hlive keepalive hkeepalive)
    · exact lookup_of_release hrelease harbiter (hforeign hlive)
  case finishWorker =>
    obtain ⟨m₁, hsection, h⟩ := h
    cases h
    rcases finishKeepaliveWorker_cases hsection with ⟨keepalive, -, -, hshown⟩ | ⟨-, rfl⟩
    · rw [hshown.arbiters]
      exact harbiter
    · exact harbiter
  case awaitTarget | awaitSlot =>
    obtain ⟨_, -, h⟩ := h
    cases h
    exact harbiter
  case running | checkContext | workerDone =>
    cases h
    exact harbiter
  case exited => cases h

end

/-! ### Whole runs -/

namespace System

variable [Go.NetURL] {s s' : System} {i : Nat}

open Manager

/-- A fence stays up along lawful runs. -/
theorem fenced_of_steps (h : s.Reachable) (hi : i < s.procs.length) (hfenced : s.ledger.Fenced i)
    (hrun : Steps step Lawful s s') : i < s'.procs.length ∧ s'.ledger.Fenced i := by
  have hlength : ∀ s : System, s.ledger.workers.length = s.procs.length :=
    fun s ↦ List.length_map Proc.view
  have hall : s'.Reachable ∧ i < s'.procs.length ∧ s'.ledger.Fenced i := by
    refine hrun.invariant
      (P := fun s ↦ s.Reachable ∧ i < s.procs.length ∧ s.ledger.Fenced i) ?_ ⟨h, hi, hfenced⟩
    rintro s s' label ⟨hreach, hi, hfenced⟩ hlawful hstep
    have hacts := @step_acts _ false _ _ _ hreach.tabled hreach.valid hlawful (by simp) hstep
    rw [← hlength] at hi ⊢
    exact ⟨hreach.step hlawful hstep, hi.trans_le (Act.length_le_of_reflTransGen hacts),
      Act.fenced_of_reflTransGen hacts hreach.valid hi hfenced⟩
  exact hall.2

/-- A queue worker behind a fence carries no run that is on. -/
theorem not_current_queue (h : s.Reachable) (hfenced : s.ledger.Fenced i) {w : QueueWorker}
    (hproc : s.procs[i]? = some (.queue w)) (hlive : w.view.live = true) {job : Job}
    (hjob : s.manager.jobs.lookup w.key = some job) : ¬ job.Current w.runID := by
  obtain ⟨cell, hcell⟩ := h.tabled.cell_of_job hjob
  have hlt := hfenced w.view cell .queue (view_getElem? hproc) hlive hcell rfl
  rw [track_queue_of_cell hcell hjob] at hlt
  exact fun hcurrent ↦ hlt.ne' hcurrent.1

/-- A keepalive worker behind a fence carries no run that is on. -/
theorem not_current_keepalive (h : s.Reachable) (hfenced : s.ledger.Fenced i)
    {w : KeepaliveWorker} (hproc : s.procs[i]? = some (.keepalive w)) (hlive : w.view.live = true)
    {keepalive : KeepaliveJob} (hkeepalive : s.manager.keepalives.lookup w.key = some keepalive) :
    ¬ keepalive.Current w.runID := by
  obtain ⟨cell, hcell⟩ := h.tabled.cell_of_keepalive hkeepalive
  have hlt := hfenced w.view cell .keepalive (view_getElem? hproc) hlive hcell rfl
  rw [track_keepalive_of_cell hcell hkeepalive] at hlt
  exact fun hcurrent ↦ hlt.ne' hcurrent.1

/-- A live worker holds its target exactly when the arbiter names it. -/
theorem holds_of_owned (h : s.Reachable) {proc : Proc} (hproc : s.procs[i]? = some proc)
    (hlive : proc.view.live = true) {arbiter : TargetArbiter}
    (harbiter : s.manager.arbiters.lookup proc.view.key = some arbiter)
    (howned : arbiter.OwnedBy (ownerOf proc.view.claimant) proc.view.runID) :
    proc.Holds proc.view.key arbiter.owner arbiter.ownerRunID := by
  obtain ⟨cell, hcell⟩ := h.tabled.cell_of_arbiter harbiter
  have howner : cell.owner = some (proc.view.claimant, proc.view.runID) := by
    rw [owner_of_cell hcell harbiter]
    exact TargetArbiter.claim_eq_some.mpr howned
  have hholds := (h.valid.owner_iff_holds (view_getElem? hproc) hlive hcell).mp howner
  exact ⟨hlive, hholds, rfl, howned.1.symm, howned.2.symm⟩

/-- A worker behind a fence disturbs no other run. -/
theorem spares_of_fenced (h : s.Reachable) (hfenced : s.ledger.Fenced i) {proc : Proc}
    {key : String} (hproc : s.procs[i]? = some proc) (hworks : proc.worksOn key = true)
    {input : Input} (hstep : s.step (.advance i input) = some s') :
        s.manager.Spares s'.manager proc := by
  obtain ⟨moved, effect, hmoved, heffect, rfl⟩ := step_advance hstep
  obtain rfl := Option.some.inj (hproc.symm.trans hmoved)
  cases proc with
  | queue w =>
    have hstale : w.view.live = true → ∀ job, s.manager.jobs.lookup w.key = some job →
        ¬ job.Current w.runID := fun hlive _ hjob ↦ not_current_queue h hfenced hproc hlive hjob
    obtain ⟨hkeepalives, hjobs⟩ := QueueWorker.step_jobs heffect
    refine ⟨?_, ?_, ?_⟩
    · intro other job hjob
      rcases hjobs with heq | ⟨job', new, hlive, hjob', hmoves, heq⟩
      · exact ⟨job.workers, (congrArg (AList.lookup other) heq).trans hjob⟩
      · have hnot := hstale hlive job' hjob'
        cases hmoves with
        | attempted hcurrent | failed hcurrent | succeeded hcurrent | cancelled hcurrent =>
          exact absurd hcurrent hnot
        | finished =>
          show ∃ workers, effect.manager.jobs.lookup other = _
          rw [heq, Table.lookup_insert_apply]
          split_ifs with hother
          · subst hother
            obtain rfl := Option.some.inj (hjob.symm.trans hjob')
            exact ⟨_, rfl⟩
          · exact ⟨job.workers, hjob⟩
    · intro other keepalive hkeepalive
      exact ⟨keepalive.workers, (congrArg (AList.lookup other) hkeepalives).trans hkeepalive⟩
    · intro other arbiter harbiter hforeign
      refine QueueWorker.step_arbiters hstale heffect harbiter ?_
      rintro hlive ⟨rfl, howned⟩
      exact hforeign (holds_of_owned h hproc hlive harbiter howned)
  | keepalive w =>
    have hstale : w.view.live = true → ∀ keepalive,
        s.manager.keepalives.lookup w.key = some keepalive → ¬ keepalive.Current w.runID :=
      fun hlive _ hkeepalive ↦ not_current_keepalive h hfenced hproc hlive hkeepalive
    obtain ⟨hjobs, hkeepalives⟩ := KeepaliveWorker.step_jobs heffect
    refine ⟨?_, ?_, ?_⟩
    · intro other job hjob
      exact ⟨job.workers, (congrArg (AList.lookup other) hjobs).trans hjob⟩
    · intro other keepalive hkeepalive
      rcases hkeepalives with heq | ⟨keepalive', new, hlive, hkeepalive', hcurrent | rfl, heq⟩
      · exact ⟨keepalive.workers, (congrArg (AList.lookup other) heq).trans hkeepalive⟩
      · exact absurd hcurrent (hstale hlive keepalive' hkeepalive')
      · show ∃ workers, effect.manager.keepalives.lookup other = _
        rw [heq, Table.lookup_insert_apply]
        split_ifs with hother
        · subst hother
          obtain rfl := Option.some.inj (hkeepalive.symm.trans hkeepalive')
          exact ⟨_, rfl⟩
        · exact ⟨keepalive.workers, hkeepalive⟩
    · intro other arbiter harbiter hforeign
      refine KeepaliveWorker.step_arbiters hstale heffect harbiter ?_
      rintro hlive ⟨rfl, howned⟩
      exact hforeign (holds_of_owned h hproc hlive harbiter howned)
  | adhoc call | start call | edit call | wait call => cases hworks

/-- What a step records about a worker behind a fence is at most the notification of a success that
was recorded before. -/
theorem trace_of_fenced (h : s.Reachable) (hfenced : s.ledger.Fenced i) {proc : Proc}
    {key : String} (hproc : s.procs[i]? = some proc) (hworks : proc.worksOn key = true)
    {label : Label} (hstep : s.step label = some s') :
    ∃ happenings, s'.trace = s.trace ++ happenings ∧ .began i ∉ happenings ∧
      .succeeded i ∉ happenings ∧ ∀ message subscribers,
        .notified i message subscribers ∈ happenings → .succeeded i ∈ s.trace := by
  have hnone : s'.trace = s.trace → ∃ happenings, s'.trace = s.trace ++ happenings ∧
      .began i ∉ happenings ∧ .succeeded i ∉ happenings ∧ ∀ message subscribers,
        .notified i message subscribers ∈ happenings → .succeeded i ∈ s.trace := by
    intro heq
    exact ⟨[], by rw [heq, List.append_nil], by simp, by simp, by simp⟩
  by_cases hself : ∃ input, label = .advance i input
  · obtain ⟨input, rfl⟩ := hself
    obtain ⟨moved, effect, hmoved, heffect, rfl⟩ := step_advance hstep
    obtain rfl := Option.some.inj (hproc.symm.trans hmoved)
    have htrace : (s.apply i effect).trace = s.trace ++ effect.happenings := rfl
    cases proc with
    | queue w =>
      obtain ⟨pc, -, hrecords⟩ := QueueWorker.step_records heffect
      generalize effect.happenings = happenings at hrecords htrace
      cases hrecords with
      | nothing => exact hnone (by rw [htrace, List.append_nil])
      | began hpc _ hjob hcurrent | succeeded hpc hjob hcurrent =>
        have hlive : w.view.live = true := by simp [QueueWorker.view, hpc]
        exact absurd hcurrent (not_current_queue h hfenced hproc hlive hjob)
      | notified hbefore _ message =>
        refine ⟨_, htrace, by simp, by simp, ?_⟩
        intro _ _ _
        exact h.succeeded_of_success hproc hbefore
    | keepalive w =>
      rcases KeepaliveWorker.step_records heffect with heq |
        ⟨-, hpc, keepalive, hkeepalive, hcurrent⟩
      · exact hnone (by rw [htrace, heq, List.append_nil])
      · have hlive : w.view.live = true := by simp [KeepaliveWorker.view, hpc]
        exact absurd hcurrent (not_current_keepalive h hfenced hproc hlive hkeepalive)
    | adhoc call | start call | edit call | wait call => cases hworks
  · obtain ⟨happenings, htrace, hactor⟩ := step_trace hstep
    have hforeign : ∀ happening ∈ happenings, happening.actor ≠ some i :=
      fun happening hmem heq ↦ hself (hactor happening hmem i heq)
    refine ⟨happenings, htrace, ?_, ?_, ?_⟩
    · exact fun hmem ↦ hforeign _ hmem rfl
    · exact fun hmem ↦ hforeign _ hmem rfl
    · exact fun _ _ hmem ↦ absurd rfl (hforeign _ hmem)

/-- The history of a run that a fence stands over: no attempt or request of the worker begins, its
run does not succeed, and it notifies only if it had succeeded before. -/
theorem trace_of_steps (h : s.Reachable) (hfenced : s.ledger.Fenced i) {proc : Proc}
    {key : String} (hproc : s.procs[i]? = some proc) (hworks : proc.worksOn key = true)
    (hrun : Steps step Lawful s s') :
    (∃ proc', s'.procs[i]? = some proc' ∧ proc'.worksOn key = true) ∧
      ∃ happenings, s'.trace = s.trace ++ happenings ∧ .began i ∉ happenings ∧
        .succeeded i ∉ happenings ∧ ∀ message subscribers,
          .notified i message subscribers ∈ happenings → .succeeded i ∈ s.trace := by
  have hi : i < s.procs.length := (List.getElem?_eq_some_iff.mp hproc).1
  induction hrun with
  | refl => exact ⟨⟨proc, hproc, hworks⟩, [], (List.append_nil _).symm, by simp, by simp, by simp⟩
  | @tail s₁ s₂ label hrun _ hstep ih =>
    obtain ⟨⟨proc₁, hproc₁, hworks₁⟩, happenings, htrace, hbegan, hsucceeded, hnotified⟩ := ih
    have hreach₁ := h.steps hrun
    have hfenced₁ := (fenced_of_steps h hi hfenced hrun).2
    obtain ⟨more, hmore, hbegan', hsucceeded', hnotified'⟩ :=
      trace_of_fenced hreach₁ hfenced₁ hproc₁ hworks₁ hstep
    refine ⟨?_, happenings ++ more, by rw [hmore, htrace, List.append_assoc], ?_, ?_, ?_⟩
    · obtain ⟨proc₂, hproc₂, rfl | ⟨_, effect, -, heffect, -, rfl⟩⟩ := step_getElem? hstep hproc₁
      · exact ⟨_, hproc₂, hworks₁⟩
      · exact ⟨_, hproc₂, Proc.worksOn_of_step hworks₁ heffect⟩
    · rw [List.mem_append, not_or]
      exact ⟨hbegan, hbegan'⟩
    · rw [List.mem_append, not_or]
      exact ⟨hsucceeded, hsucceeded'⟩
    · intro message subscribers hmem
      rcases List.mem_append.mp hmem with hmem | hmem
      · exact hnotified message subscribers hmem
      · have hbefore := hnotified' message subscribers hmem
        rw [htrace, List.mem_append] at hbefore
        exact hbefore.resolve_right hsucceeded

/-- A stop fences the workers of its targets. -/
theorem fenced_of_stop (h : s.Reachable) {names : List String} {now : Time}
    (hstop : s.step (.stop names now) = some s') {key : String}
    (hkey : key ∈ (s.manager.resolveLocked names).1) {proc : Proc}
    (hproc : s.procs[i]? = some proc) (hworks : proc.worksOn key = true) :
    s'.ledger.Fenced i := by
  simp only [step, Option.map_eq_some_iff, Prod.exists] at hstop
  obtain ⟨m', result, hsection, rfl⟩ := hstop
  obtain ⟨m₁, -, hshown, hloop⟩ := stop_cases hsection
  obtain ⟨hview, mode, hmode⟩ := Proc.view_of_worksOn hworks
  subst hview
  have hfenced := fenced_of_foldlM h.tabled h.valid (view_getElem? hproc) hkey hmode hloop
  show (m'.ledger (s.procs.map Proc.view)).Fenced i
  rw [hshown.ledger]
  exact hfenced

/-- A stop fences old runs. After a stop has processed a target, a worker that was there before
begins no attempt and no request, its run does not succeed, it notifies only if it had succeeded
before, and none of its steps changes more of the jobs than a count of workers or gives back a
target it does not hold. -/
theorem stop_fences (h : s.Reachable) {names : List String} {now : Time} {s₁ s₂ : System}
    (hstop : s.step (.stop names now) = some s₁) {key : String}
    (hkey : key ∈ (s.manager.resolveLocked names).1) {proc : Proc}
    (hproc : s.procs[i]? = some proc) (hworks : proc.worksOn key = true)
    (hrun : Steps step Lawful s₁ s₂) :
    (∃ happenings, s₂.trace = s.trace ++ happenings ∧ .began i ∉ happenings ∧
      .succeeded i ∉ happenings ∧ ∀ message subscribers,
        .notified i message subscribers ∈ happenings → .succeeded i ∈ s.trace) ∧
    ∀ (input : Input) (proc₂ : Proc) (s₃ : System), s₂.procs[i]? = some proc₂ →
      s₂.step (.advance i input) = some s₃ → s₂.manager.Spares s₃.manager proc₂ := by
  have hfenced := fenced_of_stop h hstop hkey hproc hworks
  have hlawful : s.Lawful (.stop names now) := trivial
  have hreach := h.step hlawful hstop
  obtain ⟨htrace, hprocs⟩ : s₁.trace = s.trace ∧ s₁.procs = s.procs := by
    simp only [step, Option.map_eq_some_iff] at hstop
    obtain ⟨_, -, rfl⟩ := hstop
    exact ⟨rfl, rfl⟩
  rw [← hprocs] at hproc
  have hi : i < s₁.procs.length := (List.getElem?_eq_some_iff.mp hproc).1
  obtain ⟨⟨proc', hproc', hworks'⟩, hhistory⟩ := trace_of_steps hreach hfenced hproc hworks hrun
  rw [htrace] at hhistory
  refine ⟨hhistory, ?_⟩
  intro input proc₂ s₃ hproc₂ hstep
  obtain rfl := Option.some.inj (hproc'.symm.trans hproc₂)
  exact spares_of_fenced (hreach.steps hrun) (fenced_of_steps hreach hi hfenced hrun).2 hproc'
    hworks' hstep

/-- The labels by which the runner call of a worker returns with success and the worker goes on to
`markSuccess`. -/
def lateSuccess : List Label :=
  [.advance 1 { result := ⟨true, "", "", 0, "", 0⟩ }, .advance 1 {}, .advance 1 {}]

omit [Go.NetURL] in
/-- A queue run on `a` is stopped during its first attempt. The attempt returns with success, but
the run does not succeed. -/
theorem stop_fences_lateSuccess :
    ∃ s s₁ s₂ : System, @Reachable Go.NetURL.emptyOnly s ∧
      @step Go.NetURL.emptyOnly s (.stop ["a"] 0) = some s₁ ∧
      runLabels (@step Go.NetURL.emptyOnly) calm s₁ lateSuccess = some s₂ ∧
      .began 1 ∈ s.trace ∧
      ∃ happenings, s₂.trace = s.trace ++ happenings ∧ .succeeded 1 ∉ happenings := by
  let _ := Go.NetURL.emptyOnly
  obtain ⟨s, hreach, htest⟩ := exists_of_sample queueAttempt
    (fun s ↦ (s.manager.resolveLocked ["a"]).1.contains "a" && s.trace.contains (.began 1) &&
      s.procs[1]?.any (·.worksOn "a") && (s.step (.stop ["a"] 0)).any fun s₁ ↦
        (runLabels step calm s₁ lateSuccess).isSome) (by decide +kernel)
  simp only [Bool.and_eq_true, List.contains_iff_mem, Option.any_eq_true,
    Option.isSome_iff_exists] at htest
  obtain ⟨⟨⟨hkey, hbegan⟩, proc, hproc, hworks⟩, s₁, hstop, s₂, hrun⟩ := htest
  obtain ⟨⟨happenings, htrace, -, hsucceeded, -⟩, -⟩ := stop_fences hreach hstop hkey hproc hworks
    (Steps.of_runLabels lawful_of_calm hrun)
  exact ⟨s, s₁, s₂, hreach, hstop, hrun, hbegan, happenings, htrace, hsucceeded⟩

omit [Go.NetURL] in
/-- A stop does not silence a run that has succeeded: its worker, which was there before the stop,
delivers the notification after it. -/
theorem stop_not_silent :
    ¬ ∀ (s s₁ s₂ : System) (names : List String) (now : Time) (key : String) (i : Nat)
      (proc : Proc) (happenings : List Happening), @Reachable Go.NetURL.emptyOnly s →
      @step Go.NetURL.emptyOnly s (.stop names now) = some s₁ →
      key ∈ (s.manager.resolveLocked names).1 → s.procs[i]? = some proc →
      proc.worksOn key = true → Steps (@step Go.NetURL.emptyOnly) Lawful s₁ s₂ →
      s₂.trace = s.trace ++ happenings → ∀ message subscribers,
        .notified i message subscribers ∉ happenings := by
  let _ := Go.NetURL.emptyOnly
  intro hall
  obtain ⟨s, hreach, htest⟩ := exists_of_sample (queueAttempt ++ lateSuccess)
    (fun s ↦ (s.manager.resolveLocked ["a"]).1.contains "a" && s.procs[1]?.any (·.worksOn "a") &&
      (s.step (.stop ["a"] 0)).any fun s₁ ↦ (runLabels step calm s₁ [.advance 1 {}]).any fun s₂ ↦
        (s₂.trace = s.trace ++ [.notified 1 "✅ a：ok（第 1 次，耗时 不足 1 秒）"
          [⟨"r", "", "", none⟩]] : Bool)) (by decide +kernel)
  simp only [Bool.and_eq_true, List.contains_iff_mem, Option.any_eq_true,
    decide_eq_true_eq] at htest
  obtain ⟨⟨hkey, proc, hproc, hworks⟩, s₁, hstop, s₂, hrun, htrace⟩ := htest
  exact hall s s₁ s₂ ["a"] 0 "a" 1 proc _ hreach hstop hkey hproc hworks
    (Steps.of_runLabels lawful_of_calm hrun) htrace _ _ (List.mem_singleton_self _)

end System

end CodexQueueBot.Jobs
