import CodexQueueBot.Jobs.Activity
import CodexQueueBot.Jobs.Records
import CodexQueueBot.Jobs.Starts

/-!
# The record of a run in the hands of its worker

While a run is on, its record belongs to its one live worker. What other goroutines and calls do in
the meantime touches only the count of workers, the subscribers and, for a keepalive that waits, the
time of the next request (`step_job_of_current`, `step_keepalive_of_current`). A worker that has
just been created finds the record as the start of its run has left it (`step_job_of_newborn`,
`step_keepalive_of_newborn`). So what is said about a run and its record has to be shown for the
steps of the run's own worker only.
-/

set_option autoImplicit false
set_option relaxedAutoImplicit false

namespace CodexQueueBot.Jobs

open Lib

/-! ### What stops leave -/

/-- A queue job that is still running has not been stopped. -/
theorem Job.Stopped.eq_of_running {now : Time} {job job' : Job} (h : job.Stopped now job')
    (hrunning : job'.state = .running) : job' = job := by
  induction h with
  | kept => rfl
  | @again job' _ ih =>
    by_cases hstate : job'.state = .running
    · simp [Manager.stopJob, hstate] at hrunning
    · rw [Manager.stopJob, if_neg hstate] at hrunning
      exact absurd hrunning hstate

/-- A keepalive job that is still on has not been stopped. -/
theorem KeepaliveJob.Stopped.eq_of_on {now : Time} {keepalive keepalive' : KeepaliveJob}
    (h : keepalive.Stopped now keepalive') (hon : keepalive'.state ≠ .stopped) :
    keepalive' = keepalive := by
  induction h with
  | kept => rfl
  | @again keepalive' _ ih =>
    by_cases hstate : keepalive'.state ≠ .stopped
    · simp [Manager.stopKeepaliveJob, hstate] at hon
    · rw [Manager.stopKeepaliveJob, if_neg hstate] at hon
      exact absurd hon hstate

/-- A rescheduled keepalive job differs in the time of the next request and its channel only. -/
theorem KeepaliveJob.Rescheduled.cases {nextRequest : Time} {keepalive keepalive' : KeepaliveJob}
    (h : keepalive.Rescheduled nextRequest keepalive') :
    ∃ next scheduleChanged, keepalive' = { keepalive with nextRequest := next, scheduleChanged } ∧
      (next = keepalive.nextRequest ∨ next = nextRequest) := by
  induction h with
  | kept => exact ⟨_, _, rfl, Or.inl rfl⟩
  | again _ _ scheduleChanged ih =>
    obtain ⟨_, _, rfl, -⟩ := ih
    exact ⟨nextRequest, scheduleChanged, rfl, Or.inr rfl⟩

/-- A request leaves the number of its run. -/
theorem KeepaliveJob.runID_judged (keepalive : KeepaliveJob) (success : Bool) (error : String)
    (now nextRequest : Time) :
    (keepalive.judged success error now nextRequest).runID = keepalive.runID := by
  cases success <;> rfl

/-- A judged request leaves the drawn time of the next one. -/
theorem KeepaliveJob.nextRequest_judged (keepalive : KeepaliveJob) (success : Bool)
    (error : String) (now nextRequest : Time) :
    (keepalive.judged success error now nextRequest).nextRequest = nextRequest := by
  cases success <;> rfl

/-- A keepalive worker on its way to a request is alive. -/
theorem KeepaliveWorker.live_of_seeks {w : KeepaliveWorker} (h : w.pc.seeks = true) :
    w.view.live = true := by
  cases hpc : w.pc <;> simp [hpc, KeepalivePC.seeks, view] at h ⊢

/-! ### The run of a live worker -/

/-- What other goroutines leave alone of a running queue job. -/
def Job.Kept (job job' : Job) : Prop :=
  ∃ workers subscribers, job' = { job with workers, subscribers }

/-- What other goroutines and the step with a label leave alone of a keepalive job that is on. -/
def KeepaliveJob.Kept (label : Label) (key : String) (keepalive keepalive' : KeepaliveJob) :
    Prop :=
  ∃ workers nextRequest scheduleChanged,
    keepalive' = { keepalive with workers, nextRequest, scheduleChanged } ∧
      (nextRequest = keepalive.nextRequest ∨
        ∃ keepaliveMin keepaliveMax maxParallel successMessage now draw,
          label = .updateSettings keepaliveMin keepaliveMax maxParallel successMessage now draw ∧
            nextRequest = now + Manager.randomDuration keepaliveMin keepaliveMax (draw key))

namespace System

variable [Go.NetURL] {s s' : System} {label : Label} {i : Nat}

/-- A live queue worker has a job, whose run is not behind its own. -/
theorem job_of_live (h : s.Reachable) {w : QueueWorker} (hproc : s.procs[i]? = some (.queue w))
    (hlive : w.view.live = true) :
    ∃ job, s.manager.jobs.lookup w.key = some job ∧ w.runID ≤ job.runID := by
  obtain ⟨cell, hcell⟩ := h.valid.present i w.view (view_getElem? hproc) hlive
  obtain ⟨job, keepalive, arbiter, hjob, -⟩ := Manager.cell_eq_some.mp hcell
  have hnumbered := h.valid.numbered i w.view cell .queue (view_getElem? hproc) hlive hcell rfl
  rw [Manager.track_queue_of_cell hcell hjob] at hnumbered
  exact ⟨job, hjob, hnumbered⟩

/-- A live keepalive worker has a keepalive job, whose run is not behind its own. -/
theorem keepalive_of_live (h : s.Reachable) {w : KeepaliveWorker}
    (hproc : s.procs[i]? = some (.keepalive w)) (hlive : w.view.live = true) :
    ∃ keepalive, s.manager.keepalives.lookup w.key = some keepalive ∧
      w.runID ≤ keepalive.runID := by
  obtain ⟨cell, hcell⟩ := h.valid.present i w.view (view_getElem? hproc) hlive
  obtain ⟨job, keepalive, arbiter, -, hkeepalive, -⟩ := Manager.cell_eq_some.mp hcell
  have hnumbered :=
    h.valid.numbered i w.view cell .keepalive (view_getElem? hproc) hlive hcell rfl
  rw [Manager.track_keepalive_of_cell hcell hkeepalive] at hnumbered
  exact ⟨keepalive, hkeepalive, hnumbered⟩

/-- Two live queue workers of one run are the same. -/
theorem eq_of_queue (h : s.Reachable) {j : Nat} {w other : QueueWorker}
    (hproc : s.procs[i]? = some (.queue w)) (hother : s.procs[j]? = some (.queue other))
    (hlive : w.view.live = true) (hotherLive : other.view.live = true) (hkey : other.key = w.key)
    (hrun : other.runID = w.runID) : j = i :=
  h.valid.distinct j i other.view w.view (view_getElem? hother) (view_getElem? hproc) hotherLive
    hlive ⟨hkey, rfl, hrun⟩

/-- Two live keepalive workers of one run are the same. -/
theorem eq_of_keepalive (h : s.Reachable) {j : Nat} {w other : KeepaliveWorker}
    (hproc : s.procs[i]? = some (.keepalive w)) (hother : s.procs[j]? = some (.keepalive other))
    (hlive : w.view.live = true) (hotherLive : other.view.live = true) (hkey : other.key = w.key)
    (hrun : other.runID = w.runID) : j = i :=
  h.valid.distinct j i other.view w.view (view_getElem? hother) (view_getElem? hproc) hotherLive
    hlive ⟨hkey, rfl, hrun⟩

/-! ### Steps of others -/

/-- The job of a run that is on after a step of another goroutine was on before, and only its
subscribers and its count of workers have changed. -/
theorem step_job_of_current (h : s.Reachable) (hlawful : s.Lawful label)
    (hstep : s.step label = some s') {w : QueueWorker} (hproc : s.procs[i]? = some (.queue w))
    (hlive : w.view.live = true) (hstays : ∀ input, label ≠ .advance i input) {job' : Job}
    (hjob' : s'.manager.jobs.lookup w.key = some job') (hcurrent : job'.Current w.runID) :
    ∃ job, s.manager.jobs.lookup w.key = some job ∧ job.Current w.runID ∧ job.Kept job' := by
  obtain ⟨job, hjob, hnumbered⟩ := job_of_live h hproc hlive
  rcases step_job h hlawful hstep hjob' with ⟨first, hfirst, hchanges⟩ | ⟨hfree, -⟩
  · obtain rfl := Option.some.inj (hjob.symm.trans hfirst)
    refine ⟨job, hjob, ?_⟩
    cases hchanges with
    | kept => exact ⟨hcurrent, _, _, rfl⟩
    | wrote j other input job' hlabel hother hkey hwrites =>
      -- Only the worker of the run writes more than the count of workers.
      have hothers : other.view.live = true → other.runID ≠ w.runID := by
        intro hotherLive hrun
        exact hstays input (eq_of_queue h hproc hother hlive hotherLive hkey hrun ▸ hlabel)
      cases hwrites with
      | attempted hpc howns =>
        exact absurd (howns.1.symm.trans hcurrent.1) (hothers (by simp [QueueWorker.view, hpc]))
      | failed result hpc howns =>
        exact absurd (howns.1.symm.trans hcurrent.1) (hothers (by simp [QueueWorker.view, hpc]))
      | succeeded => cases hcurrent.2
      | cancelled => cases hcurrent.2
      | finished => exact ⟨hcurrent, _, _, rfl⟩
    | subscribed subscriber =>
      unfold Manager.addSubscriberLocked at hcurrent ⊢
      split_ifs at hcurrent ⊢
      · exact ⟨hcurrent, _, _, rfl⟩
      · exact ⟨hcurrent, _, _, rfl⟩
    | started subscriber context now hidle =>
      have hrun : job.runID + 1 = w.runID := hcurrent.1
      omega
    | stopped now job' hstopped =>
      obtain rfl := hstopped.eq_of_running hcurrent.2
      exact ⟨hcurrent, _, _, rfl⟩
  · rw [hjob] at hfree
    cases hfree

/-- The keepalive job of a run that is on after a step of another goroutine was on before, and only
its count of workers and the time of its next request have changed. -/
theorem step_keepalive_of_current (h : s.Reachable) (hlawful : s.Lawful label)
    (hstep : s.step label = some s') {w : KeepaliveWorker}
    (hproc : s.procs[i]? = some (.keepalive w)) (hlive : w.view.live = true)
    (hstays : ∀ input, label ≠ .advance i input) {keepalive' : KeepaliveJob}
    (hkeepalive' : s'.manager.keepalives.lookup w.key = some keepalive')
    (hcurrent : keepalive'.Current w.runID) :
    ∃ keepalive, s.manager.keepalives.lookup w.key = some keepalive ∧
      keepalive.Current w.runID ∧ keepalive.Kept label w.key keepalive' := by
  obtain ⟨keepalive, hkeepalive, hnumbered⟩ := keepalive_of_live h hproc hlive
  rcases step_keepalive h hlawful hstep hkeepalive' with ⟨first, hfirst, hchanges⟩ | ⟨hfree, -⟩
  · obtain rfl := Option.some.inj (hkeepalive.symm.trans hfirst)
    refine ⟨keepalive, hkeepalive, ?_⟩
    cases hchanges with
    | kept => exact ⟨hcurrent, _, _, _, rfl, Or.inl rfl⟩
    | wrote j other input keepalive' hlabel hother hkey hwrites =>
      have hothers : other.view.live = true → other.runID ≠ w.runID := by
        intro hotherLive hrun
        exact hstays input (eq_of_keepalive h hproc hother hlive hotherLive hkey hrun ▸ hlabel)
      cases hwrites with
      | watched state hseeks hstate howns =>
        exact absurd (howns.1.symm.trans hcurrent.1)
          (hothers (KeepaliveWorker.live_of_seeks hseeks))
      | requested hpc howns =>
        exact absurd (howns.1.symm.trans hcurrent.1)
          (hothers (by simp [KeepaliveWorker.view, hpc]))
      | judged result hpc howns =>
        have hrun : keepalive.runID = w.runID := by
          rw [← hcurrent.1]
          exact (KeepaliveJob.runID_judged ..).symm
        exact absurd (howns.1.symm.trans hrun) (hothers (by simp [KeepaliveWorker.view, hpc]))
      | cancelled => exact absurd rfl hcurrent.2
      | finished => exact ⟨hcurrent, _, _, _, rfl, Or.inl rfl⟩
    | started context now hidle =>
      have hrun : keepalive.runID + 1 = w.runID := hcurrent.1
      omega
    | stopped now keepalive' hstopped =>
      obtain rfl := hstopped.eq_of_on hcurrent.2
      exact ⟨hcurrent, _, _, _, rfl, Or.inl rfl⟩
    | rescheduled keepaliveMin keepaliveMax maxParallel successMessage now draw keepalive' hlabel
        hrescheduled =>
      obtain ⟨next, scheduleChanged, rfl, hnext⟩ := hrescheduled.cases
      exact ⟨hcurrent, _, next, _, rfl, hnext.imp_right fun heq ↦
        ⟨keepaliveMin, keepaliveMax, maxParallel, successMessage, now, draw, hlabel, heq⟩⟩
  · rw [hkeepalive] at hfree
    cases hfree

/-! ### New workers -/

/-- A run that was on before the step which creates a worker is not the worker's: it has one of its
own already. -/
theorem not_current_of_newborn (h : s.Reachable) (hlawful : s.Lawful label)
    (hstep : s.step label = some s') {self : Nat} {input : Input} {call : StartCall}
    (hlabel : label = .advance self input) (hself : s.procs[self]? = some (.start call))
    {proc : Proc} (hproc : s'.procs[i]? = some proc) (hnew : s.procs.length ≤ i)
    (hlive : proc.view.live = true) {mode : Mode} (hmode : proc.view.claimant = .mode mode)
    {cell : Cell Mode} (hcell : s.ledger.cells proc.view.key = some cell) :
    ¬ (cell.track mode).Current proc.view.runID := by
  rintro ⟨hon, howns⟩
  obtain ⟨j, worker, hworker, hotherLive, -, hkey, hclaimant, hrun, -⟩ :=
    h.valid.served _ cell mode hcell hon
  obtain ⟨other, hother, rfl⟩ := exists_proc_of_view hworker
  obtain ⟨other', hother', rfl | ⟨input', effect', heq, -⟩⟩ := step_getElem? hstep hother
  · have hsame := (h.step hlawful hstep).valid.distinct j i other'.view proc.view
      (view_getElem? hother') (view_getElem? hproc) hotherLive hlive
      ⟨hkey, hclaimant.trans hmode.symm, hrun.trans howns⟩
    have hlt := (List.getElem?_eq_some_iff.mp hother).1
    omega
  · subst hlabel
    cases heq
    obtain rfl := Option.some.inj (hself.symm.trans hother)
    cases hclaimant

/-- A new queue worker finds the job that the start of its run has left. -/
theorem step_job_of_newborn (h : s.Reachable) (hlawful : s.Lawful label)
    (hstep : s.step label = some s') {w : QueueWorker} (hproc : s'.procs[i]? = some (.queue w))
    (hnew : s.procs.length ≤ i) (hlive : w.view.live = true) {job' : Job}
    (hjob' : s'.manager.jobs.lookup w.key = some job') (hcurrent : job'.Current w.runID) :
    ∃ job subscriber context now, job' =
      { Manager.beginJob job subscriber context now with workers := job.workers + 1 } := by
  obtain ⟨-, self, input, call, effect, rfl, hself, -⟩ := step_newWorker hstep hproc rfl hnew
  have hbefore : ∀ job, s.manager.jobs.lookup w.key = some job → ¬ job.Current w.runID := by
    intro job hjob howns
    obtain ⟨cell, hcell⟩ := h.tabled.cell_of_job hjob
    refine not_current_of_newborn h hlawful hstep rfl hself hproc hnew hlive rfl hcell ?_
    rw [Manager.track_queue_of_cell hcell hjob]
    exact Job.track_current.mpr howns
  rcases step_job h hlawful hstep hjob' with
    ⟨job, hjob, hchanges⟩ | ⟨-, rfl | ⟨old, hidle, hold⟩⟩
  · cases hchanges with
    | kept => exact absurd hcurrent (hbefore job' hjob)
    | wrote j other input' job' hlabel hother =>
      cases hlabel
      cases hself.symm.trans hother
    | subscribed subscriber =>
      refine absurd ?_ (hbefore job hjob)
      unfold Manager.addSubscriberLocked at hcurrent
      split_ifs at hcurrent
      · exact hcurrent
      · exact hcurrent
    | started subscriber context now => exact ⟨job, subscriber, context, now, rfl⟩
    | stopped now job' hstopped =>
      obtain rfl := hstopped.eq_of_running hcurrent.2
      exact absurd hcurrent (hbefore _ hjob)
  · exact absurd hcurrent.2 (by nofun)
  · obtain ⟨found, _, _, hfound, -, -, hbusy⟩ := Manager.targetBusyLocked_cases hidle
    obtain rfl := Option.some.inj (hold.symm.trans hfound)
    exact absurd hcurrent.2 (Manager.busyRecords_eq_false.mp hbusy.symm).1

/-- A new keepalive worker finds the keepalive job that the start of its run has left. -/
theorem step_keepalive_of_newborn (h : s.Reachable) (hlawful : s.Lawful label)
    (hstep : s.step label = some s') {w : KeepaliveWorker}
    (hproc : s'.procs[i]? = some (.keepalive w)) (hnew : s.procs.length ≤ i)
    (hlive : w.view.live = true) {keepalive' : KeepaliveJob}
    (hkeepalive' : s'.manager.keepalives.lookup w.key = some keepalive')
    (hcurrent : keepalive'.Current w.runID) :
    ∃ keepalive context now, keepalive' =
      { Manager.beginKeepaliveJob keepalive context now with
        workers := keepalive.workers + 1 } := by
  obtain ⟨-, self, input, call, effect, rfl, hself, -⟩ := step_newWorker hstep hproc rfl hnew
  have hbefore : ∀ keepalive, s.manager.keepalives.lookup w.key = some keepalive →
      ¬ keepalive.Current w.runID := by
    intro keepalive hkeepalive howns
    obtain ⟨cell, hcell⟩ := h.tabled.cell_of_keepalive hkeepalive
    refine not_current_of_newborn h hlawful hstep rfl hself hproc hnew hlive rfl hcell ?_
    rw [Manager.track_keepalive_of_cell hcell hkeepalive]
    exact KeepaliveJob.track_current.mpr howns
  rcases step_keepalive h hlawful hstep hkeepalive' with
    ⟨keepalive, hkeepalive, hchanges⟩ | ⟨-, ⟨_, rfl⟩ | ⟨old, hidle, hold⟩⟩
  · cases hchanges with
    | kept => exact absurd hcurrent (hbefore keepalive' hkeepalive)
    | wrote j other input' keepalive' hlabel hother =>
      cases hlabel
      cases hself.symm.trans hother
    | started context now => exact ⟨keepalive, context, now, rfl⟩
    | stopped now keepalive' hstopped =>
      obtain rfl := hstopped.eq_of_on hcurrent.2
      exact absurd hcurrent (hbefore _ hkeepalive)
    | rescheduled _ _ _ _ _ _ _ hlabel => cases hlabel
  · exact absurd rfl hcurrent.2
  · obtain ⟨_, found, _, -, hfound, -, hbusy⟩ := Manager.targetBusyLocked_cases hidle
    obtain rfl := Option.some.inj (hold.symm.trans hfound)
    exact absurd (Manager.busyRecords_eq_false.mp hbusy.symm).2.2.1 hcurrent.2

end System

end CodexQueueBot.Jobs
