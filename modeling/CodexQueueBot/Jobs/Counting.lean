import CodexQueueBot.Jobs.Notification
import CodexQueueBot.Jobs.Tenure

/-!
# Attempts and requests are counted

The number of attempts that a running queue job shows is the number of runner calls that the worker
of its run has begun, and so is the number of requests that a keepalive job shows. The attempt that
a success message names is the number of runner calls of its run (`calls_counted`). The counters
live in the records, which other goroutines write and calls stop and reset, while the calls are
counted in the history.
-/

set_option autoImplicit false
set_option relaxedAutoImplicit false

namespace CodexQueueBot.Jobs

open Lib

variable {m : Manager} {self : Nat} {input : Input} {effect : Effect}

/-! ### Steps of workers -/

/-- A queue worker that has taken a step is alive, if it still is. -/
theorem QueueWorker.live_of_step [Go.NetURL] {w w' : QueueWorker}
    (h : w.step m self input = some effect) (hproc : effect.proc = .queue w')
    (hlive : w'.view.live = true) : w.view.live = true := by
  cases hpc : w.pc
  case workerDone =>
    simp only [QueueWorker.step, hpc] at h
    cases h
    cases hproc
    cases hlive
  case exited =>
    simp only [QueueWorker.step, hpc] at h
    cases h
  all_goals simp [view, hpc]

/-- A keepalive worker that has taken a step is alive, if it still is. -/
theorem KeepaliveWorker.live_of_step [Go.NetURL] {w w' : KeepaliveWorker}
    (h : w.step m self input = some effect) (hproc : effect.proc = .keepalive w')
    (hlive : w'.view.live = true) : w.view.live = true := by
  cases hpc : w.pc
  case workerDone =>
    simp only [KeepaliveWorker.step, hpc] at h
    cases h
    cases hproc
    cases hlive
  case exited =>
    simp only [KeepaliveWorker.step, hpc] at h
    cases h
  all_goals simp [view, hpc]

/-- What has become a keepalive worker was the same keepalive worker before. -/
theorem Proc.step_keepalive [Go.NetURL] {proc : Proc} {next : Nat} {w' : KeepaliveWorker}
    (h : proc.step m next self input = some effect) (heq : effect.proc = .keepalive w') :
    ∃ w pc, proc = .keepalive w ∧ w' = { w with pc } := by
  have hfollows := Proc.step_follows h
  rw [heq] at hfollows
  cases hfollows with
  | keepalive w pc => exact ⟨w, pc, rfl, rfl⟩

/-- The record of a written job is what was written. -/
theorem Manager.SameJobs.lookup_setJob {m' : Manager} {key : String} {new job' : Job}
    (h : (m.setJob key new).SameJobs m') (hjob' : m'.jobs.lookup key = some job') : job' = new := by
  rw [h.1, Manager.setJob, Table.lookup_insert_apply, if_pos rfl] at hjob'
  exact (Option.some.inj hjob').symm

/-- The record of a written keepalive job is what was written. -/
theorem Manager.SameJobs.lookup_setKeepalive {m' : Manager} {key : String}
    {new keepalive' : KeepaliveJob} (h : (m.setKeepalive key new).SameJobs m')
    (hkeepalive' : m'.keepalives.lookup key = some keepalive') : keepalive' = new := by
  rw [h.2, Manager.setKeepalive, Table.lookup_insert_apply, if_pos rfl] at hkeepalive'
  exact (Option.some.inj hkeepalive').symm

/-- A step of the worker of a run counts the runner call that it begins. -/
theorem QueueWorker.Takes.attempts {w : QueueWorker} (h : w.Takes m self input effect) {job' : Job}
    (hjob' : effect.manager.jobs.lookup w.key = some job') (hcurrent : job'.Current w.runID) :
    ∃ job, m.jobs.lookup w.key = some job ∧ job.Current w.runID ∧
      job'.attempts = job.attempts + effect.happenings.count (.began self) := by
  cases h with
  | passed m₁ pc hsame =>
    rw [hsame.1] at hjob'
    exact ⟨job', hjob', hcurrent, rfl⟩
  | began m₁ job hpc hjob howns hwrote =>
    obtain rfl := hwrote.lookup_setJob hjob'
    refine ⟨job, hjob, hcurrent, ?_⟩
    simp [Job.attempted]
  | returned | notified => exact ⟨job', hjob', hcurrent, by simp⟩
  | failed m₁ job result hpc hjob howns hwrote =>
    obtain rfl := hwrote.lookup_setJob hjob'
    exact ⟨job, hjob, hcurrent, rfl⟩
  | succeeded m₁ job attempt target hpc hjob howns hwrote =>
    obtain rfl := hwrote.lookup_setJob hjob'
    exact absurd hcurrent.2 (by nofun)
  | cancelled m₁ job holding hpc hjob howns hwrote =>
    obtain rfl := hwrote.lookup_setJob hjob'
    exact absurd hcurrent.2 (by nofun)
  | finished m₁ job hpc hjob hwrote =>
    obtain rfl := hwrote.lookup_setJob hjob'
    exact ⟨job, hjob, hcurrent, rfl⟩

/-- A step of the keepalive worker of a run counts the runner call that it begins. -/
theorem KeepaliveWorker.Takes.requests {w : KeepaliveWorker} (h : w.Takes m self input effect)
    {keepalive' : KeepaliveJob}
    (hkeepalive' : effect.manager.keepalives.lookup w.key = some keepalive')
    (hcurrent : keepalive'.Current w.runID) :
    ∃ keepalive, m.keepalives.lookup w.key = some keepalive ∧ keepalive.Current w.runID ∧
      keepalive'.requests = keepalive.requests + effect.happenings.count (.began self) := by
  cases h with
  | passed m₁ pc hsame =>
    rw [hsame.2] at hkeepalive'
    exact ⟨keepalive', hkeepalive', hcurrent, rfl⟩
  | returned | scheduled | due | fired => exact ⟨keepalive', hkeepalive', hcurrent, rfl⟩
  | watched m₁ keepalive state pc hkeepalive howns hstate hwrote =>
    obtain rfl := hwrote.lookup_setKeepalive hkeepalive'
    exact ⟨keepalive, hkeepalive, howns, rfl⟩
  | began m₁ keepalive hpc hkeepalive howns hwrote =>
    obtain rfl := hwrote.lookup_setKeepalive hkeepalive'
    refine ⟨keepalive, hkeepalive, howns, ?_⟩
    simp [KeepaliveJob.requested]
  | judged m₁ keepalive result hpc hkeepalive howns hwrote =>
    obtain rfl := hwrote.lookup_setKeepalive hkeepalive'
    refine ⟨keepalive, hkeepalive, howns, ?_⟩
    unfold KeepaliveJob.judged
    cases result.success <;> rfl
  | cancelled m₁ keepalive holding hpc hkeepalive howns hwrote =>
    obtain rfl := hwrote.lookup_setKeepalive hkeepalive'
    exact absurd rfl hcurrent.2
  | finished m₁ keepalive hpc hkeepalive hwrote =>
    obtain rfl := hwrote.lookup_setKeepalive hkeepalive'
    exact ⟨keepalive, hkeepalive, hcurrent, rfl⟩

/-- The attempt that a queue worker carries stays the number of its runner calls. -/
theorem QueueWorker.Takes.attempt {w w' : QueueWorker} (h : w.Takes m self input effect)
    (hproc : effect.proc = .queue w') {n : Nat}
    (hjob : ∀ job, m.jobs.lookup w.key = some job → job.Current w.runID → job.attempts = n)
    (hcarried : ∀ attempt, w.pc.attempt = some attempt → attempt = n) {attempt : Nat}
    (hattempt : w'.pc.attempt = some attempt) :
    attempt = n + effect.happenings.count (.began self) := by
  cases h with
  | passed m₁ pc hsame hresult hpassed =>
    cases hproc
    rcases hpassed with hnone | hcarries
    · cases hnone.symm.trans hattempt
    · exact hcarried attempt (hcarries.symm.trans hattempt)
  | began m₁ job hpc hlookup howns hwrote =>
    cases hproc
    cases hattempt
    simp [hjob job hlookup howns]
  | returned attempt' target hpc =>
    cases hproc
    cases hattempt
    exact hcarried attempt (by rw [hpc]; rfl)
  | succeeded m₁ job attempt' target hpc hlookup howns hwrote =>
    cases hproc
    cases hattempt
    simpa using hcarried attempt (by rw [hpc]; rfl)
  | failed | notified | cancelled | finished =>
    cases hproc
    cases hattempt

/-- A queue worker notifies of the attempt that it carries, and leaves. -/
theorem QueueWorker.Takes.notified_of_mem {w w' : QueueWorker} (h : w.Takes m self input effect)
    (hproc : effect.proc = .queue w') {i : Nat} {message : String} {subscribers : List Subscriber}
    (hmem : .notified i message subscribers ∈ effect.happenings) :
    w'.pc.leaving = true ∧ effect.happenings.count (.began self) = 0 ∧
      ∃ attempt target elapsed, w.pc.attempt = some attempt ∧
        message = m.notifySuccess target attempt elapsed := by
  cases h with
  | notified attempt target success hpc =>
    cases hproc
    obtain ⟨-, rfl, -⟩ := Happening.notified.inj (List.mem_singleton.mp hmem)
    exact ⟨rfl, by simp, attempt, target.name, success.elapsed, by rw [hpc]; rfl, rfl⟩
  | began | succeeded => cases List.mem_singleton.mp hmem
  | passed | returned | failed | cancelled | finished => cases hmem

/-- A worker that is leaving stays so, and begins no runner call. -/
theorem QueueWorker.leaving_of_step [Go.NetURL] {w w' : QueueWorker}
    (h : w.step m self input = some effect) (hproc : effect.proc = .queue w')
    (hleaving : w.pc.leaving = true) :
    w'.pc.leaving = true ∧ effect.happenings.count (.began self) = 0 := by
  obtain ⟨pc, heq, hrecords⟩ := QueueWorker.step_records h
  obtain rfl := Proc.queue.inj (heq.symm.trans hproc)
  generalize effect.happenings = happenings at hrecords ⊢
  cases hrecords with
  | nothing _ _ hstays => exact ⟨hstays hleaving, rfl⟩
  | began hpc =>
    rw [hpc] at hleaving
    cases hleaving
  | succeeded hpc =>
    rw [hpc] at hleaving
    cases hleaving
  | notified hbefore =>
    rw [QueuePC.success_of_leaving hleaving] at hbefore
    cases hbefore

namespace System

variable [Go.NetURL] {s s' : System} {label : Label} {i : Nat}

/-! ### Runner calls in the history -/

/-- The number of runner calls that a goroutine has begun. -/
def calls (s : System) (i : Nat) : Nat :=
  s.trace.count (.began i)

/-- A goroutine that does not move begins no runner call. -/
theorem step_calls (hstep : s.step label = some s') (hstays : ∀ input, label ≠ .advance i input) :
    s'.calls i = s.calls i := by
  obtain ⟨happenings, htrace, hactor⟩ := step_trace hstep
  have hnone : happenings.count (.began i) = 0 := by
    rw [List.count_eq_zero]
    intro hmem
    obtain ⟨input, heq⟩ := hactor _ hmem i rfl
    exact hstays input heq
  rw [calls, htrace, List.count_append, hnone]
  rfl

omit [Go.NetURL] in
/-- The runner calls that a goroutine has begun after a step of its own. -/
theorem calls_apply (s : System) (i : Nat) (effect : Effect) :
    (s.apply i effect).calls i = s.calls i + effect.happenings.count (.began i) :=
  List.count_append

/-- The counters of the records and those that workers carry are the numbers of runner calls. -/
structure Counted (s : System) : Prop where
  unborn : ∀ i, s.procs.length ≤ i → s.calls i = 0
  queue : ∀ (i : Nat) (w : QueueWorker) (job : Job), s.procs[i]? = some (.queue w) →
    w.view.live = true → s.manager.jobs.lookup w.key = some job → job.Current w.runID →
    job.attempts = s.calls i
  keepalive : ∀ (i : Nat) (w : KeepaliveWorker) (keepalive : KeepaliveJob),
    s.procs[i]? = some (.keepalive w) → w.view.live = true →
    s.manager.keepalives.lookup w.key = some keepalive → keepalive.Current w.runID →
    keepalive.requests = s.calls i
  carried : ∀ (i : Nat) (w : QueueWorker) (attempt : Nat), s.procs[i]? = some (.queue w) →
    w.pc.attempt = some attempt → attempt = s.calls i
  notified : ∀ (i : Nat) (message : String) (subscribers : List Subscriber),
    .notified i message subscribers ∈ s.trace →
    (∃ w, s.procs[i]? = some (.queue w) ∧ w.pc.leaving = true) ∧
      ∃ (m : Manager) (target : String) (elapsed : Duration),
        message = m.notifySuccess target (s.calls i) elapsed

omit [Go.NetURL] in
/-- A new system has counted nothing. -/
theorem counted_init (settings : Manager.Settings) (targets : List Target) :
    (init settings targets).Counted where
  unborn _ _ := rfl
  queue _ _ _ hproc := by cases hproc
  keepalive _ _ _ hproc := by cases hproc
  carried _ _ _ hproc := by cases hproc
  notified _ _ _ hmem := by cases hmem

/-! ### Steps -/

/-- A goroutine that does not exist yet does not move. -/
theorem ne_advance_of_new (hstep : s.step label = some s') (hnew : s.procs.length ≤ i)
    (input : Input) : label ≠ .advance i input := by
  rintro rfl
  obtain ⟨proc, effect, hproc, -⟩ := step_advance hstep
  rw [List.getElem?_eq_none hnew] at hproc
  cases hproc

omit [Go.NetURL] in
/-- A goroutine after a step of its own. -/
theorem getElem?_apply {proc : Proc} (hproc : s.procs[i]? = some proc) (effect : Effect) :
    (s.apply i effect).procs[i]? = some effect.proc := by
  have hlt := (List.getElem?_eq_some_iff.mp hproc).1
  rw [show (s.apply i effect).procs = s.procs.set i effect.proc ++ effect.spawned from rfl,
    List.getElem?_append_left (by rwa [List.length_set]), List.getElem?_set_self hlt]

/-- The attempts of a running queue job are counted after a step. -/
theorem Counted.step_queue (h : s.Counted) (hreach : s.Reachable) (hlawful : s.Lawful label)
    (hstep : s.step label = some s') {w' : QueueWorker} {job' : Job}
    (hproc' : s'.procs[i]? = some (.queue w')) (hlive : w'.view.live = true)
    (hjob' : s'.manager.jobs.lookup w'.key = some job') (hcurrent : job'.Current w'.runID) :
    job'.attempts = s'.calls i := by
  rcases step_proc_cases hstep hproc' with
    ⟨input, proc, effect, rfl, hproc, heffect, rfl, heq⟩ | ⟨hproc, hstays⟩ | ⟨hnew, -⟩
  · obtain ⟨w, pc, rfl, rfl⟩ := Proc.step_queue heffect heq
    obtain ⟨job, hjob, howns, hattempts⟩ :=
      (QueueWorker.step_takes heffect).attempts hjob' hcurrent
    have hbefore := QueueWorker.live_of_step heffect heq hlive
    rw [calls_apply, hattempts, h.queue i w job hproc hbefore hjob howns]
  · obtain ⟨job, hjob, howns, _, _, rfl⟩ :=
      step_job_of_current hreach hlawful hstep hproc hlive hstays hjob' hcurrent
    rw [step_calls hstep hstays]
    exact h.queue i w' job hproc hlive hjob howns
  · obtain ⟨job, subscriber, context, now, rfl⟩ :=
      step_job_of_newborn hreach hlawful hstep hproc' hnew hlive hjob' hcurrent
    rw [step_calls hstep (ne_advance_of_new hstep hnew), h.unborn i hnew]
    rfl

/-- The requests of a keepalive job that is on are counted after a step. -/
theorem Counted.step_keepalive (h : s.Counted) (hreach : s.Reachable) (hlawful : s.Lawful label)
    (hstep : s.step label = some s') {w' : KeepaliveWorker} {keepalive' : KeepaliveJob}
    (hproc' : s'.procs[i]? = some (.keepalive w')) (hlive : w'.view.live = true)
    (hkeepalive' : s'.manager.keepalives.lookup w'.key = some keepalive')
    (hcurrent : keepalive'.Current w'.runID) : keepalive'.requests = s'.calls i := by
  rcases step_proc_cases hstep hproc' with
    ⟨input, proc, effect, rfl, hproc, heffect, rfl, heq⟩ | ⟨hproc, hstays⟩ | ⟨hnew, -⟩
  · obtain ⟨w, pc, rfl, rfl⟩ := Proc.step_keepalive heffect heq
    obtain ⟨keepalive, hkeepalive, howns, hrequests⟩ :=
      (KeepaliveWorker.step_takes heffect).requests hkeepalive' hcurrent
    have hbefore := KeepaliveWorker.live_of_step heffect heq hlive
    rw [calls_apply, hrequests, h.keepalive i w keepalive hproc hbefore hkeepalive howns]
  · obtain ⟨keepalive, hkeepalive, howns, _, _, _, rfl, -⟩ :=
      step_keepalive_of_current hreach hlawful hstep hproc hlive hstays hkeepalive' hcurrent
    rw [step_calls hstep hstays]
    exact h.keepalive i w' keepalive hproc hlive hkeepalive howns
  · obtain ⟨keepalive, context, now, rfl⟩ :=
      step_keepalive_of_newborn hreach hlawful hstep hproc' hnew hlive hkeepalive' hcurrent
    rw [step_calls hstep (ne_advance_of_new hstep hnew), h.unborn i hnew]
    rfl

/-- The attempt that a queue worker carries is counted after a step. -/
theorem Counted.step_carried (h : s.Counted) (hstep : s.step label = some s') {w' : QueueWorker}
    {attempt : Nat} (hproc' : s'.procs[i]? = some (.queue w'))
    (hattempt : w'.pc.attempt = some attempt) : attempt = s'.calls i := by
  rcases step_proc_cases hstep hproc' with
    ⟨input, proc, effect, rfl, hproc, heffect, rfl, heq⟩ | ⟨hproc, hstays⟩ | ⟨-, hnewborn⟩
  · obtain ⟨w, pc, rfl, rfl⟩ := Proc.step_queue heffect heq
    have hbefore : w.view.live = true := by
      refine QueueWorker.live_of_step heffect heq ?_
      cases pc <;> first | rfl | cases hattempt
    rw [calls_apply]
    exact (QueueWorker.step_takes heffect).attempt heq
      (fun job hjob ↦ h.queue i w job hproc hbefore hjob)
      (fun attempt ↦ h.carried i w attempt hproc) hattempt
  · rw [step_calls hstep hstays]
    exact h.carried i w' attempt hproc hattempt
  · replace hnewborn : w'.pc = .acquireTarget := hnewborn
    rw [hnewborn] at hattempt
    cases hattempt

/-- The attempt that a message names is counted after a step. -/
theorem Counted.step_notified (h : s.Counted) (hstep : s.step label = some s') {message : String}
    {subscribers : List Subscriber} (hmem : .notified i message subscribers ∈ s'.trace) :
    (∃ w, s'.procs[i]? = some (.queue w) ∧ w.pc.leaving = true) ∧
      ∃ (m : Manager) (target : String) (elapsed : Duration),
        message = m.notifySuccess target (s'.calls i) elapsed := by
  obtain ⟨happenings, htrace, hactor⟩ := step_trace hstep
  rw [htrace, List.mem_append] at hmem
  rcases hmem with hold | hnew
  · obtain ⟨⟨w, hproc, hleaving⟩, htold⟩ := h.notified i message subscribers hold
    obtain ⟨proc', hproc', -⟩ := step_getElem? hstep hproc
    rcases step_proc_cases hstep hproc' with
      ⟨input, proc, effect, rfl, hmoved, heffect, rfl, heq⟩ | ⟨hsame, hstays⟩ | ⟨hlength, -⟩
    · obtain rfl := Option.some.inj (hproc.symm.trans hmoved)
      obtain ⟨pc, hqueue, -⟩ := QueueWorker.step_proc heffect
      obtain ⟨hstill, hnone⟩ := QueueWorker.leaving_of_step heffect hqueue hleaving
      refine ⟨⟨_, hproc'.trans (congrArg some (heq.symm.trans hqueue)), hstill⟩, ?_⟩
      rw [calls_apply, hnone]
      exact htold
    · rw [step_calls hstep hstays]
      exact ⟨⟨w, hproc'.trans (hsame.symm.trans hproc), hleaving⟩, htold⟩
    · rw [List.getElem?_eq_none hlength] at hproc
      cases hproc
  · obtain ⟨input, rfl⟩ := hactor _ hnew i rfl
    obtain ⟨proc, effect, hproc, heffect, rfl⟩ := step_advance hstep
    obtain rfl : effect.happenings = happenings := List.append_cancel_left htrace
    obtain ⟨w, rfl⟩ := Proc.step_milestone heffect hnew (decide_eq_true rfl) rfl
    obtain ⟨pc, hqueue, -⟩ := QueueWorker.step_proc heffect
    obtain ⟨hleaving, hnone, attempt, target, elapsed, hattempt, rfl⟩ :=
      (QueueWorker.step_takes heffect).notified_of_mem hqueue hnew
    refine ⟨⟨_, (getElem?_apply hproc effect).trans (congrArg some hqueue), hleaving⟩, s.manager,
      target, elapsed, ?_⟩
    rw [calls_apply, hnone, h.carried i w attempt hproc hattempt]
    rfl

/-- A step counts the runner call that it begins. -/
theorem Counted.step (h : s.Counted) (hreach : s.Reachable) (hlawful : s.Lawful label)
    (hstep : s.step label = some s') : s'.Counted where
  unborn i hnew := by
    have hbefore := (length_le_of_step hstep).trans hnew
    rw [step_calls hstep (ne_advance_of_new hstep hbefore)]
    exact h.unborn i hbefore
  queue _ _ _ := h.step_queue hreach hlawful hstep
  keepalive _ _ _ := h.step_keepalive hreach hlawful hstep
  carried _ _ _ := h.step_carried hstep
  notified _ _ _ := h.step_notified hstep

/-! ### Runs -/

/-- Everything is counted in every reachable state. -/
theorem counted_of_reachable (h : s.Reachable) : s.Counted :=
  h.induct (P := Counted) (fun settings targets _ ↦ counted_init settings targets)
    fun _ _ _ hreach hcounted hlawful hstep ↦ hcounted.step hreach hlawful hstep

/-- Every runner call is counted, in every reachable state: a running queue job shows as attempts,
and a keepalive job that is on as requests, how many runner calls the one live worker of its run has
begun, and the attempt that a success message names is the number of all runner calls of its
worker. -/
theorem calls_counted (h : s.Reachable) :
    (∀ key job, s.manager.jobs.lookup key = some job → job.state = .running →
      ∃ (i : Nat) (w : QueueWorker), s.procs[i]? = some (.queue w) ∧ w.view.live = true ∧
        w.key = key ∧ w.runID = job.runID ∧ job.attempts = s.calls i) ∧
    (∀ key keepalive, s.manager.keepalives.lookup key = some keepalive →
      keepalive.state ≠ .stopped →
      ∃ (i : Nat) (w : KeepaliveWorker), s.procs[i]? = some (.keepalive w) ∧
        w.view.live = true ∧ w.key = key ∧ w.runID = keepalive.runID ∧
        keepalive.requests = s.calls i) ∧
    ∀ (i : Nat) (message : String) (subscribers : List Subscriber),
      .notified i message subscribers ∈ s.trace →
      ∃ (m : Manager) (target : String) (elapsed : Duration),
        message = m.notifySuccess target (s.calls i) elapsed := by
  have hcounted := counted_of_reachable h
  refine ⟨?_, ?_, fun i message subscribers hmem ↦ (hcounted.notified i _ _ hmem).2⟩
  · intro key job hjob hstate
    obtain ⟨cell, hcell⟩ := h.tabled.cell_of_job hjob
    have htrack := Manager.track_queue_of_cell hcell hjob
    have hon : (cell.track .queue).on = true := by
      rw [htrack]
      exact decide_eq_true hstate
    obtain ⟨i, worker, hworker, hlive, -, rfl, hclaimant, hrun, -⟩ :=
      h.valid.served key cell .queue hcell hon
    obtain ⟨proc, hproc, rfl⟩ := exists_proc_of_view hworker
    rw [htrack] at hrun
    cases proc with
    | queue w =>
      exact ⟨i, w, hproc, hlive, rfl, hrun,
        hcounted.queue i w job hproc hlive hjob ⟨hrun.symm, hstate⟩⟩
    | keepalive | adhoc | start | edit | wait => cases hclaimant
  · intro key keepalive hkeepalive hstate
    obtain ⟨cell, hcell⟩ := h.tabled.cell_of_keepalive hkeepalive
    have htrack := Manager.track_keepalive_of_cell hcell hkeepalive
    have hon : (cell.track .keepalive).on = true := by
      rw [htrack]
      exact decide_eq_true hstate
    obtain ⟨i, worker, hworker, hlive, -, rfl, hclaimant, hrun, -⟩ :=
      h.valid.served key cell .keepalive hcell hon
    obtain ⟨proc, hproc, rfl⟩ := exists_proc_of_view hworker
    rw [htrack] at hrun
    cases proc with
    | keepalive w =>
      exact ⟨i, w, hproc, hlive, rfl, hrun,
        hcounted.keepalive i w keepalive hproc hlive hkeepalive ⟨hrun.symm, hstate⟩⟩
    | queue | adhoc | start | edit | wait => cases hclaimant

omit [Go.NetURL] in
/-- The labels by which the first attempt on `a` fails and the second one is begun. -/
def secondAttempt : List Label :=
  queueAttempt ++ [.advance 1 {}, .advance 1 {}, .advance 1 {}, .advance 1 {}, .advance 1 {},
    .advance 1 {}, .advance 1 {}]

omit [Go.NetURL] in
/-- After a failure the second attempt of a queue run on `a` is counted. -/
theorem calls_counted_secondAttempt :
    ∃ (s : System) (job : Job) (i : Nat), @Reachable Go.NetURL.emptyOnly s ∧
      s.manager.jobs.lookup "a" = some job ∧ job.attempts = 2 ∧ s.calls i = 2 := by
  let _ := Go.NetURL.emptyOnly
  obtain ⟨s, hreach, htest⟩ := exists_of_sample secondAttempt
    (fun s ↦ (s.manager.jobs.lookup "a").any fun job : Job ↦
      decide (job.state = .running) && decide (job.attempts = 2)) (by decide +kernel)
  simp only [Option.any_eq_true, Bool.and_eq_true, decide_eq_true_eq] at htest
  obtain ⟨job, hjob, hstate, hattempts⟩ := htest
  obtain ⟨i, w, -, -, -, -, hcounted⟩ := (calls_counted hreach).1 "a" job hjob hstate
  exact ⟨s, job, i, hreach, hjob, hattempts, hcounted.symm.trans hattempts⟩

end System

end CodexQueueBot.Jobs
