import CodexQueueBot.Jobs.Exclusion
import CodexQueueBot.Jobs.Activity
import CodexQueueBot.Jobs.History
import CodexQueueBot.Jobs.WaitGroup
import CodexQueueBot.Lib.LedgerFence

/-!
# Shutdown

`BeginShutdown` closes the gate for new workers and ad-hoc requests and cancels the contexts of
those that are there. It does not touch the runs themselves, so that a worker between two of its
sections may still begin one more runner call. From then on it is on its way out: its context is
done, and where the loop of a worker would go on after a call, it asks for its context first. `Wait`
returns when the last goroutine is through, and then nothing of the manager is in use any more.
-/

set_option autoImplicit false
set_option relaxedAutoImplicit false

namespace CodexQueueBot.Jobs

open Lib

namespace System

variable [Go.NetURL] {s s' : System} {label : Label}

/-! ### Cancelled contexts -/

/-- The contexts of all workers that have not given up their runs are done. -/
def Doomed (s : System) : Prop :=
  ∀ (i : Nat) (proc : Proc), s.procs[i]? = some proc → proc.view.active = true →
    s.manager.contextDone proc.view.token = true

omit [Go.NetURL] in
/-- The context of a run is among those that `BeginShutdown` cancels. -/
theorem mem_activeCancels_of_job {m : Manager} {key : String} {job : Job} {context : Nat}
    (hjob : m.jobs.lookup key = some job) (hcancel : job.cancel = some context) :
    context ∈ m.activeCancels := by
  refine List.mem_append_left _ (List.mem_append_left _ (List.mem_filterMap.mpr ⟨job, ?_, hcancel⟩))
  exact List.mem_map_of_mem (AList.mem_lookup_iff.mp hjob)

omit [Go.NetURL] in
/-- The context of a keepalive run is among those that `BeginShutdown` cancels. -/
theorem mem_activeCancels_of_keepalive {m : Manager} {key : String} {keepalive : KeepaliveJob}
    {context : Nat} (hkeepalive : m.keepalives.lookup key = some keepalive)
    (hcancel : keepalive.cancel = some context) : context ∈ m.activeCancels := by
  refine List.mem_append_left _ (List.mem_append_right _
    (List.mem_filterMap.mpr ⟨keepalive, ?_, hcancel⟩))
  exact List.mem_map_of_mem (AList.mem_lookup_iff.mp hkeepalive)

/-- `BeginShutdown` reaches every worker that has not given up its run. -/
theorem doomed_of_beginShutdown (h : s.Reachable) (hdown : s.manager.shuttingDown = false) :
    (s.withManager s.manager.beginShutdown).Doomed := by
  intro i proc hproc hactive
  have hworker : s.ledger.workers[i]? = some proc.view := view_getElem? hproc
  have hlive := h.valid.alive i _ hworker (Or.inl hactive)
  obtain ⟨cell, hcell⟩ := h.valid.present i _ hworker hlive
  obtain ⟨job, keepalive, arbiter, hjob, hkeepalive, -, rfl⟩ := Manager.cell_eq_some.mp hcell
  have hcancels : ∀ context, context ∈ s.manager.activeCancels ∨
      s.manager.contextDone context = true →
      (s.withManager s.manager.beginShutdown).manager.contextDone context = true := by
    intro context hcontext
    show s.manager.beginShutdown.contextDone context = true
    rw [Manager.beginShutdown, if_neg (by simp [hdown])]
    simp only [Manager.contextDone, Bool.or_eq_true, List.contains_iff_mem,
      List.mem_append] at hcontext ⊢
    tauto
  refine hcancels _ ?_
  cases proc with
  | queue w =>
    rcases h.valid.stale i _ _ .queue hworker hactive hcell rfl with hcurrent | hcancelled
    · obtain ⟨-, htoken⟩ := h.valid.token_of_current hworker hlive hcell rfl hcurrent
      exact Or.inl (mem_activeCancels_of_job hjob htoken)
    · exact Or.inr hcancelled
  | keepalive w =>
    rcases h.valid.stale i _ _ .keepalive hworker hactive hcell rfl with hcurrent | hcancelled
    · obtain ⟨-, htoken⟩ := h.valid.token_of_current hworker hlive hcell rfl hcurrent
      exact Or.inl (mem_activeCancels_of_keepalive hkeepalive htoken)
    · exact Or.inr hcancelled
  | adhoc call | start call | edit call | wait call => cases hactive

/-- A run does not end a shutdown. -/
theorem shuttingDown_of_steps (hdown : s.manager.shuttingDown = true)
    (hrun : Steps step Lawful s s') : s'.manager.shuttingDown = true :=
  hrun.invariant (P := fun s ↦ s.manager.shuttingDown = true)
    (fun _ _ _ hs _ hstep ↦ (step_gated hstep).shuttingDown hs) hdown

/-- While the manager is shutting down, the contexts of all workers that have not given up their
runs are done. -/
theorem Reachable.doomed (h : s.Reachable) (hdown : s.manager.shuttingDown = true) :
    s.Doomed := by
  refine h.induct (P := fun s ↦ s.manager.shuttingDown = true → s.Doomed) ?_ ?_ hdown
  · intro settings targets _ _ i proc hproc
    cases hproc
  · intro s s' label hreach hs hlawful hstep hdown'
    have hgated := step_gated hstep
    by_cases hbefore : s.manager.shuttingDown = true
    · intro i proc hproc hactive
      have hacts := @step_acts _ false _ _ _ hreach.tabled hreach.valid hlawful
        (fun heq ↦ by cases heq) hstep
      rcases Act.active_cases_of_reflTransGen hacts (view_getElem? hproc) hactive with
        ⟨worker, hworker, hstill, htoken⟩ | hnew
      · obtain ⟨old, hold, rfl⟩ := exists_proc_of_view hworker
        rw [← htoken]
        exact Act.cancelled_subset_of_reflTransGen hacts (hs hbefore i old hold hstill)
      · have hlive := (hreach.step hlawful hstep).valid.alive i _ (view_getElem? hproc)
          (Or.inl hactive)
        have hlength : s.procs.length ≤ i := by simpa [ledger, Manager.ledger] using hnew
        have hpending := hgated.closed hbefore hlength hproc
        rw [Proc.pending_of_live hlive] at hpending
        cases hpending
    · rw [Bool.not_eq_true] at hbefore
      cases hgated with
      | keeps hgate =>
        rw [show s'.manager.shuttingDown = _ from congrArg Prod.snd hgate] at hdown'
        exact absurd hdown' (by simp [Manager.gate, hbefore])
      | leaves hgate =>
        rw [show s'.manager.shuttingDown = _ from congrArg Prod.snd hgate] at hdown'
        exact absurd hdown' (by simp [hbefore])
      | enters _ hgate =>
        rw [show s'.manager.shuttingDown = _ from congrArg Prod.snd hgate] at hdown'
        cases hdown'
      | shuts _ hprocs hmanager =>
        intro i proc hproc hactive
        rw [hmanager]
        exact doomed_of_beginShutdown hreach hbefore i proc (hprocs ▸ hproc) hactive

end System

/-! ### The way out -/

/-- A worker that is on its way out: its last runner call is in flight or over, or it has given
up. -/
def Proc.exiting : Proc → Bool
  | .queue w =>
    match w.pc with
    | .running _ _ | .finishProcess _ _ _ | .markSuccess _ _ | .notifySuccess _ _ _
    | .checkContext _ | .markCancelled _ | .finishWorker | .workerDone | .exited => true
    | _ => false
  | .keepalive w =>
    match w.pc with
    | .running _ _ | .finishProcess _ | .checkContext _ | .markCancelled _ | .finishWorker
    | .workerDone | .exited => true
    | _ => false
  | .adhoc _ | .start _ | .edit _ | .wait _ => false

section

variable [Go.NetURL] {m : Manager} {next self : Nat} {input : Input} {effect : Effect}

/-- How a step goes towards the exit: a worker on its way out stays on it and begins no runner call,
and a worker that begins one is on its way out. -/
def Exits (self : Nat) (exiting : Bool) (effect : Effect) : Prop :=
  (effect.happenings.count (.began self) = 0 ∧
      (exiting = true → effect.proc.exiting = true)) ∨
    (exiting = false ∧ effect.happenings.count (.began self) = 1 ∧ effect.proc.exiting = true)

omit [Go.NetURL] in
/-- A step in the loop that begins no runner call. -/
theorem Exits.of_loop {exiting : Bool} (hloop : exiting = false)
    (hcount : effect.happenings.count (.began self) = 0) : Exits self exiting effect := by
  refine Or.inl ⟨hcount, fun hexiting ↦ ?_⟩
  rw [hloop] at hexiting
  cases hexiting

omit [Go.NetURL] in
/-- A step to the way out that begins no runner call. -/
theorem Exits.of_out {exiting : Bool} (hout : effect.proc.exiting = true)
    (hcount : effect.happenings.count (.began self) = 0) : Exits self exiting effect :=
  Or.inl ⟨hcount, fun _ ↦ hout⟩

/-- A queue worker whose context is done begins at most one runner call. -/
theorem QueueWorker.step_exits {w : QueueWorker}
    (hdone : w.view.active = true → m.contextDone w.context = true)
    (h : w.step m self input = some effect) : Exits self (Proc.queue w).exiting effect := by
  unfold QueueWorker.step at h
  cases hpc : w.pc <;>
    simp only [hpc, Option.bind_eq_bind, Option.bind_eq_some_iff, Prod.exists] at h
  case acquireTarget =>
    obtain ⟨m₁, outcome, -, h⟩ := h
    cases outcome <;> cases h <;> exact .of_loop (by simp [Proc.exiting, hpc]) rfl
  case acquire =>
    split at h <;> cases h <;> exact .of_loop (by simp [Proc.exiting, hpc]) rfl
  case beginAttempt =>
    obtain ⟨m₁, _ | ⟨attempt, target⟩, -, h⟩ := h <;> cases h
    · exact .of_loop (by simp [Proc.exiting, hpc]) rfl
    · exact Or.inr ⟨by simp [Proc.exiting, hpc], List.count_singleton_self, rfl⟩
  case awaitTarget | awaitSlot | releaseTarget =>
    obtain ⟨_, -, h⟩ := h
    cases h
    exact .of_loop (by simp [Proc.exiting, hpc]) rfl
  case markFailure =>
    obtain ⟨m₁, valid, -, h⟩ := h
    cases h
    exact .of_loop (by simp [Proc.exiting, hpc]) rfl
  case releaseSlot =>
    cases h
    exact .of_loop (by simp [Proc.exiting, hpc]) rfl
  case finishProcess =>
    obtain ⟨m₁, -, h⟩ := h
    cases h
    refine .of_out ?_ rfl
    simp only [Proc.exiting]
    split_ifs <;> rfl
  case markSuccess =>
    obtain ⟨m₁, _ | success, -, h⟩ := h <;> cases h
    · exact .of_out rfl rfl
    · exact .of_out rfl (by simp)
  case checkContext =>
    cases h
    rw [if_pos (hdone (by simp [view, hpc]))]
    exact .of_out rfl rfl
  case markCancelled | finishWorker =>
    obtain ⟨m₁, -, h⟩ := h
    cases h
    exact .of_out rfl rfl
  case notifySuccess =>
    cases h
    exact .of_out rfl (by simp)
  case running | workerDone =>
    cases h
    exact .of_out rfl rfl
  case exited => cases h

/-- A keepalive worker whose context is done begins at most one runner call. -/
theorem KeepaliveWorker.step_exits {w : KeepaliveWorker}
    (hdone : w.view.active = true → m.contextDone w.context = true)
    (h : w.step m self input = some effect) : Exits self (Proc.keepalive w).exiting effect := by
  unfold KeepaliveWorker.step at h
  cases hpc : w.pc <;>
    simp only [hpc, Option.bind_eq_bind, Option.bind_eq_some_iff, Prod.exists] at h
  case beginRequest =>
    obtain ⟨m₁, outcome, -, h⟩ := h
    cases outcome <;> cases h <;> exact .of_loop (by simp [Proc.exiting, hpc]) rfl
  case acquire | waitNext =>
    split at h <;> cases h <;> exact .of_loop (by simp [Proc.exiting, hpc]) rfl
  case confirmRequest =>
    obtain ⟨m₁, outcome, -, h⟩ := h
    cases outcome <;> cases h
    case begun => exact Or.inr ⟨by simp [Proc.exiting, hpc], List.count_singleton_self, rfl⟩
    all_goals exact .of_loop (by simp [Proc.exiting, hpc]) rfl
  case releaseSlot changed =>
    cases changed <;> cases h <;> exact .of_loop (by simp [Proc.exiting, hpc]) rfl
  case awaitNext =>
    split_ifs at h
    · cases h
      exact .of_loop (by simp [Proc.exiting, hpc]) rfl
    · rw [Option.bind_eq_some_iff] at h
      obtain ⟨_, -, h⟩ := h
      cases h
      exact .of_loop (by simp [Proc.exiting, hpc]) rfl
  case awaitTarget | awaitSlot =>
    obtain ⟨_, -, h⟩ := h
    cases h
    exact .of_loop (by simp [Proc.exiting, hpc]) rfl
  case finishRequest =>
    obtain ⟨m₁, valid, -, h⟩ := h
    cases h
    exact .of_loop (by simp [Proc.exiting, hpc]) rfl
  case checkContext =>
    cases h
    rw [if_pos (hdone (by simp [view, hpc]))]
    exact .of_out rfl rfl
  case finishProcess | markCancelled | finishWorker =>
    obtain ⟨m₁, -, h⟩ := h
    cases h
    exact .of_out rfl rfl
  case running | workerDone =>
    cases h
    exact .of_out rfl rfl
  case exited => cases h

/-- A worker whose context is done begins at most one runner call. -/
theorem Proc.step_exits {proc : Proc} (hworker : proc.isWorker = true)
    (hdone : proc.view.active = true → m.contextDone proc.view.token = true)
    (h : proc.step m next self input = some effect) :
    effect.proc.isWorker = true ∧ Exits self proc.exiting effect := by
  cases proc with
  | queue w =>
    obtain ⟨pc, hproc, -⟩ := QueueWorker.step_proc h
    exact ⟨by rw [hproc]; rfl, QueueWorker.step_exits hdone h⟩
  | keepalive w =>
    obtain ⟨pc, hproc, -⟩ := KeepaliveWorker.step_proc h
    exact ⟨by rw [hproc]; rfl, KeepaliveWorker.step_exits hdone h⟩
  | adhoc call | start call | edit call | wait call => cases hworker

end

namespace System

variable [Go.NetURL] {s s' : System} {label : Label}

/-- While the manager is shutting down, the steps of a run begin at most one runner call of each
worker, which is then on its way out. -/
theorem began_of_steps (h : s.Reachable) (hdown : s.manager.shuttingDown = true) {i : Nat}
    {proc : Proc} (hproc : s.procs[i]? = some proc) (hworker : proc.isWorker = true)
    (hrun : Steps step Lawful s s') :
    ∃ proc' happenings, s'.procs[i]? = some proc' ∧ proc'.isWorker = true ∧
      s'.trace = s.trace ++ happenings ∧ (happenings.count (.began i) = 0 ∨
        (happenings.count (.began i) = 1 ∧ proc'.exiting = true)) := by
  induction hrun with
  | refl => exact ⟨proc, [], hproc, hworker, (List.append_nil _).symm, Or.inl rfl⟩
  | @tail s₁ s₂ label hrun hlawful hstep ih =>
    obtain ⟨proc₁, happenings, hproc₁, hworker₁, htrace, hcount⟩ := ih
    have hreach := h.steps hrun
    have hdown₁ := shuttingDown_of_steps hdown hrun
    by_cases hown : ∃ input, label = .advance i input
    · obtain ⟨input, rfl⟩ := hown
      obtain ⟨mover, effect, hmover, heffect, rfl⟩ := step_advance hstep
      obtain rfl := Option.some.inj (hmover.symm.trans hproc₁)
      obtain ⟨hworker₂, hexits⟩ := Proc.step_exits hworker₁ (hreach.doomed hdown₁ i _ hmover)
        heffect
      have hlt : i < s₁.procs.length := (List.getElem?_eq_some_iff.mp hmover).1
      have hmoved : (s₁.apply i effect).procs[i]? = some effect.proc := by
        rw [show (s₁.apply i effect).procs = s₁.procs.set i effect.proc ++ effect.spawned from rfl,
          List.getElem?_append_left (by rwa [List.length_set]), List.getElem?_set_self hlt]
      refine ⟨effect.proc, happenings ++ effect.happenings, hmoved, hworker₂, ?_, ?_⟩
      · rw [← List.append_assoc, ← htrace]
        rfl
      · rw [List.count_append]
        rcases hexits with ⟨hnone, hstays⟩ | ⟨hloop, hone, hout⟩
        · rcases hcount with hzero | ⟨hone, hexiting⟩
          · exact Or.inl (by omega)
          · exact Or.inr ⟨by omega, hstays hexiting⟩
        · rcases hcount with hzero | ⟨-, hexiting⟩
          · exact Or.inr ⟨by omega, hout⟩
          · rw [hloop] at hexiting
            cases hexiting
    · obtain ⟨more, htrace₂, hactors⟩ := step_trace hstep
      have hnone : more.count (.began i) = 0 := by
        refine List.count_eq_zero_of_not_mem fun hmem ↦ ?_
        exact hown (hactors _ hmem i rfl)
      obtain ⟨proc₂, hproc₂, rfl | ⟨input, _, heq, -⟩⟩ := step_getElem? hstep hproc₁
      · refine ⟨proc₂, happenings ++ more, hproc₂, hworker₁, ?_, ?_⟩
        · rw [htrace₂, htrace, List.append_assoc]
        · rw [List.count_append, hnone]
          exact hcount
      · exact absurd ⟨input, heq⟩ hown

/-! ### The end -/

/-- Nothing of the manager is in use: no worker and no ad-hoc request has a step left, there are no
processes and no slots in use, no target is owned, no job is running and every keepalive job is
stopped. -/
structure Over (s : System) : Prop where
  ended : ∀ (i : Nat) (proc : Proc) (input : Input), s.procs[i]? = some proc →
    proc.isRequest = true → s.step (.advance i input) = none
  processes : s.manager.currentProcesses = 0
  slots : s.manager.slotsInUse = 0
  owners : ∀ (key : String) (arbiter : TargetArbiter),
    s.manager.arbiters.lookup key = some arbiter → arbiter.owner = .none
  jobs : ∀ (key : String) (job : Job), s.manager.jobs.lookup key = some job → job.state ≠ .running
  keepalives : ∀ (key : String) (keepalive : KeepaliveJob),
    s.manager.keepalives.lookup key = some keepalive → keepalive.state = .stopped

/-- A worker or an ad-hoc request that is not pending has no step left. -/
theorem step_eq_none_of_not_pending {i : Nat} {proc : Proc} {input : Input}
    (hproc : s.procs[i]? = some proc) (hpending : proc.pending = false)
    (hcounted : proc.isRequest = true) : s.step (.advance i input) = none := by
  cases proc with
  | queue w =>
    have hpc : w.pc = .exited := by simpa [Proc.pending] using hpending
    simp [System.step, hproc, Proc.step, QueueWorker.step, hpc]
  | keepalive w =>
    have hpc : w.pc = .exited := by simpa [Proc.pending] using hpending
    simp [System.step, hproc, Proc.step, KeepaliveWorker.step, hpc]
  | adhoc call =>
    cases hpc : call.pc <;> simp [Proc.pending, hpc] at hpending
    simp [System.step, hproc, Proc.step, AdhocCall.step, hpc]
  | start call | edit call | wait call => cases hcounted

/-- A reachable state without pending goroutines is over. -/
theorem over_of_drained (h : s.Reachable) (hdrained : s.procs.countP Proc.pending = 0) :
    s.Over := by
  have hnone : ∀ (i : Nat) (proc : Proc), s.procs[i]? = some proc → proc.pending = false := by
    intro i proc hproc
    have hall := List.countP_eq_zero.mp hdrained proc (List.mem_of_getElem? hproc)
    simpa using hall
  have hdead : ∀ (i : Nat) (worker : Worker String Mode), s.ledger.workers[i]? = some worker →
      worker.live ≠ true := by
    intro i worker hworker hlive
    obtain ⟨proc, hproc, rfl⟩ := exists_proc_of_view hworker
    have hpending := hnone i proc hproc
    rw [Proc.pending_of_live hlive] at hpending
    cases hpending
  have hslots : s.ledger.workers.countP (·.slot) = 0 := by
    by_contra hpositive
    obtain ⟨i, worker, hworker, hslot⟩ := Pool.exists_getElem?_of_countP_pos
      (Nat.pos_of_ne_zero hpositive)
    exact hdead i worker hworker (h.valid.alive i worker hworker (Or.inr (Or.inr hslot)))
  have hprocesses : s.ledger.workers.countP (·.process) = 0 := by
    by_contra hpositive
    obtain ⟨i, worker, hworker, hprocess⟩ := Pool.exists_getElem?_of_countP_pos
      (Nat.pos_of_ne_zero hpositive)
    have hslot := (h.valid.equipped i worker hworker hprocess).1
    exact hdead i worker hworker (h.valid.alive i worker hworker (Or.inr (Or.inr hslot)))
  refine ⟨?_, h.valid.processes.trans hprocesses, h.valid.slots.trans hslots, ?_, ?_, ?_⟩
  · intro i proc input hproc hcounted
    exact step_eq_none_of_not_pending hproc (hnone i proc hproc) hcounted
  · intro key arbiter harbiter
    obtain ⟨cell, hcell⟩ := h.tabled.cell_of_arbiter harbiter
    by_contra howned
    have hclaim : arbiter.claim ≠ none := fun hnone ↦ howned (TargetArbiter.claim_eq_none.mp hnone)
    obtain ⟨⟨claimant, runID⟩, howner⟩ := Option.ne_none_iff_exists'.mp hclaim
    rw [← Manager.owner_of_cell hcell harbiter] at howner
    obtain ⟨i, worker, hworker, hholds, -⟩ := h.valid.owned key cell claimant runID hcell howner
    exact hdead i worker hworker (h.valid.alive i worker hworker (Or.inr (Or.inl hholds)))
  · intro key job hjob hrunning
    obtain ⟨cell, hcell⟩ := h.tabled.cell_of_job hjob
    have hon : (cell.track .queue).on = true := by
      rw [Manager.track_queue_of_cell hcell hjob]
      simpa [Job.track] using hrunning
    obtain ⟨i, worker, hworker, hlive, -⟩ := h.valid.served key cell .queue hcell hon
    exact hdead i worker hworker hlive
  · intro key keepalive hkeepalive
    obtain ⟨cell, hcell⟩ := h.tabled.cell_of_keepalive hkeepalive
    by_contra hstate
    have hon : (cell.track .keepalive).on = true := by
      rw [Manager.track_keepalive_of_cell hcell hkeepalive]
      simpa [KeepaliveJob.track] using hstate
    obtain ⟨i, worker, hworker, hlive, -⟩ := h.valid.served key cell .keepalive hcell hon
    exact hdead i worker hworker hlive

omit [Go.NetURL] in
/-- While the manager is shutting down, no goroutine becomes pending again. -/
theorem Gated.drained (h : s.Gated s') (hdown : s.manager.shuttingDown = true)
    (hdrained : s.procs.countP Proc.pending = 0) : s'.procs.countP Proc.pending = 0 := by
  cases h with
  | keeps _ hcount => rw [hcount, hdrained]
  | leaves _ hcount => omega
  | enters hopen =>
    rw [hopen] at hdown
    cases hdown
  | shuts _ hprocs => rw [hprocs, hdrained]

/-- A drained state stays drained while the manager is shutting down. -/
theorem drained_of_steps (hdown : s.manager.shuttingDown = true)
    (hdrained : s.procs.countP Proc.pending = 0) (hrun : Steps step Lawful s s') :
    s'.procs.countP Proc.pending = 0 := by
  have hboth : s'.manager.shuttingDown = true ∧ s'.procs.countP Proc.pending = 0 := by
    refine hrun.invariant (P := fun s ↦ s.manager.shuttingDown = true ∧
      s.procs.countP Proc.pending = 0) ?_ ⟨hdown, hdrained⟩
    intro s s' label hs _ hstep
    exact ⟨(step_gated hstep).shuttingDown hs.1, (step_gated hstep).drained hs.1 hs.2⟩
  exact hboth.2

omit [Go.NetURL] in
/-- `Wait` returns nil when the wait group is empty. -/
theorem runWG_of_wait {m : Manager} {call call' : WaitCall} {input : Input} {effect : Effect}
    (h : call.step m input = some effect) (hproc : effect.proc = .wait call')
    (hreturned : call'.returned = some true) : m.runWG = 0 := by
  unfold WaitCall.step at h
  split at h
  · cases h
  · split_ifs at h with hcancelled hempty
    · cases h
      cases hproc
      cases hreturned
    · exact hempty

/-- After a `Wait` that was called while the manager is shutting down and has returned nil, no
goroutine is pending. -/
theorem drained_of_wait (h : s.Reachable) (hdown : s.manager.shuttingDown = true)
    (hrun : Steps step Lawful s s') {i : Nat} {call : WaitCall} (hlater : s.procs.length ≤ i)
    (hproc : s'.procs[i]? = some (.wait call)) (hreturned : call.returned = some true) :
    s'.procs.countP Proc.pending = 0 := by
  induction hrun generalizing call with
  | refl =>
    rw [List.getElem?_eq_none hlater] at hproc
    cases hproc
  | @tail s₁ s₂ label hrun hlawful hstep ih =>
    have hdown₁ := shuttingDown_of_steps hdown hrun
    have hkept : s₁.procs.countP Proc.pending = 0 → s₂.procs.countP Proc.pending = 0 :=
      (step_gated hstep).drained hdown₁
    rcases step_proc_cases hstep hproc with
      ⟨input, proc, effect, -, hbefore, heffect, -, heq⟩ | ⟨hbefore, -⟩ | ⟨hnew, -⟩
    · obtain ⟨old, rfl⟩ := Proc.step_wait heffect heq
      refine hkept ?_
      rw [← (h.steps hrun).runWG]
      exact runWG_of_wait heffect heq hreturned
    · exact hkept (ih hbefore hreturned)
    · rcases step_new hstep hproc hnew with hworker | ⟨_, _, _, heq, -⟩ | ⟨_, heq⟩ | ⟨_, heq⟩ | heq
      · cases hworker
      · cases heq
      · cases heq
      · cases heq
      · cases heq
        cases hreturned

/-! ### Soundness -/

/-- What holds after a shutdown began in a state, of a state that is reached later: no worker was
created and no ad-hoc request accepted; every worker has begun at most one more runner call, and is
on its way out if it has; and once a later `Wait` has returned nil, everything is over for good. -/
structure ShutDown (s s' : System) : Prop where
  created : ∀ (i : Nat) (proc : Proc), s'.procs[i]? = some proc →
    proc.isRequest = true → i < s.procs.length
  began : ∀ (i : Nat) (proc : Proc), s.procs[i]? = some proc → proc.isWorker = true →
    ∃ proc' happenings, s'.procs[i]? = some proc' ∧ s'.trace = s.trace ++ happenings ∧
      (happenings.count (.began i) = 0 ∨
        (happenings.count (.began i) = 1 ∧ proc'.exiting = true))
  waited : ∀ (i : Nat) (call : WaitCall), s.procs.length ≤ i →
    s'.procs[i]? = some (.wait call) → call.returned = some true →
    ∀ later, Steps step Lawful s' later → later.Over

/-- No step of a run after the beginning of a shutdown creates a worker or accepts an ad-hoc
request. -/
theorem created_before (hdown : s.manager.shuttingDown = true) (hrun : Steps step Lawful s s')
    {i : Nat} {proc : Proc} (hproc : s'.procs[i]? = some proc)
    (hcounted : proc.isRequest = true) : i < s.procs.length := by
  induction hrun generalizing proc with
  | refl => exact (List.getElem?_eq_some_iff.mp hproc).1
  | @tail s₁ s₂ label hrun hlawful hstep ih =>
    have hdown₁ := shuttingDown_of_steps hdown hrun
    rcases step_proc_cases hstep hproc with
      ⟨input, old, effect, -, hbefore, heffect, -, rfl⟩ | ⟨hbefore, -⟩ | ⟨hnew, hnewborn⟩
    · exact ih hbefore (Proc.isRequest_of_step heffect hcounted)
    · exact ih hbefore hcounted
    · have hpending := (step_gated hstep).closed hdown₁ hnew hproc
      rw [hnewborn.pending hcounted] at hpending
      cases hpending

/-- A shutdown is sound. -/
theorem shutdown_sound (h : s.Reachable) {s₀ : System}
    (hshutdown : s.step .beginShutdown = some s₀) (hrun : Steps step Lawful s₀ s') :
    s₀.ShutDown s' := by
  have hlawful : s.Lawful .beginShutdown := trivial
  have hreach := h.step hlawful hshutdown
  have hdown : s₀.manager.shuttingDown = true := by
    cases hshutdown
    show s.manager.beginShutdown.shuttingDown = true
    unfold Manager.beginShutdown
    split_ifs with hbefore
    · exact hbefore
    · rfl
  refine ⟨fun i proc hproc hcounted ↦ created_before hdown hrun hproc hcounted, ?_, ?_⟩
  · intro i proc hproc hworker
    obtain ⟨proc', happenings, hproc', -, htrace, hcount⟩ :=
      began_of_steps hreach hdown hproc hworker hrun
    exact ⟨proc', happenings, hproc', htrace, hcount⟩
  · intro i call hlater hproc hreturned later hmore
    have hdrained := drained_of_wait hreach hdown hrun hlater hproc hreturned
    have hdown' := shuttingDown_of_steps hdown hrun
    exact over_of_drained ((hreach.steps hrun).steps hmore)
      (drained_of_steps hdown' hdrained hmore)

/-- The labels by which a worker with a slot begins an attempt that fails, and ends; then `Wait` is
called and returns. -/
def lastAttempt : List Label :=
  [.advance 1 {}, .advance 1 {}, .advance 1 {}, .advance 1 {}, .advance 1 {}, .advance 1 {},
    .advance 1 {}, .wait, .advance 2 {}]

omit [Go.NetURL] in
/-- A shutdown begins while the worker of a queue run on `a` is about to begin an attempt. It begins
this one and ends, and when `Wait` has returned everything is over. -/
theorem shutdown_sound_lastAttempt :
    ∃ s s₀ s₁ : System, @Reachable Go.NetURL.emptyOnly s ∧
      @step Go.NetURL.emptyOnly s .beginShutdown = some s₀ ∧
      runLabels (@step Go.NetURL.emptyOnly) calm s₀ lastAttempt = some s₁ ∧
      .began 1 ∈ s₁.trace ∧ @Over Go.NetURL.emptyOnly s₁ := by
  let _ := Go.NetURL.emptyOnly
  have heval : (runLabels step calm sample (queueAttempt.take 5)).any (fun s ↦
      (s.step .beginShutdown).any fun s₀ ↦ decide (s₀.procs.length = 2) &&
        (runLabels step calm s₀ lastAttempt).any fun s₁ ↦ s₁.trace.contains (.began 1) &&
          s₁.procs[2]?.any fun proc ↦ match proc with
            | .wait call => call.returned = some true
            | _ => false) = true := by
    decide +kernel
  obtain ⟨s, hreach, htest⟩ := exists_of_sample _ _ heval
  simp only [Option.any_eq_true, Bool.and_eq_true, decide_eq_true_eq,
    List.contains_iff_mem] at htest
  obtain ⟨s₀, hshutdown, hlength, s₁, hrun, hbegan, proc, hproc, hcall⟩ := htest
  have hsteps : Steps step Lawful s₀ s₁ := Steps.of_runLabels lawful_of_calm hrun
  have hsound := shutdown_sound hreach hshutdown hsteps
  split at hcall
  case h_1 call =>
    exact ⟨s, s₀, s₁, hreach, hshutdown, hrun, hbegan,
      hsound.waited 2 call hlength.le hproc (by simpa using hcall) s₁ .refl⟩
  case h_2 => cases hcall

end System

end CodexQueueBot.Jobs
