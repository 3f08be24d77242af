import CodexQueueBot.Jobs.Exclusion
import CodexQueueBot.Jobs.Procs
import CodexQueueBot.Jobs.Signals

/-!
# Waits and wake-ups

A goroutine waits in three places: for a slot in `acquire`, for a target in `acquireQueueTarget` and
`beginKeepaliveRequest`, and for the next request in `waitKeepaliveNext`. It waits on the channel
that was current when it found the condition for waiting. `Hears` says that each wait is sound: its
channel is closed, or it is the current one and the condition still holds. As every section signals
what it changes, this is an invariant, and no wake-up is lost.
-/

set_option autoImplicit false
set_option relaxedAutoImplicit false

namespace CodexQueueBot.Jobs

open Lib

/-! ### Waits -/

/-- The channel on which a goroutine waits for a slot. -/
def Proc.slotWait : Proc → Option Nat
  | .queue ⟨_, _, _, .awaitSlot changed⟩ => some changed
  | .keepalive ⟨_, _, _, .awaitSlot changed⟩ => some changed
  | .adhoc ⟨_, _, _, _, _, .awaitSlot changed⟩ => some changed
  | _ => none

/-- The target for which a goroutine waits, and the channel on which it does. A keepalive worker
that has found the target taken gives its slot back before it waits. -/
def Proc.targetWait : Proc → Option (String × Nat)
  | .queue ⟨key, _, _, .awaitTarget changed⟩ => some (key, changed)
  | .keepalive ⟨key, _, _, .awaitTarget changed⟩ => some (key, changed)
  | .keepalive ⟨key, _, _, .releaseSlot (some changed)⟩ => some (key, changed)
  | _ => none

/-- The target, the run, the timer and the channel of a keepalive worker that waits for its next
request. -/
def Proc.scheduleWait : Proc → Option (String × Nat × Time × Nat)
  | .keepalive ⟨key, runID, _, .awaitNext nextRequest changed⟩ =>
    some (key, runID, nextRequest, changed)
  | _ => none

/-- A goroutine that waits for a target works on it and is alive. -/
theorem Proc.live_of_targetWait {proc : Proc} {key : String} {changed : Nat}
    (h : proc.targetWait = some (key, changed)) : proc.view.live = true ∧ proc.view.key = key := by
  unfold targetWait at h
  split at h <;> cases h <;> exact ⟨rfl, rfl⟩

/-- A goroutine that waits for its next request works on its target, is alive and has not given up
its run. -/
theorem Proc.live_of_scheduleWait {proc : Proc} {key : String} {runID changed : Nat}
    {nextRequest : Time} (h : proc.scheduleWait = some (key, runID, nextRequest, changed)) :
    proc.view.live = true ∧ proc.view.active = true ∧ proc.view.key = key ∧
      proc.view.claimant = .mode .keepalive ∧ proc.view.runID = runID := by
  unfold scheduleWait at h
  split at h <;> cases h
  exact ⟨rfl, rfl, rfl, rfl, rfl⟩

/-- A goroutine at its first program point does not wait. -/
theorem Proc.Newborn.no_wait {proc : Proc} (h : proc.Newborn) :
    proc.slotWait = none ∧ proc.targetWait = none ∧ proc.scheduleWait = none := by
  cases proc with
  | queue w =>
    obtain ⟨key, runID, context, pc⟩ := w
    cases h
    exact ⟨rfl, rfl, rfl⟩
  | keepalive w =>
    obtain ⟨key, runID, context, pc⟩ := w
    cases h
    exact ⟨rfl, rfl, rfl⟩
  | adhoc call =>
    obtain ⟨key, runID, context, target, started, pc⟩ := call
    cases h
    exact ⟨rfl, rfl, rfl⟩
  | start call | edit call | wait call => exact ⟨rfl, rfl, rfl⟩

namespace Manager

/-- The current channels are among those made so far. -/
structure Fresh (m : Manager) : Prop where
  parallel : m.parallelChanged < m.nextChannel
  arbiters : ∀ (key : String) (arbiter : TargetArbiter), m.arbiters.lookup key = some arbiter →
    arbiter.changed < m.nextChannel
  schedules : ∀ (key : String) (keepalive : KeepaliveJob),
    m.keepalives.lookup key = some keepalive → keepalive.scheduleChanged < m.nextChannel

/-- The waits of a goroutine are sound. -/
structure Hears (m : Manager) (proc : Proc) : Prop where
  slot : ∀ channel, proc.slotWait = some channel →
    m.channels.Awaits channel m.parallelChanged (m.maxParallel ≤ m.slotsInUse)
  target : ∀ (key : String) (channel : Nat) (arbiter : TargetArbiter),
    proc.targetWait = some (key, channel) → m.arbiters.lookup key = some arbiter →
    m.channels.Awaits channel arbiter.changed (arbiter.owner ≠ .none)
  schedule : ∀ (key : String) (runID : Nat) (nextRequest : Time) (channel : Nat)
    (keepalive : KeepaliveJob), proc.scheduleWait = some (key, runID, nextRequest, channel) →
    m.keepalives.lookup key = some keepalive →
    m.channels.Awaits channel keepalive.scheduleChanged
      (keepalive.Current runID → nextRequest = keepalive.nextRequest)

variable {silent : String → Nat → Prop} {m m' : Manager} {proc : Proc}

/-! ### Steps of other goroutines -/

/-- What signals its changes keeps the current channels among those made. -/
theorem Fresh.signals (h : m.Fresh) (hsignals : Signals silent m m') : m'.Fresh where
  parallel := hsignals.parallel.lt hsignals.grows h.parallel
  arbiters := by
    intro key arbiter' harbiter'
    obtain ⟨arbiter, harbiter, hpasses⟩ := hsignals.arbiters key arbiter' harbiter'
    exact hpasses.lt hsignals.grows (h.arbiters key arbiter harbiter)
  schedules := by
    intro key keepalive' hkeepalive'
    obtain ⟨keepalive, hkeepalive, hpasses⟩ := hsignals.schedules key keepalive' hkeepalive'
    exact hpasses.lt hsignals.grows (h.schedules key keepalive hkeepalive)

/-- An edit keeps the current channels among those made. -/
theorem Fresh.edited (h : m.Fresh) (hedited : m.Edited m') : m'.Fresh where
  parallel := by
    rw [hedited.parallel]
    exact h.parallel.trans_le hedited.next
  arbiters := by
    intro key arbiter harbiter
    rcases hedited.arbiters key arbiter harbiter with ⟨old, hold⟩ | ⟨-, hlt⟩
    · exact (h.arbiters old arbiter hold).trans_le hedited.next
    · exact hlt
  schedules := by
    intro key keepalive hkeepalive
    rcases hedited.keepalives key keepalive hkeepalive with ⟨old, hold⟩ | ⟨-, hlt⟩
    · exact (h.schedules old keepalive hold).trans_le hedited.next
    · exact hlt

/-- The records of a new target have new channels. -/
theorem Fresh.addRecords (h : m.Fresh) (key : String) (target : Target) :
    (m.addRecords key target).Fresh where
  parallel := h.parallel.trans_le (Nat.le_add_right _ 2)
  arbiters := by
    intro other arbiter harbiter
    rw [Manager.addRecords, Table.lookup_insert_apply] at harbiter
    split_ifs at harbiter
    · cases harbiter
      exact Nat.lt_succ_self _
    · exact (h.arbiters other arbiter harbiter).trans_le (Nat.le_add_right _ 2)
  schedules := by
    intro other keepalive hkeepalive
    rw [Manager.addRecords, Table.lookup_insert_apply] at hkeepalive
    split_ifs at hkeepalive
    · cases hkeepalive
      exact Nat.lt_add_of_pos_right (by decide)
    · exact (h.schedules other keepalive hkeepalive).trans_le (Nat.le_add_right _ 2)

/-- What does not wait is sound. -/
theorem Hears.of_no_wait (hslot : proc.slotWait = none) (htarget : proc.targetWait = none)
    (hschedule : proc.scheduleWait = none) : m.Hears proc where
  slot := by
    intro _ hwait
    rw [hslot] at hwait
    cases hwait
  target := by
    intro _ _ _ hwait
    rw [htarget] at hwait
    cases hwait
  schedule := by
    intro _ _ _ _ _ hwait
    rw [hschedule] at hwait
    cases hwait

/-- Waits stay sound when the changes are signalled, unless the run may be silently rescheduled. -/
theorem Hears.signals (h : m.Hears proc) (hsignals : Signals silent m m')
    (hsilent : ∀ key runID nextRequest channel,
      proc.scheduleWait = some (key, runID, nextRequest, channel) → ¬ silent key runID) :
    m'.Hears proc where
  slot := by
    intro channel hwait
    refine (h.slot channel hwait).passes hsignals.grows (hsignals.parallel.imp ?_)
    rintro ⟨hlimit, hslots⟩ hfull
    rw [hlimit, hslots]
    exact hfull
  target := by
    intro key channel arbiter' hwait harbiter'
    obtain ⟨arbiter, harbiter, hpasses⟩ := hsignals.arbiters key arbiter' harbiter'
    exact (h.target key channel arbiter hwait harbiter).passes hsignals.grows hpasses
  schedule := by
    intro key runID nextRequest channel keepalive' hwait hkeepalive'
    obtain ⟨keepalive, hkeepalive, hpasses⟩ := hsignals.schedules key keepalive' hkeepalive'
    refine (h.schedule key runID nextRequest channel keepalive hwait hkeepalive).passes
      hsignals.grows (hpasses.imp ?_)
    intro hkept htimer hcurrent
    rcases hkept runID hcurrent with hrescheduled | ⟨hbefore, hnext⟩
    · exact absurd hrescheduled (hsilent key runID nextRequest channel hwait)
    · rw [hnext]
      exact htimer hbefore

/-- Waits stay sound when a slot is taken. -/
theorem Hears.acquires (h : m.Hears proc) (hacquires : m.Acquires m') : m'.Hears proc := by
  obtain ⟨-, rfl⟩ := hacquires
  refine ⟨?_, h.target, h.schedule⟩
  intro channel hwait
  refine (h.slot channel hwait).passes (.refl _) (.keep ?_)
  intro hfull
  push_cast
  omega

/-- Waits stay sound when targets are edited that the goroutine does not work on. -/
theorem Hears.edited (h : m.Hears proc) (hedited : m.Edited m')
    (harbiters : proc.view.live = true →
      m'.arbiters.lookup proc.view.key = m.arbiters.lookup proc.view.key)
    (hkeepalives : proc.view.live = true →
      m'.keepalives.lookup proc.view.key = m.keepalives.lookup proc.view.key) :
    m'.Hears proc := by
  have hgrows : m.channels.Grows m'.channels := by
    refine ⟨hedited.next, ?_⟩
    intro channel hmem
    show channel ∈ m'.closed
    rw [hedited.closed]
    exact hmem
  refine ⟨?_, ?_, ?_⟩
  · intro channel hwait
    rw [hedited.parallel, hedited.limit, hedited.slots]
    exact (h.slot channel hwait).passes hgrows (.keep id)
  · intro key channel arbiter hwait harbiter
    obtain ⟨hlive, rfl⟩ := Proc.live_of_targetWait hwait
    rw [harbiters hlive] at harbiter
    exact (h.target _ channel arbiter hwait harbiter).passes hgrows (.keep id)
  · intro key runID nextRequest channel keepalive hwait hkeepalive
    obtain ⟨hlive, -, rfl, -⟩ := Proc.live_of_scheduleWait hwait
    rw [hkeepalives hlive] at hkeepalive
    exact (h.schedule _ runID nextRequest channel keepalive hwait hkeepalive).passes hgrows
      (.keep id)

/-- A wait for a slot begins. -/
theorem Hears.begin_slot (h : m.Fresh) (hfull : m.maxParallel ≤ m.slotsInUse)
    (hslot : proc.slotWait = some m.parallelChanged) (htarget : proc.targetWait = none)
    (hschedule : proc.scheduleWait = none) : m.Hears proc where
  slot := by
    intro channel hwait
    obtain rfl := Option.some.inj (hslot.symm.trans hwait)
    exact .begin h.parallel hfull
  target := by
    intro _ _ _ hwait
    rw [htarget] at hwait
    cases hwait
  schedule := by
    intro _ _ _ _ _ hwait
    rw [hschedule] at hwait
    cases hwait

/-- A wait for a target begins, or goes on. -/
theorem Hears.begin_target {key : String} {channel : Nat}
    (htarget : proc.targetWait = some (key, channel)) (hslot : proc.slotWait = none)
    (hschedule : proc.scheduleWait = none)
    (hawaits : ∀ arbiter, m.arbiters.lookup key = some arbiter →
      m.channels.Awaits channel arbiter.changed (arbiter.owner ≠ .none)) : m.Hears proc where
  slot := by
    intro _ hwait
    rw [hslot] at hwait
    cases hwait
  target := by
    intro key' channel' arbiter hwait harbiter
    obtain ⟨rfl, rfl⟩ := Prod.mk.inj (Option.some.inj (htarget.symm.trans hwait))
    exact hawaits arbiter harbiter
  schedule := by
    intro _ _ _ _ _ hwait
    rw [hschedule] at hwait
    cases hwait

end Manager

/-! ### Steps of the goroutine itself -/

section

variable [Go.NetURL] {m : Manager} {self : Nat} {input : Input} {effect : Effect}

open Manager

/-- A queue worker waits soundly after its own step. -/
theorem QueueWorker.step_hears {w : QueueWorker} (hfresh : m.Fresh)
    (h : w.step m self input = some effect) : effect.manager.Hears effect.proc := by
  unfold QueueWorker.step at h
  cases hpc : w.pc <;>
    simp only [hpc, Option.bind_eq_bind, Option.bind_eq_some_iff, Prod.exists] at h
  case acquireTarget =>
    obtain ⟨m₁, outcome, hsection, h⟩ := h
    obtain ⟨job, arbiter, -, harbiter, hcases⟩ := acquireQueueTarget_cases hsection
    rcases hcases with ⟨-, rfl, rfl⟩ | ⟨-, -, rfl, rfl⟩ | ⟨-, howner, rfl, rfl⟩ <;> cases h
    · exact .of_no_wait rfl rfl rfl
    · exact .of_no_wait rfl rfl rfl
    · refine .begin_target rfl rfl rfl ?_
      intro arbiter' harbiter'
      obtain rfl := Option.some.inj (harbiter.symm.trans harbiter')
      exact .begin (hfresh.arbiters w.key arbiter harbiter) howner
  case acquire =>
    rcases hacquire : m.acquire with ⟨m₁, outcome⟩
    simp only [hacquire] at h
    rcases acquire_cases hacquire with ⟨-, rfl, rfl⟩ | ⟨hfull, rfl, rfl⟩ <;> cases h
    · exact .of_no_wait rfl rfl rfl
    · exact .begin_slot hfresh hfull rfl rfl rfl
  case awaitTarget | awaitSlot =>
    obtain ⟨woken, -, h⟩ := h
    cases woken <;> cases h <;> exact .of_no_wait rfl rfl rfl
  case beginAttempt =>
    obtain ⟨m₁, _ | ⟨attempt, target⟩, -, h⟩ := h <;> cases h <;> exact .of_no_wait rfl rfl rfl
  case markSuccess =>
    obtain ⟨m₁, _ | success, -, h⟩ := h <;> cases h <;> exact .of_no_wait rfl rfl rfl
  case markFailure =>
    obtain ⟨m₁, valid, -, h⟩ := h
    cases valid <;> cases h <;> exact .of_no_wait rfl rfl rfl
  case finishProcess attempt target result =>
    obtain ⟨m₁, -, h⟩ := h
    cases h
    split_ifs <;> exact .of_no_wait rfl rfl rfl
  case checkContext =>
    cases h
    split_ifs <;> exact .of_no_wait rfl rfl rfl
  case releaseTarget | markCancelled | finishWorker =>
    obtain ⟨m₁, -, h⟩ := h
    cases h
    exact .of_no_wait rfl rfl rfl
  case running | notifySuccess | releaseSlot | workerDone =>
    cases h
    exact .of_no_wait rfl rfl rfl
  case exited => cases h

/-- A `RunAdhoc` call waits soundly after its own step. -/
theorem AdhocCall.step_hears {call : AdhocCall} (hfresh : m.Fresh)
    (h : call.step m self input = some effect) : effect.manager.Hears effect.proc := by
  unfold AdhocCall.step at h
  cases hpc : call.pc <;>
    simp only [hpc, Option.bind_eq_bind, Option.bind_eq_some_iff, Prod.exists] at h
  case acquire =>
    rcases hacquire : m.acquire with ⟨m₁, outcome⟩
    simp only [hacquire] at h
    rcases acquire_cases hacquire with ⟨-, rfl, rfl⟩ | ⟨hfull, rfl, rfl⟩ <;> cases h
    · exact .of_no_wait rfl rfl rfl
    · exact .begin_slot hfresh hfull rfl rfl rfl
  case awaitSlot =>
    obtain ⟨woken, -, h⟩ := h
    cases woken <;> cases h <;> exact .of_no_wait rfl rfl rfl
  case checkContext =>
    cases h
    split_ifs <;> exact .of_no_wait rfl rfl rfl
  case confirm =>
    obtain ⟨m₁, confirmed, -, h⟩ := h
    split_ifs at h <;> cases h <;> exact .of_no_wait rfl rfl rfl
  case finishRequest =>
    obtain ⟨m₁, -, h⟩ := h
    cases h
    exact .of_no_wait rfl rfl rfl
  case running | workerDone =>
    cases h
    exact .of_no_wait rfl rfl rfl
  case returned => cases h

omit [Go.NetURL] in
/-- A keepalive job that is written, or not, leaves the arbiters and the channels alone. -/
theorem Manager.waiting_cases {m' : Manager} {key : String} {keepalive : KeepaliveJob}
    (h : m' = m ∨ ∃ state : KeepaliveState, state ≠ .stopped ∧
      (m.setKeepalive key { keepalive with state }).Shown m') :
    m'.arbiters = m.arbiters ∧ m'.channels = m.channels := by
  rcases h with rfl | ⟨state, -, _, _, rfl⟩ <;> exact ⟨rfl, rfl⟩

/-- Assumes: no queue run is on while the worker is alive. A keepalive worker waits soundly after
its own step. -/
theorem KeepaliveWorker.step_hears {w : KeepaliveWorker} (hfresh : m.Fresh)
    (hold : m.Hears (.keepalive w))
    (hquiet : w.view.live = true → ∀ job, m.jobs.lookup w.key = some job → job.state ≠ .running)
    (h : w.step m self input = some effect) : effect.manager.Hears effect.proc := by
  -- A wait for the target begins while the arbiter has an owner, as no queue run is on.
  have hbegin : ∀ (m₁ : Manager) (keepalive : KeepaliveJob) (job : Job) (arbiter : TargetArbiter)
      (proc : Proc), w.view.live = true → m.jobs.lookup w.key = some job →
      m.arbiters.lookup w.key = some arbiter → (job.state = .running ∨ arbiter.owner ≠ .none) →
      (m₁ = m ∨ ∃ state : KeepaliveState, state ≠ .stopped ∧
        (m.setKeepalive w.key { keepalive with state }).Shown m₁) →
      proc.targetWait = some (w.key, arbiter.changed) → proc.slotWait = none →
      proc.scheduleWait = none → m₁.Hears proc := by
    intro m₁ keepalive job arbiter proc hlive hjob harbiter htaken hcases htarget hslot hschedule
    obtain ⟨harbiters, hchannels⟩ := waiting_cases hcases
    refine .begin_target htarget hslot hschedule ?_
    intro arbiter' harbiter'
    rw [harbiters] at harbiter'
    obtain rfl := Option.some.inj (harbiter.symm.trans harbiter')
    rw [hchannels]
    exact .begin (hfresh.arbiters w.key arbiter harbiter)
      (htaken.resolve_left (hquiet hlive job hjob))
  unfold KeepaliveWorker.step at h
  cases hpc : w.pc <;>
    simp only [hpc, Option.bind_eq_bind, Option.bind_eq_some_iff, Prod.exists] at h
  case beginRequest =>
    have hlive : w.view.live = true := by simp [view, hpc]
    obtain ⟨m₁, outcome, hsection, h⟩ := h
    obtain ⟨keepalive, job, arbiter, -, hjob, harbiter, hcases⟩ :=
      beginKeepaliveRequest_cases hsection
    rcases hcases with ⟨-, rfl, rfl⟩ | ⟨-, ⟨rfl, htaken⟩ | ⟨rfl, -⟩, hcases⟩ <;> cases h
    · exact .of_no_wait rfl rfl rfl
    · exact hbegin m₁ keepalive job arbiter _ hlive hjob harbiter htaken hcases rfl rfl rfl
    · exact .of_no_wait rfl rfl rfl
  case confirmRequest =>
    have hlive : w.view.live = true := by simp [view, hpc]
    obtain ⟨m₁, outcome, hsection, h⟩ := h
    obtain ⟨keepalive, job, arbiter, -, hjob, harbiter, hcases⟩ :=
      confirmKeepaliveRequest_cases hsection
    rcases hcases with ⟨-, rfl, rfl⟩ | ⟨-, rfl, htaken, hcases⟩ | ⟨-, rfl, -⟩ <;> cases h
    · exact .of_no_wait rfl rfl rfl
    · exact hbegin m₁ keepalive job arbiter _ hlive hjob harbiter htaken hcases rfl rfl rfl
    · exact .of_no_wait rfl rfl rfl
  case releaseSlot changed =>
    have hsignals : Signals (fun _ _ ↦ False) m m.releaseSlot := by
      rw [releaseSlot_eq]
      exact .signalParallelLocked (Nat.sub_le _ 1) id
    cases changed with
    | none =>
      cases h
      exact .of_no_wait rfl rfl rfl
    | some changed =>
      cases h
      obtain ⟨key, runID, context, pc⟩ := w
      cases hpc
      refine .begin_target rfl rfl rfl ?_
      intro arbiter harbiter
      exact (hold.signals hsignals fun _ _ _ _ _ ↦ not_false).target key changed
          arbiter rfl harbiter
  case acquire =>
    rcases hacquire : m.acquire with ⟨m₁, outcome⟩
    simp only [hacquire] at h
    rcases acquire_cases hacquire with ⟨-, rfl, rfl⟩ | ⟨hfull, rfl, rfl⟩ <;> cases h
    · exact .of_no_wait rfl rfl rfl
    · exact .begin_slot hfresh hfull rfl rfl rfl
  case waitNext =>
    cases hsection : m.waitKeepaliveNext w.key w.runID with
    | none =>
      simp only [hsection] at h
      cases h
      exact .of_no_wait rfl rfl rfl
    | some found =>
      obtain ⟨nextRequest, changed⟩ := found
      simp only [hsection] at h
      cases h
      obtain ⟨keepalive, hkeepalive, -, rfl, rfl⟩ := waitKeepaliveNext_cases hsection
      split_ifs
      · exact .of_no_wait rfl rfl rfl
      · refine ⟨fun _ hwait ↦ (by cases hwait), fun _ _ _ hwait ↦ (by cases hwait), ?_⟩
        intro key runID nextRequest channel keepalive' hwait hkeepalive'
        cases hwait
        obtain rfl := Option.some.inj (hkeepalive.symm.trans hkeepalive')
        exact .begin (hfresh.schedules w.key keepalive hkeepalive) fun _ ↦ rfl
  case awaitNext =>
    split_ifs at h
    · cases h
      exact .of_no_wait rfl rfl rfl
    · rw [Option.bind_eq_some_iff] at h
      obtain ⟨woken, -, h⟩ := h
      cases woken <;> cases h <;> exact .of_no_wait rfl rfl rfl
  case awaitTarget | awaitSlot =>
    obtain ⟨woken, -, h⟩ := h
    cases woken <;> cases h <;> exact .of_no_wait rfl rfl rfl
  case finishRequest =>
    obtain ⟨m₁, valid, -, h⟩ := h
    cases valid <;> cases h <;> exact .of_no_wait rfl rfl rfl
  case checkContext =>
    cases h
    split_ifs <;> exact .of_no_wait rfl rfl rfl
  case finishProcess | markCancelled | finishWorker =>
    obtain ⟨m₁, -, h⟩ := h
    cases h
    exact .of_no_wait rfl rfl rfl
  case running | workerDone =>
    cases h
    exact .of_no_wait rfl rfl rfl
  case exited => cases h

end

/-! ### Reachable states -/

namespace System

open Manager

/-- All waits are sound. -/
structure Attentive (s : System) : Prop where
  fresh : s.manager.Fresh
  hears : ∀ (i : Nat) (proc : Proc), s.procs[i]? = some proc → s.manager.Hears proc

variable [Go.NetURL] {s s' : System} {label : Label}

/-- No queue run is on while a keepalive worker of the target is alive. -/
theorem not_running_of_live (h : s.Reachable) {i : Nat} {w : KeepaliveWorker} {job : Job}
    (hproc : s.procs[i]? = some (.keepalive w)) (hlive : w.view.live = true)
    (hjob : s.manager.jobs.lookup w.key = some job) : job.state ≠ .running := by
  intro hrunning
  obtain ⟨cell, hcell⟩ := h.tabled.cell_of_job hjob
  have hqueue : (cell.track .queue).Busy := by
    rw [track_queue_of_cell hcell hjob, Job.track_busy]
    exact Or.inl hrunning
  have hkeepalive : (cell.track .keepalive).Busy :=
    h.valid.busy_of_live (view_getElem? hproc) hlive hcell rfl
  exact h.valid.exclusive w.key cell .queue .keepalive hcell (by decide) ⟨hqueue, hkeepalive⟩

/-- An edit does not touch the records of a target with a live goroutine. -/
theorem untouched_of_live (h : s.Reachable) {m : Manager} (hedited : s.manager.Edited m) {i : Nat}
    {proc : Proc} (hproc : s.procs[i]? = some proc) (hlive : proc.view.live = true) :
    m.jobs.lookup proc.view.key = s.manager.jobs.lookup proc.view.key ∧
      m.keepalives.lookup proc.view.key = s.manager.keepalives.lookup proc.view.key ∧
      m.arbiters.lookup proc.view.key = s.manager.arbiters.lookup proc.view.key := by
  have hworker : s.ledger.workers[i]? = some proc.view := view_getElem? hproc
  obtain ⟨cell, hcell⟩ := h.valid.present i _ hworker hlive
  refine hedited.untouched _ cell hcell fun hidle ↦ ?_
  rw [h.valid.not_live_of_idle hworker hcell hidle] at hlive
  cases hlive

/-- A keepalive run whose worker waits for its next request is not silently rescheduled by the step
of another goroutine. -/
theorem not_silent (h : s.Reachable) {i : Nat} {proc : Proc} (hproc : s.procs[i]? = some proc)
    (hother : ∀ self input, label = .advance self input → i ≠ self) {key : String}
    {runID changed : Nat} {nextRequest : Time}
    (hwait : proc.scheduleWait = some (key, runID, nextRequest, changed)) :
    ¬ s.Silent label key runID := by
  obtain ⟨hlive, -, hkey, hclaimant, hrun⟩ := Proc.live_of_scheduleWait hwait
  have hworker : s.ledger.workers[i]? = some proc.view := view_getElem? hproc
  rintro (⟨self, input, w, hlabel, hself, hwlive, hwkey, hwrun⟩ | ⟨keepalive, hkeepalive, rfl⟩)
  · refine hother self input hlabel ?_
    exact h.valid.distinct i self _ _ hworker (view_getElem? hself) hlive hwlive
      ⟨hkey.trans hwkey.symm, hclaimant, hrun.trans hwrun.symm⟩
  · obtain ⟨cell, hcell⟩ := h.tabled.cell_of_keepalive hkeepalive
    have hle := h.valid.numbered i _ cell .keepalive hworker hlive (hkey ▸ hcell) hclaimant
    rw [track_keepalive_of_cell hcell hkeepalive, hrun] at hle
    exact absurd hle (Nat.not_succ_le_self _)

/-- A goroutine that does not move waits soundly after a step. -/
theorem Attentive.other (h : s.Attentive) (hreach : s.Reachable) (hlawful : s.Lawful label)
    (hstep : s.step label = some s') {i : Nat} {proc : Proc} (hproc : s.procs[i]? = some proc)
    (hother : ∀ self input, label = .advance self input → i ≠ self) : s'.manager.Hears proc := by
  rcases step_signals hreach.tabled hlawful hstep with hsignals | hacquires | hedited
  · exact (h.hears i proc hproc).signals hsignals fun _ _ _ _ hwait ↦
      not_silent hreach hproc hother hwait
  · exact (h.hears i proc hproc).acquires hacquires
  · exact (h.hears i proc hproc).edited hedited
      (fun hlive ↦ (untouched_of_live hreach hedited hproc hlive).2.2)
      fun hlive ↦ (untouched_of_live hreach hedited hproc hlive).2.1

/-- The goroutine that moves waits soundly after its step. -/
theorem Attentive.self (h : s.Attentive) (hreach : s.Reachable) {self : Nat} {input : Input}
    {proc : Proc} {effect : Effect} (hproc : s.procs[self]? = some proc)
    (heffect : proc.step s.manager s.procs.length self input = some effect) :
    effect.manager.Hears effect.proc := by
  cases proc with
  | queue w => exact QueueWorker.step_hears h.fresh heffect
  | keepalive w =>
    exact KeepaliveWorker.step_hears h.fresh (h.hears self _ hproc)
      (fun hlive _ hjob ↦ not_running_of_live hreach hproc hlive hjob) heffect
  | adhoc call => exact AdhocCall.step_hears h.fresh heffect
  | start call =>
    obtain ⟨⟨call', heq, -⟩, -⟩ := StartCall.step_proc heffect
    rw [heq]
    exact .of_no_wait rfl rfl rfl
  | edit call =>
    obtain ⟨⟨pc, heq⟩, -⟩ := EditCall.step_proc heffect
    rw [heq]
    exact .of_no_wait rfl rfl rfl
  | wait call =>
    obtain ⟨-, ⟨call', heq⟩, -⟩ := WaitCall.step_proc heffect
    rw [heq]
    exact .of_no_wait rfl rfl rfl

/-- A step keeps all waits sound. -/
theorem Attentive.step (h : s.Attentive) (hreach : s.Reachable) (hlawful : s.Lawful label)
    (hstep : s.step label = some s') : s'.Attentive := by
  refine ⟨?_, ?_⟩
  · rcases step_signals hreach.tabled hlawful hstep with hsignals | ⟨-, heq⟩ | hedited
    · exact h.fresh.signals hsignals
    · rw [heq]
      exact ⟨h.fresh.parallel, h.fresh.arbiters, h.fresh.schedules⟩
    · exact h.fresh.edited hedited
  · intro i proc hproc'
    rcases step_proc_cases hstep hproc' with
      ⟨input, moved, effect, rfl, hmoved, heffect, rfl, rfl⟩ | ⟨hproc, hother⟩ | ⟨-, hnewborn⟩
    · exact h.self hreach hmoved heffect
    · refine h.other hreach hlawful hstep hproc ?_
      rintro self input rfl rfl
      exact hother input rfl
    · exact .of_no_wait hnewborn.no_wait.1 hnewborn.no_wait.2.1 hnewborn.no_wait.2.2

omit [Go.NetURL] in
/-- Nothing waits in a new system. -/
theorem attentive_init (settings : Settings) (targets : List Target) :
    (init settings targets).Attentive := by
  refine ⟨?_, fun _ _ hproc ↦ by cases hproc⟩
  have hadd : ∀ (targets : List Target) (m : Manager), m.Fresh →
      (targets.foldl addTarget m).Fresh := by
    intro targets
    induction targets with
    | nil => exact fun _ hfresh ↦ hfresh
    | cons target targets ih => exact fun m hfresh ↦ ih _ (hfresh.addRecords _ target)
  exact hadd targets _ ⟨Nat.zero_lt_one, fun _ _ hlookup ↦ (by cases hlookup),
    fun _ _ hlookup ↦ (by cases hlookup)⟩

/-- All waits are sound in every reachable state. -/
theorem Reachable.attentive (h : s.Reachable) : s.Attentive := by
  refine h.induct ?_ ?_
  · intro settings targets _
    exact attentive_init settings targets
  · intro s s' label hreach hs hlawful hstep
    exact hs.step hreach hlawful hstep

/-! ### No lost wake-ups -/

/-- No wake-up is lost. A goroutine that waits for a slot on the current channel finds all slots in
use; one that waits for a target on the current channel finds it owned; and a keepalive worker that
waits for its next request on the current channel has its timer set for the time of that request, or
its context is done. -/
theorem no_lost_wakeup (h : s.Reachable) :
    (∀ (i : Nat) (proc : Proc), s.procs[i]? = some proc →
      proc.slotWait = some s.manager.parallelChanged →
      s.manager.maxParallel ≤ s.manager.slotsInUse) ∧
    (∀ (i : Nat) (proc : Proc) (key : String) (arbiter : TargetArbiter),
      s.procs[i]? = some proc → s.manager.arbiters.lookup key = some arbiter →
      proc.targetWait = some (key, arbiter.changed) → arbiter.owner ≠ .none) ∧
    ∀ (i : Nat) (w : KeepaliveWorker) (keepalive : KeepaliveJob) (nextRequest : Time),
      s.procs[i]? = some (.keepalive w) →
      s.manager.keepalives.lookup w.key = some keepalive →
      w.pc = .awaitNext nextRequest keepalive.scheduleChanged →
      nextRequest = keepalive.nextRequest ∨ s.manager.contextDone w.context = true := by
  have hattentive := h.attentive
  refine ⟨?_, ?_, ?_⟩
  · intro i proc hproc hwait
    exact ((hattentive.hears i proc hproc).slot _ hwait).justified
  · intro i proc key arbiter hproc harbiter hwait
    exact ((hattentive.hears i proc hproc).target key _ arbiter hwait harbiter).justified
  · intro i w keepalive nextRequest hproc hkeepalive hpc
    have hwait : (Proc.keepalive w).scheduleWait =
        some (w.key, w.runID, nextRequest, keepalive.scheduleChanged) := by
      obtain ⟨key, runID, context, pc⟩ := w
      cases hpc
      rfl
    have htimer := ((hattentive.hears i _ hproc).schedule _ _ _ _ keepalive hwait
      hkeepalive).justified
    obtain ⟨-, hactive, -⟩ := Proc.live_of_scheduleWait hwait
    obtain ⟨cell, hcell⟩ := h.tabled.cell_of_keepalive hkeepalive
    -- The worker has not given up its run, so that the run is on or its context is done.
    rcases h.valid.stale i _ cell .keepalive (view_getElem? hproc) hactive hcell rfl with
      hcurrent | hdone
    · rw [track_keepalive_of_cell hcell hkeepalive, KeepaliveJob.track_current] at hcurrent
      exact Or.inl (htimer hcurrent)
    · exact Or.inr hdone

/-- The labels by which a queue run on `b` comes to wait for the slot that the run on `a` uses. -/
def slotTaken : List Label :=
  queueAttempt ++ [.start ["b"] ⟨"r", "", "", none⟩, .advance 2 {}, .advance 2 {}, .advance 3 {},
    .advance 3 {}]

omit [Go.NetURL] in
/-- A queue worker on `b` waits for a slot on the current channel, and the one slot is in use. -/
theorem no_lost_wakeup_slotTaken :
    ∃ (s : System) (proc : Proc), @Reachable Go.NetURL.emptyOnly s ∧ s.procs[3]? = some proc ∧
      proc.slotWait = some s.manager.parallelChanged ∧
      s.manager.maxParallel ≤ s.manager.slotsInUse := by
  let _ := Go.NetURL.emptyOnly
  obtain ⟨s, hreach, htest⟩ := exists_of_sample slotTaken
    (fun s ↦ s.procs[3]?.any (·.slotWait = some s.manager.parallelChanged)) (by decide +kernel)
  obtain ⟨proc, hproc, hwait⟩ := (Option.any_eq_true _ _).mp htest
  have hwait : proc.slotWait = some s.manager.parallelChanged := by simpa using hwait
  exact ⟨s, proc, hreach, hproc, hwait, (no_lost_wakeup hreach).1 3 proc hproc hwait⟩

end System

end CodexQueueBot.Jobs
