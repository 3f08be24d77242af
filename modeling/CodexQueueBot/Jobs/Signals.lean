import CodexQueueBot.Jobs.Edits
import CodexQueueBot.Lib.Channel

/-!
# What the critical sections do to slots and channels

The manager has three kinds of channels that are closed and replaced: one for the slots, one for
each target and one for the schedule of each keepalive job. `Signals` is what a critical section may
do to them: a slot is given back, or the limit changed, only together with a new channel for the
slots; an owner gives up a target only together with a new channel for the target; and the time of
the next request of a run changes only together with a new channel for the schedule, unless the run
is one that the section may silently reschedule, because its own worker executes the section or
because it has only just been started.

Every section is of this kind, except that of `acquire`, which takes a slot only below the limit,
and the edits of targets (`System.step_signals`).
-/

set_option autoImplicit false
set_option relaxedAutoImplicit false

namespace CodexQueueBot.Jobs

open Lib

namespace Manager

/-- The channels of a manager. -/
def channels (m : Manager) : Channels where
  next := m.nextChannel
  closed := { channel | channel ∈ m.closed }

/-- What a section may do to slots and channels. The runs that it may silently reschedule are
`silent`. -/
structure Signals (silent : String → Nat → Prop) (m m' : Manager) : Prop where
  grows : m.channels.Grows m'.channels
  frugal : m'.slotsInUse ≤ m.slotsInUse
  limit : 0 < m.maxParallel → 0 < m'.maxParallel
  parallel : m.channels.Passes m'.channels m.parallelChanged m'.parallelChanged
    (m'.maxParallel = m.maxParallel ∧ m'.slotsInUse = m.slotsInUse)
  arbiters : ∀ (key : String) (arbiter' : TargetArbiter),
    m'.arbiters.lookup key = some arbiter' → ∃ arbiter, m.arbiters.lookup key = some arbiter ∧
      m.channels.Passes m'.channels arbiter.changed arbiter'.changed
        (arbiter.owner ≠ .none → arbiter'.owner ≠ .none)
  schedules : ∀ (key : String) (keepalive' : KeepaliveJob),
    m'.keepalives.lookup key = some keepalive' → ∃ keepalive,
      m.keepalives.lookup key = some keepalive ∧
      m.channels.Passes m'.channels keepalive.scheduleChanged keepalive'.scheduleChanged
        (∀ runID, keepalive'.Current runID → silent key runID ∨
          (keepalive.Current runID ∧ keepalive'.nextRequest = keepalive.nextRequest))

variable {silent : String → Nat → Prop} {m m' m'' : Manager} {key : String} {runID : Nat}
  {now : Time}

/-! ### Updates -/

namespace Signals

/-- Two updates in a row. -/
theorem trans (hfirst : Signals silent m m') (hsecond : Signals silent m' m'') :
    Signals silent m m'' where
  grows := hfirst.grows.trans hsecond.grows
  frugal := hsecond.frugal.trans hfirst.frugal
  limit h := hsecond.limit (hfirst.limit h)
  parallel := by
    refine (hfirst.parallel.trans hfirst.grows hsecond.grows hsecond.parallel).imp ?_
    rintro ⟨⟨hlimit, hslots⟩, hlimit', hslots'⟩
    exact ⟨hlimit'.trans hlimit, hslots'.trans hslots⟩
  arbiters := by
    intro key arbiter'' harbiter''
    obtain ⟨arbiter', harbiter', hpasses'⟩ := hsecond.arbiters key arbiter'' harbiter''
    obtain ⟨arbiter, harbiter, hpasses⟩ := hfirst.arbiters key arbiter' harbiter'
    exact ⟨arbiter, harbiter, (hpasses.trans hfirst.grows hsecond.grows hpasses').imp
      fun hkept howner ↦ hkept.2 (hkept.1 howner)⟩
  schedules := by
    intro key keepalive'' hkeepalive''
    obtain ⟨keepalive', hkeepalive', hpasses'⟩ := hsecond.schedules key keepalive'' hkeepalive''
    obtain ⟨keepalive, hkeepalive, hpasses⟩ := hfirst.schedules key keepalive' hkeepalive'
    refine ⟨keepalive, hkeepalive, (hpasses.trans hfirst.grows hsecond.grows hpasses').imp ?_⟩
    rintro ⟨hkept, hkept'⟩ runID hcurrent
    rcases hkept' runID hcurrent with hsilent | ⟨hcurrent', hnext'⟩
    · exact Or.inl hsilent
    · rcases hkept runID hcurrent' with hsilent | ⟨hcurrent'', hnext⟩
      · exact Or.inl hsilent
      · exact Or.inr ⟨hcurrent'', hnext'.trans hnext⟩

/-- An update of nothing but one arbiter that keeps its channel and does not give up the target. -/
theorem setArbiter {arbiter : TargetArbiter} (harbiter : m.arbiters.lookup key = some arbiter)
    (new : TargetArbiter) (hchanged : new.changed = arbiter.changed)
    (howner : arbiter.owner ≠ .none → new.owner ≠ .none) :
    Signals silent m (m.setArbiter key new) where
  grows := .refl _
  frugal := le_rfl
  limit := id
  parallel := .keep ⟨rfl, rfl⟩
  arbiters := by
    intro other arbiter' harbiter'
    rw [Manager.setArbiter, Table.lookup_insert_apply] at harbiter'
    split_ifs at harbiter' with hkey
    · cases harbiter'
      exact ⟨arbiter, hkey ▸ harbiter, Or.inl ⟨hchanged, howner⟩⟩
    · exact ⟨arbiter', harbiter', .keep id⟩
  schedules _ keepalive' hkeepalive' :=
    ⟨keepalive', hkeepalive', .keep fun _ hcurrent ↦ Or.inr ⟨hcurrent, rfl⟩⟩

/-- An update of nothing but one keepalive job that keeps its channel, and the time of the next
request unless the run may be silently rescheduled. -/
theorem setKeepalive {keepalive : KeepaliveJob}
    (hkeepalive : m.keepalives.lookup key = some keepalive) (new : KeepaliveJob)
    (hchanged : new.scheduleChanged = keepalive.scheduleChanged)
    (hnext : ∀ runID, new.Current runID → silent key runID ∨
      (keepalive.Current runID ∧ new.nextRequest = keepalive.nextRequest)) :
    Signals silent m (m.setKeepalive key new) where
  grows := .refl _
  frugal := le_rfl
  limit := id
  parallel := .keep ⟨rfl, rfl⟩
  arbiters _ arbiter' harbiter' := ⟨arbiter', harbiter', .keep id⟩
  schedules := by
    intro other keepalive' hkeepalive'
    rw [Manager.setKeepalive, Table.lookup_insert_apply] at hkeepalive'
    split_ifs at hkeepalive' with hkey
    · cases hkeepalive'
      subst hkey
      exact ⟨keepalive, hkeepalive, Or.inl ⟨hchanged, hnext⟩⟩
    · exact ⟨keepalive', hkeepalive', .keep fun _ hcurrent ↦ Or.inr ⟨hcurrent, rfl⟩⟩

/-- An update of none of the fields that matter. -/
theorem of_fields (hchannels : m'.channels = m.channels) (hslots : m'.slotsInUse = m.slotsInUse)
    (hlimit : m'.maxParallel = m.maxParallel)
    (hparallel : m'.parallelChanged = m.parallelChanged) (harbiters : m'.arbiters = m.arbiters)
    (hkeepalives : m'.keepalives = m.keepalives) : Signals silent m m' where
  grows := hchannels ▸ .refl _
  frugal := hslots.le
  limit := by rw [hlimit]; exact id
  parallel := Or.inl ⟨hparallel, hlimit, hslots⟩
  arbiters key arbiter' harbiter' := ⟨arbiter', harbiters ▸ harbiter', .keep id⟩
  schedules key keepalive' hkeepalive' := ⟨keepalive', hkeepalives ▸ hkeepalive',
    .keep fun _ hcurrent ↦ Or.inr ⟨hcurrent, rfl⟩⟩

/-- No update. -/
theorem refl (m : Manager) : Signals silent m m :=
  .of_fields rfl rfl rfl rfl rfl rfl

/-- A broadcast. -/
theorem of_shown (h : m.Shown m') : Signals silent m m' := by
  obtain ⟨_, _, rfl⟩ := h
  exact .of_fields rfl rfl rfl rfl rfl rfl

/-- A cancellation. -/
theorem callCancel (cancel : Option Nat) : Signals silent m (m.callCancel cancel) := by
  cases cancel <;> exact .of_fields rfl rfl rfl rfl rfl rfl

/-- A channel is closed and a new one made. -/
theorem grows_close (channel : Nat) :
    m.channels.Grows ⟨m.nextChannel + 1, { other | other ∈ channel :: m.closed }⟩ :=
  ⟨Nat.le_succ _, fun _ hother ↦ List.mem_cons_of_mem _ hother⟩

/-- A closed channel passes to the new one. -/
theorem passes_close (channel : Nat) (kept : Prop) :
    m.channels.Passes ⟨m.nextChannel + 1, { other | other ∈ channel :: m.closed }⟩ channel
      m.nextChannel kept :=
  Or.inr ⟨List.mem_cons_self, le_rfl, Nat.lt_succ_self _⟩

/-- The channel of a target is closed and replaced, whoever owns the target then. -/
theorem resignalled {arbiter : TargetArbiter} (harbiter : m.arbiters.lookup key = some arbiter)
    (new : TargetArbiter) (hchanged : new.changed = arbiter.changed) :
    Signals silent m (m.resignalled key new) where
  grows := grows_close _
  frugal := le_rfl
  limit := id
  parallel := .keep ⟨rfl, rfl⟩
  arbiters := by
    intro other arbiter' harbiter'
    rw [Manager.resignalled, Table.lookup_insert_apply] at harbiter'
    split_ifs at harbiter' with hkey
    · cases harbiter'
      exact ⟨arbiter, hkey ▸ harbiter, hchanged ▸ passes_close _ _⟩
    · exact ⟨arbiter', harbiter', .keep id⟩
  schedules _ keepalive' hkeepalive' :=
    ⟨keepalive', hkeepalive', .keep fun _ hcurrent ↦ Or.inr ⟨hcurrent, rfl⟩⟩

/-- The channel of a schedule is closed and replaced, whatever the schedule is then. -/
theorem rescheduled {keepalive : KeepaliveJob}
    (hkeepalive : m.keepalives.lookup key = some keepalive) (new : KeepaliveJob) :
    Signals silent m { m with
      closed := keepalive.scheduleChanged :: m.closed
      nextChannel := m.nextChannel + 1
      keepalives := m.keepalives.insert key { new with scheduleChanged := m.nextChannel } } where
  grows := grows_close _
  frugal := le_rfl
  limit := id
  parallel := .keep ⟨rfl, rfl⟩
  arbiters _ arbiter' harbiter' := ⟨arbiter', harbiter', .keep id⟩
  schedules := by
    intro other keepalive' hkeepalive'
    rw [Table.lookup_insert_apply] at hkeepalive'
    split_ifs at hkeepalive' with hkey
    · cases hkeepalive'
      exact ⟨keepalive, hkey ▸ hkeepalive, passes_close _ _⟩
    · exact ⟨keepalive', hkeepalive', .keep fun _ hcurrent ↦ Or.inr ⟨hcurrent, rfl⟩⟩

/-- Slots are given back or the limit is changed, and the channel for the slots is closed and
replaced. -/
theorem signalParallelLocked {slotsInUse currentProcesses : Nat} {maxParallel : Int}
    (hslots : slotsInUse ≤ m.slotsInUse) (hlimit : 0 < m.maxParallel → 0 < maxParallel) :
    Signals silent m
      { m with slotsInUse, currentProcesses, maxParallel }.signalParallelLocked where
  grows := grows_close _
  frugal := hslots
  limit := hlimit
  parallel := passes_close _ _
  arbiters _ arbiter' harbiter' := ⟨arbiter', harbiter', .keep id⟩
  schedules _ keepalive' hkeepalive' :=
    ⟨keepalive', hkeepalive', .keep fun _ hcurrent ↦ Or.inr ⟨hcurrent, rfl⟩⟩

/-! ### Sections -/

/-- `releaseTargetLocked`. -/
theorem releaseTargetLocked {owner : RequestOwner}
    (h : m.releaseTargetLocked key owner runID = some m') : Signals silent m m' := by
  obtain ⟨arbiter, harbiter, ⟨-, rfl⟩ | ⟨-, rfl⟩⟩ := releaseTargetLocked_cases h
  · exact .resignalled harbiter _ rfl
  · exact .refl _

/-- `signalTargetLocked`. -/
theorem signalTargetLocked (h : m.signalTargetLocked key = some m') : Signals silent m m' := by
  obtain ⟨arbiter, harbiter, rfl⟩ := signalTargetLocked_cases h
  exact .resignalled harbiter _ rfl

/-- A queue job does not matter. -/
theorem setJob (key : String) (job : Job) : Signals silent m (m.setJob key job) :=
  .of_fields rfl rfl rfl rfl rfl rfl

/-- A keepalive job is stopped. -/
theorem setKeepalive_of_stopped {keepalive : KeepaliveJob}
    (hkeepalive : m.keepalives.lookup key = some keepalive) {new : KeepaliveJob}
    (hchanged : new.scheduleChanged = keepalive.scheduleChanged) (hstopped : new.state = .stopped) :
    Signals silent m (m.setKeepalive key new) :=
  .setKeepalive hkeepalive new hchanged fun _ hcurrent ↦ absurd hstopped hcurrent.2

/-- The keepalive job of a run that is on changes its state and stays on. -/
theorem setKeepalive_state {keepalive : KeepaliveJob}
    (hkeepalive : m.keepalives.lookup key = some keepalive) (hcurrent : keepalive.Current runID)
    (state : KeepaliveState) : Signals silent m (m.setKeepalive key { keepalive with state }) := by
  refine .setKeepalive hkeepalive _ rfl ?_
  intro other hother
  exact Or.inr ⟨⟨hother.1, hcurrent.2⟩, rfl⟩

/-- The keepalive job of a run is written by its own worker. -/
theorem setKeepalive_own {keepalive new : KeepaliveJob}
    (hkeepalive : m.keepalives.lookup key = some keepalive) (hcurrent : keepalive.Current runID)
    (hsilent : silent key runID) (hchanged : new.scheduleChanged = keepalive.scheduleChanged)
    (hrun : new.runID = keepalive.runID) : Signals silent m (m.setKeepalive key new) := by
  refine .setKeepalive hkeepalive _ hchanged ?_
  intro other hother
  obtain rfl : other = runID := hother.1.symm.trans (hrun.trans hcurrent.1)
  exact Or.inl hsilent

/-- Any number of stop operations. -/
theorem of_stops (h : Stops now m m') : Signals silent m m' := by
  induction h with
  | refl => exact .refl m
  | queue key _ hstop ih =>
    refine ih.trans ?_
    rcases stopQueueLocked_cases hstop with ⟨job, arbiter, -, harbiter, -, rfl⟩ | ⟨-, rfl⟩
    · refine Signals.trans ?_ (.callCancel _)
      refine (Signals.setJob key (stopJob job now)).trans (.resignalled ?_ arbiter rfl)
      exact harbiter
    · exact .refl _
  | keepalive key _ hstop ih =>
    refine ih.trans ?_
    rcases stopKeepaliveLocked_cases hstop with
      ⟨keepalive, arbiter, hkeepalive, harbiter, -, rfl⟩ | ⟨-, rfl⟩
    · have hchanged : (stopKeepaliveJob keepalive now).scheduleChanged =
          keepalive.scheduleChanged := by
        unfold stopKeepaliveJob
        split_ifs <;> rfl
      have hstopped : (stopKeepaliveJob keepalive now).state = .stopped := by
        unfold stopKeepaliveJob
        split_ifs with hstate
        · rfl
        · simpa using hstate
      refine Signals.trans ?_ (.callCancel _)
      refine (Signals.setKeepalive_of_stopped hkeepalive hchanged hstopped).trans
        (.resignalled ?_ arbiter rfl)
      exact harbiter
    · exact .refl _
  | @adhoc m₁ key _ ih =>
    refine ih.trans ?_
    rcases stopAdhocLocked_cases m₁ key with ⟨arbiter, harbiter, -, heq⟩ | ⟨-, heq⟩
    · rw [heq]
      refine Signals.trans ?_ (.callCancel _)
      exact .setArbiter harbiter _ rfl id
    · rw [heq]
      exact .refl _

/-- Any number of rounds of the loop of `UpdateSettings`. -/
theorem of_reschedules {draw : String → Nat} (h : Reschedules now draw m m') :
    Signals silent m m' := by
  induction h with
  | refl => exact .refl m
  | round key _ hround ih =>
    refine ih.trans ?_
    rcases rescheduleKeepalive_cases hround with ⟨keepalive, nextRequest, hkeepalive, -, rfl⟩ | rfl
    · exact .rescheduled hkeepalive { keepalive with nextRequest }
    · exact .refl _

variable [Go.NetURL]

/-- `UpdateSettings`. -/
theorem updateSettings {keepaliveMin keepaliveMax : Duration} {maxParallel : Int}
    {successMessage : String} {draw : String → Nat}
    (h : m.updateSettings keepaliveMin keepaliveMax maxParallel successMessage now draw =
      some m') : Signals silent m m' := by
  obtain ⟨m₁, m₂, hloop, hlimit, hshown⟩ := updateSettings_cases h
  have hlast : Signals silent m₂ m' := by
    refine Signals.trans ?_ (.of_shown hshown)
    exact .of_fields rfl rfl rfl rfl rfl rfl
  have hfirst : Signals silent m m₁ := by
    refine Signals.trans ?_ (.of_reschedules hloop)
    exact .of_fields rfl rfl rfl rfl rfl rfl
  refine hfirst.trans (Signals.trans ?_ hlast)
  rcases hlimit with ⟨rfl, -⟩ | ⟨hpos, rfl⟩
  · exact .refl _
  · exact .signalParallelLocked le_rfl fun _ ↦ hpos

end Signals

/-- A slot is taken below the limit. -/
def Acquires (m m' : Manager) : Prop :=
  (m.slotsInUse : Int) < m.maxParallel ∧ m' = { m with slotsInUse := m.slotsInUse + 1 }

/-- What the section of `acquire` does to slots and channels. -/
theorem signals_of_acquire {outcome : SlotOutcome} (h : m.acquire = (m', outcome)) :
    Signals silent m m' ∨ m.Acquires m' := by
  rcases acquire_cases h with ⟨hlt, -, rfl⟩ | ⟨-, -, rfl⟩
  · exact Or.inr ⟨hlt, rfl⟩
  · exact Or.inl (.refl _)

end Manager

/-! ### Steps of the goroutines -/

section

variable [Go.NetURL] {m : Manager} {next self : Nat} {input : Input} {effect : Effect}

open Manager

/-- What a step of a queue worker does to slots and channels. -/
theorem QueueWorker.step_signals {w : QueueWorker} {silent : String → Nat → Prop}
    (h : w.step m self input = some effect) :
    Signals silent m effect.manager ∨ m.Acquires effect.manager := by
  unfold QueueWorker.step at h
  cases hpc : w.pc <;>
    simp only [hpc, Option.bind_eq_bind, Option.bind_eq_some_iff, Prod.exists] at h
  case acquire =>
    rcases hacquire : m.acquire with ⟨m₁, _ | changed⟩ <;> simp only [hacquire] at h <;> cases h <;>
      exact signals_of_acquire hacquire
  case acquireTarget =>
    left
    obtain ⟨m₁, outcome, hsection, h⟩ := h
    obtain ⟨job, arbiter, -, harbiter, hcases⟩ := acquireQueueTarget_cases hsection
    rcases hcases with ⟨-, rfl, rfl⟩ | ⟨-, -, rfl, rfl⟩ | ⟨-, -, rfl, rfl⟩ <;> cases h
    · exact .refl _
    · exact .setArbiter harbiter _ rfl fun _ hnone ↦ by cases hnone
    · exact .refl _
  case beginAttempt =>
    left
    obtain ⟨m₁, begun, hsection, h⟩ := h
    obtain ⟨job, arbiter, -, -, hcases⟩ := beginAttempt_cases hsection
    rcases hcases with ⟨-, -, rfl, hshown⟩ | ⟨-, rfl, rfl⟩ <;> cases h
    · refine Signals.trans ?_ (.of_shown hshown)
      exact .of_fields rfl rfl rfl rfl rfl rfl
    · exact .refl _
  case finishProcess =>
    left
    obtain ⟨m₁, hsection, h⟩ := h
    cases h
    refine Signals.trans ?_ (.of_shown (finishProcess_cases hsection))
    exact .signalParallelLocked (Nat.sub_le _ 1) id
  case markSuccess =>
    left
    obtain ⟨m₁, success, hsection, h⟩ := h
    obtain ⟨job, -, hcases⟩ := markSuccess_cases hsection
    rcases hcases with ⟨-, rfl, m₂, hrelease, hshown⟩ | ⟨-, rfl, hrelease⟩ <;> cases h
    · refine Signals.trans (Signals.trans ?_ (.releaseTargetLocked hrelease)) (.of_shown hshown)
      exact (Signals.setJob w.key _).trans (.callCancel _)
    · exact .releaseTargetLocked hrelease
  case markFailure =>
    left
    obtain ⟨m₁, valid, hsection, h⟩ := h
    obtain ⟨job, -, hcases⟩ := markFailure_cases hsection
    rcases hcases with ⟨-, rfl, m₂, hrelease, hshown⟩ | ⟨-, rfl, hrelease⟩ <;> cases h
    · refine Signals.trans (Signals.trans ?_ (.releaseTargetLocked hrelease)) (.of_shown hshown)
      exact .setJob w.key _
    · exact .releaseTargetLocked hrelease
  case releaseSlot =>
    left
    cases h
    show Signals silent m m.releaseSlot
    rw [releaseSlot_eq]
    exact .signalParallelLocked (Nat.sub_le _ 1) id
  case releaseTarget =>
    left
    obtain ⟨m₁, hsection, h⟩ := h
    cases h
    exact .releaseTargetLocked hsection
  case markCancelled =>
    left
    obtain ⟨m₁, hsection, h⟩ := h
    cases h
    obtain ⟨job, m₂, -, hrelease, hcases⟩ := markQueueCancelled_cases hsection
    refine (Signals.releaseTargetLocked hrelease).trans ?_
    rcases hcases with ⟨-, m₃, hsignal, hshown⟩ | ⟨-, rfl⟩
    · refine Signals.trans (Signals.trans ?_ (.signalTargetLocked hsignal)) (.of_shown hshown)
      exact .setJob w.key _
    · exact .refl _
  case finishWorker =>
    left
    obtain ⟨m₁, hsection, h⟩ := h
    cases h
    rcases finishQueueWorker_cases hsection with ⟨job, -, -, hshown⟩ | ⟨-, rfl⟩
    · refine Signals.trans ?_ (.of_shown hshown)
      exact .setJob w.key _
    · exact .refl _
  case awaitTarget | awaitSlot =>
    obtain ⟨_, -, h⟩ := h
    cases h
    exact Or.inl (.refl _)
  case running | notifySuccess | checkContext | workerDone =>
    cases h
    exact Or.inl (.of_fields rfl rfl rfl rfl rfl rfl)
  case exited => cases h

/-- What a step of a keepalive worker does to slots and channels: it may silently reschedule its own
run. -/
theorem KeepaliveWorker.step_signals {w : KeepaliveWorker} {silent : String → Nat → Prop}
    (hsilent : w.view.live = true → silent w.key w.runID) (h : w.step m self input = some effect) :
    Signals silent m effect.manager ∨ m.Acquires effect.manager := by
  unfold KeepaliveWorker.step at h
  cases hpc : w.pc <;>
    simp only [hpc, Option.bind_eq_bind, Option.bind_eq_some_iff, Prod.exists] at h
  case acquire =>
    rcases hacquire : m.acquire with ⟨m₁, _ | changed⟩ <;> simp only [hacquire] at h <;> cases h <;>
      exact signals_of_acquire hacquire
  case beginRequest =>
    left
    obtain ⟨m₁, outcome, hsection, h⟩ := h
    have hsignals : Signals silent m m₁ := by
      obtain ⟨keepalive, job, arbiter, hkeepalive, -, -, hcases⟩ :=
        beginKeepaliveRequest_cases hsection
      rcases hcases with ⟨-, -, rfl⟩ | ⟨hcurrent, -, rfl | ⟨state, -, hshown⟩⟩
      · exact .refl _
      · exact .refl _
      · exact (Signals.setKeepalive_state hkeepalive hcurrent state).trans (.of_shown hshown)
    cases outcome <;> cases h <;> exact hsignals
  case confirmRequest =>
    left
    have hsilent := hsilent (by simp [view, hpc])
    obtain ⟨m₁, outcome, hsection, h⟩ := h
    have hsignals : Signals silent m m₁ := by
      obtain ⟨keepalive, job, arbiter, hkeepalive, -, harbiter, hcases⟩ :=
        confirmKeepaliveRequest_cases hsection
      rcases hcases with ⟨-, -, rfl⟩ | ⟨hcurrent, -, -, rfl | ⟨state, -, hshown⟩⟩ |
        ⟨hcurrent, -, -, hnone, hshown⟩
      · exact .refl _
      · exact .refl _
      · exact (Signals.setKeepalive_state hkeepalive hcurrent state).trans (.of_shown hshown)
      · refine Signals.trans ?_ (.of_shown hshown)
        refine (Signals.setArbiter harbiter { arbiter with
          owner := .keepalive, ownerRunID := w.runID } rfl fun _ hnone ↦ by cases hnone).trans ?_
        refine Signals.trans (Signals.setKeepalive_own ?_ hcurrent hsilent ?_ ?_)
          (.of_fields rfl rfl rfl rfl rfl rfl)
        · exact hkeepalive
        · rfl
        · rfl
    cases outcome <;> cases h <;> exact hsignals
  case releaseSlot changed =>
    left
    have hsignals : Signals silent m m.releaseSlot := by
      rw [releaseSlot_eq]
      exact .signalParallelLocked (Nat.sub_le _ 1) id
    cases changed <;> cases h <;> exact hsignals
  case finishProcess =>
    left
    obtain ⟨m₁, hsection, h⟩ := h
    cases h
    refine Signals.trans ?_ (.of_shown (finishProcess_cases hsection))
    exact .signalParallelLocked (Nat.sub_le _ 1) id
  case finishRequest =>
    left
    have hsilent := hsilent (by simp [view, hpc])
    obtain ⟨m₁, valid, hsection, h⟩ := h
    cases h
    obtain ⟨keepalive, hkeepalive, hcases⟩ := finishKeepaliveRequest_cases hsection
    rcases hcases with ⟨hcurrent, -, m₂, hrelease, hshown⟩ | ⟨-, -, hrelease⟩
    · refine Signals.trans (Signals.trans ?_ (.releaseTargetLocked hrelease)) (.of_shown hshown)
      refine .setKeepalive_own hkeepalive hcurrent hsilent ?_ ?_ <;>
        · unfold KeepaliveJob.judged
          split_ifs <;> rfl
    · exact .releaseTargetLocked hrelease
  case waitNext =>
    split at h <;> cases h <;> exact Or.inl (.refl _)
  case awaitNext =>
    split_ifs at h
    · cases h
      exact Or.inl (.refl _)
    · rw [Option.bind_eq_some_iff] at h
      obtain ⟨_, -, h⟩ := h
      cases h
      exact Or.inl (.refl _)
  case markCancelled =>
    left
    obtain ⟨m₁, hsection, h⟩ := h
    cases h
    obtain ⟨keepalive, m₂, hkeepalive, hrelease, hcases⟩ := markKeepaliveCancelled_cases hsection
    refine (Signals.releaseTargetLocked hrelease).trans ?_
    rcases hcases with ⟨-, m₃, hsignal, hshown⟩ | ⟨-, rfl⟩
    · rw [← releaseTargetLocked_keepalives hrelease] at hkeepalive
      refine Signals.trans (Signals.trans ?_ (.signalTargetLocked hsignal)) (.of_shown hshown)
      exact .setKeepalive_of_stopped hkeepalive rfl rfl
    · exact .refl _
  case finishWorker =>
    left
    obtain ⟨m₁, hsection, h⟩ := h
    cases h
    rcases finishKeepaliveWorker_cases hsection with ⟨keepalive, hkeepalive, -, hshown⟩ | ⟨-, rfl⟩
    · refine Signals.trans ?_ (.of_shown hshown)
      exact .setKeepalive hkeepalive _ rfl fun _ hcurrent ↦ Or.inr ⟨hcurrent, rfl⟩
    · exact .refl _
  case awaitTarget | awaitSlot =>
    obtain ⟨_, -, h⟩ := h
    cases h
    exact Or.inl (.refl _)
  case running | checkContext | workerDone =>
    cases h
    exact Or.inl (.of_fields rfl rfl rfl rfl rfl rfl)
  case exited => cases h

omit [Go.NetURL] in
/-- A process and a slot are given back. -/
theorem Manager.Signals.giveBack {silent : String → Nat → Prop}
    (slotAcquired processStarted : Bool) :
    Signals silent m ((m.giveBackProcess processStarted).giveBackSlot slotAcquired) := by
  refine @Signals.trans _ _ (m.giveBackProcess processStarted) _ ?_ ?_
  · unfold giveBackProcess
    split_ifs <;> exact .of_fields rfl rfl rfl rfl rfl rfl
  · unfold giveBackSlot
    split_ifs
    · exact .signalParallelLocked (Nat.sub_le _ 1) id
    · exact .refl _

/-- What a step of a `RunAdhoc` call does to slots and channels. -/
theorem AdhocCall.step_signals {call : AdhocCall} {silent : String → Nat → Prop}
    (h : call.step m self input = some effect) :
    Signals silent m effect.manager ∨ m.Acquires effect.manager := by
  unfold AdhocCall.step at h
  cases hpc : call.pc <;>
    simp only [hpc, Option.bind_eq_bind, Option.bind_eq_some_iff, Prod.exists] at h
  case acquire =>
    rcases hacquire : m.acquire with ⟨m₁, _ | changed⟩ <;> simp only [hacquire] at h <;> cases h <;>
      exact signals_of_acquire hacquire
  case confirm =>
    left
    obtain ⟨m₁, confirmed, hsection, h⟩ := h
    have hsignals : Signals silent m m₁ := by
      rcases confirmAdhoc_cases hsection with ⟨-, arbiter, -, -, hshown⟩ | ⟨-, rfl, -⟩
      · refine Signals.trans ?_ (.of_shown hshown)
        exact .of_fields rfl rfl rfl rfl rfl rfl
      · exact .refl _
    split_ifs at h <;> cases h <;> exact hsignals
  case finishRequest slotAcquired processStarted result =>
    left
    obtain ⟨m₁, hsection, h⟩ := h
    cases h
    refine (Signals.callCancel (some call.context)).trans ?_
    rcases finishAdhocRequest_cases hsection with ⟨arbiter, harbiter, -, hshown⟩ | ⟨-, hshown⟩
    · refine Signals.trans (Signals.trans (.giveBack slotAcquired processStarted) ?_)
        (.of_shown hshown)
      refine @Signals.resignalled _ _ _ arbiter ?_ _ rfl
      simpa using harbiter
    · exact (Signals.giveBack _ _).trans (.of_shown hshown)
  case awaitSlot =>
    obtain ⟨_, -, h⟩ := h
    cases h
    exact Or.inl (.refl _)
  case checkContext | running | workerDone =>
    cases h
    exact Or.inl (.of_fields rfl rfl rfl rfl rfl rfl)
  case returned => cases h

/-- What a step of a `Start` or `StartKeepalive` call does to slots and channels: a run that it
starts has a number that no earlier run has. -/
theorem StartCall.step_signals {call : StartCall} {silent : String → Nat → Prop}
    (hsilent : ∀ (key : String) (keepalive : KeepaliveJob),
      m.keepalives.lookup key = some keepalive → silent key (keepalive.runID + 1))
    (h : call.step m next self input = some effect) : Signals silent m effect.manager := by
  cases StartCall.step_takes h with
  | prepared key m₁ outcome pc hsection =>
    obtain ⟨m₂, hstops, hshown⟩ := prepareMode_cases hsection
    exact (Signals.of_stops hstops).trans (.of_shown hshown)
  | waited pc => exact .refl _
  | rejected key rest m₁ outcome hpc hremaining hsection =>
    rw [StartCall.conclude_manager]
    cases hkind : call.kind with
    | queue subscriber =>
      rw [hkind] at hsection
      rcases rejectQueue_cases hsection with ⟨rfl, -⟩ | ⟨target, job, -, -, -, -, -, rfl⟩
      · exact .refl _
      · exact .setJob key _
    | keepalive =>
      rw [hkind] at hsection
      cases hsection
      exact .refl _
  | committed key rest m₁ outcome hpc hremaining hsection =>
    rw [StartCall.conclude_manager]
    cases hkind : call.kind with
    | queue subscriber =>
      rw [hkind] at hsection
      rcases commitQueue_cases hsection with ⟨rfl, -⟩ | ⟨target, job, -, -, -, -, rfl⟩ |
        ⟨target, job, keepalive, arbiter, -, -, -, -, harbiter, -, -, -, -, hshown⟩
      · exact .refl _
      · exact .setJob key _
      · refine Signals.trans ?_ (.of_shown hshown)
        refine (Signals.setJob key _).trans (Signals.trans (.resignalled ?_ arbiter rfl)
          (.of_fields rfl rfl rfl rfl rfl rfl))
        exact harbiter
    | keepalive =>
      rw [hkind] at hsection
      rcases commitKeepalive_cases hsection with ⟨rfl, -⟩ |
        ⟨target, job, keepalive, arbiter, -, -, -, hkeepalive, harbiter, -, -, -, -, hshown⟩
      · exact .refl _
      · refine Signals.trans ?_ (.of_shown hshown)
        refine (Signals.setKeepalive hkeepalive _ ?_ ?_).trans (Signals.trans
          (.resignalled ?_ arbiter rfl) (.of_fields rfl rfl rfl rfl rfl rfl))
        · rfl
        · rintro runID ⟨rfl, -⟩
          exact Or.inl (hsilent key keepalive hkeepalive)
        · exact harbiter

/-! ### Steps of the system -/

namespace System

omit [Go.NetURL] in
/-- The keepalive runs that a step may silently reschedule: the one whose worker moves, and new
ones. -/
def Silent (s : System) (label : Label) (key : String) (runID : Nat) : Prop :=
  (∃ self input w, label = .advance self input ∧ s.procs[self]? = some (.keepalive w) ∧
    w.view.live = true ∧ w.key = key ∧ w.runID = runID) ∨
  ∃ keepalive, s.manager.keepalives.lookup key = some keepalive ∧ runID = keepalive.runID + 1

variable {s s' : System} {label : Label}

/-- What a step does to slots and channels, unless it takes a slot below the limit or edits a
target. -/
theorem step_signals (htabled : s.manager.Tabled) (hlawful : s.Lawful label)
    (hstep : s.step label = some s') :
    Signals (s.Silent label) s.manager s'.manager ∨ s.manager.Acquires s'.manager ∨
      s.manager.Edited s'.manager := by
  cases label
  case stop names now =>
    simp only [System.step, Option.map_eq_some_iff] at hstep
    obtain ⟨⟨m₁, result⟩, hsection, rfl⟩ := hstep
    obtain ⟨m₂, hstops, hshown, -⟩ := stop_cases hsection
    exact Or.inl ((Signals.of_stops hstops).trans (.of_shown hshown))
  case runAdhoc id now =>
    simp only [System.step, Option.bind_eq_bind, Option.bind_eq_some_iff, Option.pure_def,
      Prod.exists] at hstep
    obtain ⟨m₁, reserved, hsection, hstep⟩ := hstep
    have hsignals : Signals (s.Silent (.runAdhoc id now)) s.manager m₁ := by
      rcases reserveAdhoc_cases hsection with ⟨rfl, -⟩ |
        ⟨key, arbiter, -, -, -, -, harbiter, -, hshown⟩
      · exact .refl _
      · refine Signals.trans ?_ (.of_shown hshown)
        refine Signals.trans (.setArbiter harbiter _ ?_ ?_) (.of_fields rfl rfl rfl rfl rfl rfl)
        · rfl
        · exact fun _ hnone ↦ by cases hnone
    cases reserved <;> cases hstep <;> exact Or.inl hsignals
  case createTarget target persist =>
    simp only [System.step, Option.map_eq_some_iff] at hstep
    obtain ⟨⟨m₁, result⟩, hsection, rfl⟩ := hstep
    exact Or.inr (Or.inr (.createTarget htabled hsection))
  case updateTarget id target now =>
    cases target with
    | none =>
      cases hstep
      exact Or.inl (.refl _)
    | some target =>
      obtain ⟨_, _, hsection, -⟩ := editCall_manager hstep
      obtain ⟨m₂, hstops, hshown⟩ := stopTarget_cases hsection
      exact Or.inl ((Signals.of_stops hstops).trans (.of_shown hshown))
  case deleteTarget id now =>
    obtain ⟨_, _, hsection, -⟩ := editCall_manager hstep
    obtain ⟨m₂, hstops, hshown⟩ := stopTarget_cases hsection
    exact Or.inl ((Signals.of_stops hstops).trans (.of_shown hshown))
  case updateSettings =>
    simp only [System.step, Option.map_eq_some_iff] at hstep
    obtain ⟨m₁, hsection, rfl⟩ := hstep
    exact Or.inl (.updateSettings hsection)
  case observe buffer =>
    simp only [System.step, Option.map_eq_some_iff] at hstep
    obtain ⟨⟨m₁, snapshot, id⟩, hsection, rfl⟩ := hstep
    obtain ⟨_, rfl⟩ := observe_cases hsection
    exact Or.inl (.of_fields rfl rfl rfl rfl rfl rfl)
  case beginShutdown =>
    cases hstep
    left
    show Signals _ s.manager s.manager.beginShutdown
    unfold beginShutdown
    split_ifs <;> exact .of_fields rfl rfl rfl rfl rfl rfl
  case cancelAdhoc call =>
    simp only [System.step] at hstep
    split at hstep
    · rename_i adhoc _
      cases hstep
      exact Or.inl (Signals.callCancel (m := s.manager) (some adhoc.context))
    · cases hstep
  case advance self input =>
    obtain ⟨proc, effect, hproc, heffect, rfl⟩ := step_advance hstep
    cases proc with
    | queue worker => exact (QueueWorker.step_signals heffect).imp_right Or.inl
    | keepalive worker =>
      refine (KeepaliveWorker.step_signals ?_ heffect).imp_right Or.inl
      exact fun hlive ↦ Or.inl ⟨self, input, worker, rfl, hproc, hlive, rfl, rfl⟩
    | adhoc call => exact (AdhocCall.step_signals heffect).imp_right Or.inl
    | start call =>
      refine Or.inl (StartCall.step_signals ?_ heffect)
      exact fun key keepalive hkeepalive ↦ Or.inr ⟨keepalive, hkeepalive, rfl⟩
    | edit call =>
      refine Or.inr (Or.inr (.editCall_step htabled ?_ heffect))
      rintro id target rfl
      exact hlawful id target hproc
    | wait call =>
      left
      simp only [Proc.step, WaitCall.step] at heffect
      split at heffect
      · cases heffect
      · split_ifs at heffect <;> cases heffect <;> exact .refl _
  case start | startKeepalive | setMessenger | closeSubscription | receive | wait | cancelRoot =>
    cases hstep
    exact Or.inl (.of_fields rfl rfl rfl rfl rfl rfl)

end System

end

end CodexQueueBot.Jobs
