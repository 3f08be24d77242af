import CodexQueueBot.Jobs.Exclusion
import CodexQueueBot.Jobs.Signals

/-!
# The accounts of slots and processes

The manager counts the slots in use and the running processes. In every reachable state the counts
are those of the goroutines between acquisition and release, as `view` reads them off the program
points, so that the guards of the decrements never suppress one. Slots are taken only below the
limit: along any stretch of a run in which the limit is `M`, the slots in use exceed neither `M` nor
what they were at its beginning.
-/

set_option autoImplicit false
set_option relaxedAutoImplicit false

namespace CodexQueueBot.Jobs

open Lib

/-- A goroutine whose next section gives a slot back: `finishProcess`, `releaseSlot`, or
`finishAdhocRequest` of a call that has acquired one. -/
def Proc.returnsSlot : Proc → Bool
  | .queue ⟨_, _, _, .finishProcess _ _ _⟩ | .queue ⟨_, _, _, .releaseSlot⟩ => true
  | .keepalive ⟨_, _, _, .finishProcess _⟩ | .keepalive ⟨_, _, _, .releaseSlot _⟩ => true
  | .adhoc ⟨_, _, _, _, _, .finishRequest slotAcquired _ _⟩ => slotAcquired
  | _ => false

/-- A goroutine whose next section gives a process back: `finishProcess`, or `finishAdhocRequest` of
a call that has started one. -/
def Proc.returnsProcess : Proc → Bool
  | .queue ⟨_, _, _, .finishProcess _ _ _⟩ => true
  | .keepalive ⟨_, _, _, .finishProcess _⟩ => true
  | .adhoc ⟨_, _, _, _, _, .finishRequest _ processStarted _⟩ => processStarted
  | _ => false

/-- What gives a slot back has one. -/
theorem Proc.slot_of_returnsSlot {proc : Proc} (h : proc.returnsSlot = true) :
    proc.view.slot = true := by
  unfold returnsSlot at h
  split at h <;> first | exact h | rfl | cases h

/-- What gives a process back has one. -/
theorem Proc.process_of_returnsProcess {proc : Proc} (h : proc.returnsProcess = true) :
    proc.view.process = true := by
  unfold returnsProcess at h
  split at h <;> first | exact h | rfl | cases h

namespace System

/-- The counts of slots and processes are right, and no guard of a decrement suppresses it. -/
structure Accounted (s : System) : Prop where
  slots : s.manager.slotsInUse = s.procs.countP (·.view.slot)
  processes : s.manager.currentProcesses = s.procs.countP (·.view.process)
  processes_le : s.manager.currentProcesses ≤ s.manager.slotsInUse
  slots_pos : ∀ (i : Nat) (proc : Proc), s.procs[i]? = some proc → proc.returnsSlot = true →
    0 < s.manager.slotsInUse
  processes_pos : ∀ (i : Nat) (proc : Proc), s.procs[i]? = some proc →
    proc.returnsProcess = true → 0 < s.manager.currentProcesses

variable {s s' : System} {label : Label}

/-- A valid ledger is accounted for. -/
theorem accounted_of_valid (hvalid : s.ledger.Valid) : s.Accounted := by
  have hslots : s.manager.slotsInUse = s.procs.countP (·.view.slot) :=
    hvalid.slots.trans List.countP_map
  have hprocesses : s.manager.currentProcesses = s.procs.countP (·.view.process) :=
    hvalid.processes.trans List.countP_map
  refine ⟨hslots, hprocesses, ?_, ?_, ?_⟩
  · rw [hslots, hprocesses]
    refine List.countP_mono_left fun proc hmem hprocess ↦ ?_
    obtain ⟨i, hproc⟩ := List.mem_iff_getElem?.mp hmem
    exact (hvalid.equipped i _ (view_getElem? hproc) hprocess).1
  · intro i proc hproc hreturns
    rw [hslots]
    exact Pool.countP_pos_of_getElem? hproc (Proc.slot_of_returnsSlot hreturns)
  · intro i proc hproc hreturns
    rw [hprocesses]
    exact Pool.countP_pos_of_getElem? hproc (Proc.process_of_returnsProcess hreturns)

variable [Go.NetURL]

/-- A step that takes a slot is taken below the limit. -/
theorem lt_of_slots_lt (h : s.Reachable) (hlawful : s.Lawful label)
    (hstep : s.step label = some s') (hlt : s.manager.slotsInUse < s'.manager.slotsInUse) :
    (s.manager.slotsInUse : Int) < s.manager.maxParallel ∧
      s'.manager.slotsInUse = s.manager.slotsInUse + 1 := by
  rcases step_signals h.tabled hlawful hstep with hsignals | ⟨hbelow, heq⟩ | hedited
  · exact absurd hlt (Nat.not_lt.mpr hsignals.frugal)
  · exact ⟨hbelow, congrArg Manager.slotsInUse heq⟩
  · exact absurd hlt (Nat.not_lt.mpr hedited.slots.le)

/-- A step under a limit `M`. -/
def Under (M : Int) (s : System) (label : Label) : Prop :=
  s.Lawful label ∧ s.manager.maxParallel = M

/-- Slots and processes are accounted for in every reachable state. Slots are taken one at a time
and only below the limit, so that along a run under a limit `M` they exceed neither `M` nor what
they were before. -/
theorem slots_accounted (h : s.Reachable) :
    s.Accounted ∧
    (∀ (label : Label) (s' : System), s.Lawful label → s.step label = some s' →
      s.manager.slotsInUse < s'.manager.slotsInUse →
      (s.manager.slotsInUse : Int) < s.manager.maxParallel) ∧
    ∀ (M : Int) (s' : System), Steps step (Under M) s s' →
      (s'.manager.slotsInUse : Int) ≤ max (s.manager.slotsInUse : Int) M := by
  refine ⟨accounted_of_valid h.valid, ?_, ?_⟩
  · intro label s' hlawful hstep hlt
    exact (lt_of_slots_lt h hlawful hstep hlt).1
  · intro M s' hrun
    have hboth : s'.Reachable ∧
        (s'.manager.slotsInUse : Int) ≤ max (s.manager.slotsInUse : Int) M := by
      refine hrun.invariant (P := fun s' ↦ s'.Reachable ∧
        (s'.manager.slotsInUse : Int) ≤ max (s.manager.slotsInUse : Int) M) ?_ ⟨h, le_max_left _ _⟩
      rintro s₁ s₂ label ⟨hreach, hle⟩ ⟨hlawful, hlimit⟩ hstep
      refine ⟨hreach.step hlawful hstep, ?_⟩
      rcases Nat.lt_or_ge s₁.manager.slotsInUse s₂.manager.slotsInUse with hlt | hge
      · obtain ⟨hbelow, hslots⟩ := lt_of_slots_lt hreach hlawful hstep hlt
        have hlimit' : (s₂.manager.slotsInUse : Int) ≤ M := by omega
        exact hlimit'.trans (le_max_right _ _)
      · exact le_trans (by exact_mod_cast hge) hle
    exact hboth.2

omit [Go.NetURL] in
/-- While a queue run on `a` is in its attempt, the one slot is in use and cannot be exceeded. -/
theorem slots_accounted_queueAttempt :
    ∃ s : System, @Reachable Go.NetURL.emptyOnly s ∧ s.manager.slotsInUse = 1 ∧ s.Accounted ∧
      ∀ s' : System, Steps (@step Go.NetURL.emptyOnly) (Under 1) s s' →
        s'.manager.slotsInUse ≤ 1 := by
  let _ := Go.NetURL.emptyOnly
  obtain ⟨s, hreach, htest⟩ := exists_of_sample queueAttempt
    (fun s ↦ s.manager.slotsInUse = 1) (by decide +kernel)
  have hslots : s.manager.slotsInUse = 1 := by simpa using htest
  obtain ⟨haccounted, -, hrun⟩ := slots_accounted hreach
  refine ⟨s, hreach, hslots, haccounted, fun s' hsteps ↦ ?_⟩
  have hle := hrun 1 s' hsteps
  rw [hslots] at hle
  omega

end System

end CodexQueueBot.Jobs
