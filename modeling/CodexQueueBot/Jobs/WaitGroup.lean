import CodexQueueBot.Jobs.Starts

/-!
# The wait group and the gate

`Wait` waits for the counter `runWG`, which is incremented under the lock by whoever creates a
worker or accepts an ad-hoc request, and decremented by the last step of that goroutine. So it
counts the goroutines that are not through yet. New ones are only let in while the manager is not
shutting down, and a manager that is shutting down stays so.
-/

set_option autoImplicit false
set_option relaxedAutoImplicit false

namespace CodexQueueBot.Jobs

open Lib

/-- A worker or an ad-hoc request that has not called `Done` yet. -/
def Proc.pending : Proc → Bool
  | .queue w => w.pc ≠ .exited
  | .keepalive w => w.pc ≠ .exited
  | .adhoc call =>
    match call.pc with
    | .returned _ => false
    | _ => true
  | .start _ | .edit _ | .wait _ => false

/-- A goroutine that makes runner calls: a worker or an accepted `RunAdhoc` call. -/
def Proc.isRequest : Proc → Bool
  | .queue _ | .keepalive _ | .adhoc _ => true
  | .start _ | .edit _ | .wait _ => false

/-- A worker or an ad-hoc request at its first program point is pending. -/
theorem Proc.Newborn.pending {proc : Proc} (h : proc.Newborn) (hrequest : proc.isRequest = true) :
    proc.pending = true := by
  cases proc with
  | queue w =>
    have hpc : w.pc = .acquireTarget := h
    simp [Proc.pending, hpc]
  | keepalive w =>
    have hpc : w.pc = .beginRequest := h
    simp [Proc.pending, hpc]
  | adhoc call =>
    have hpc : call.pc = .acquire := h
    simp [Proc.pending, hpc]
  | start call | edit call | wait call => cases hrequest

/-- A live goroutine is pending. -/
theorem Proc.pending_of_live {proc : Proc} (h : proc.view.live = true) : proc.pending = true := by
  cases proc with
  | queue w =>
    cases hpc : w.pc <;> simp [view, QueueWorker.view, pending, hpc] at h ⊢
  | keepalive w =>
    cases hpc : w.pc <;> simp [view, KeepaliveWorker.view, pending, hpc] at h ⊢
  | adhoc call =>
    cases hpc : call.pc <;> simp [view, AdhocCall.view, pending, hpc] at h ⊢
  | start call | edit call | wait call => cases h

namespace Manager

variable {m m' : Manager} {key : String} {runID : Nat} {now : Time}

/-- The wait group, and whether the manager is shutting down. -/
def gate (m : Manager) : Nat × Bool :=
  (m.runWG, m.shuttingDown)

/-- A broadcast keeps the gate. -/
theorem Shown.gate (h : m.Shown m') : m'.gate = m.gate := by
  obtain ⟨_, _, rfl⟩ := h
  rfl

/-- A signal keeps the gate. -/
theorem gate_of_signal (h : m.signalTargetLocked key = some m') : m'.gate = m.gate := by
  obtain ⟨arbiter, -, rfl⟩ := signalTargetLocked_cases h
  rfl

/-- A release keeps the gate. -/
theorem gate_of_release {owner : RequestOwner}
    (h : m.releaseTargetLocked key owner runID = some m') : m'.gate = m.gate := by
  obtain ⟨arbiter, -, ⟨-, rfl⟩ | ⟨-, rfl⟩⟩ := releaseTargetLocked_cases h <;> rfl

/-- Cancelling a context keeps the gate. -/
theorem gate_callCancel (cancel : Option Nat) : (m.callCancel cancel).gate = m.gate := by
  cases cancel <;> rfl

/-- Stop operations keep the gate. -/
theorem Stops.gate (h : Stops now m m') : m'.gate = m.gate := by
  induction h with
  | refl => rfl
  | queue key _ hstop ih =>
    rcases stopQueueLocked_cases hstop with ⟨job, arbiter, -, -, -, rfl⟩ | ⟨-, rfl⟩
    · rw [gate_callCancel]
      exact ih
    · exact ih
  | keepalive key _ hstop ih =>
    rcases stopKeepaliveLocked_cases hstop with ⟨keepalive, arbiter, -, -, -, rfl⟩ | ⟨-, rfl⟩
    · rw [gate_callCancel]
      exact ih
    · exact ih
  | adhoc key _ ih =>
    rename_i m₁ _
    rcases stopAdhocLocked_cases m₁ key with ⟨arbiter, -, -, heq⟩ | ⟨-, heq⟩
    · rw [heq, gate_callCancel]
      exact ih
    · rw [heq]
      exact ih

/-- Rescheduling keeps the gate. -/
theorem Reschedules.gate {draw : String → Nat} (h : Reschedules now draw m m') :
    m'.gate = m.gate := by
  induction h with
  | refl => rfl
  | round key _ hround ih =>
    rcases rescheduleKeepalive_cases hround with ⟨keepalive, _, -, -, rfl⟩ | rfl
    · exact ih
    · exact ih

/-- Giving back the counts of an ad-hoc request keeps the gate. -/
theorem gate_giveBack (slotAcquired processStarted : Bool) :
    ((m.giveBackProcess processStarted).giveBackSlot slotAcquired).gate = m.gate := by
  unfold giveBackSlot giveBackProcess
  split_ifs <;> rfl

/-- After `New` the wait group is empty and the gate open. -/
theorem gate_new (settings : Settings) (targets : List Target) :
    (new settings targets).gate = (0, false) := by
  have hfold : ∀ (targets : List Target) (m : Manager),
      (targets.foldl addTarget m).gate = m.gate := by
    intro targets
    induction targets with
    | nil => exact fun _ ↦ rfl
    | cons target targets ih => exact fun m ↦ ih (m.addTarget target)
  exact hfold targets _

end Manager

/-! ### Steps of the goroutines -/

section

variable [Go.NetURL] {m : Manager} {next self : Nat} {input : Input} {effect : Effect}

open Manager

/-- How a step of a worker or of an ad-hoc request treats the gate: it is still pending and leaves
the gate alone, or it calls `Done`. -/
def Passes (m : Manager) (effect : Effect) : Prop :=
  (effect.manager.gate = m.gate ∧ effect.proc.pending = true) ∨
    (effect.manager.gate = (m.runWG - 1, m.shuttingDown) ∧ effect.proc.pending = false)

/-- A step of a queue worker and the gate. -/
theorem QueueWorker.step_gate {w : QueueWorker} (h : w.step m self input = some effect) :
    Passes m effect := by
  unfold QueueWorker.step at h
  cases hpc : w.pc <;>
    simp only [hpc, Option.bind_eq_bind, Option.bind_eq_some_iff, Prod.exists] at h
  case acquireTarget =>
    obtain ⟨m₁, outcome, hsection, h⟩ := h
    obtain ⟨job, arbiter, -, -, hcases⟩ := acquireQueueTarget_cases hsection
    rcases hcases with ⟨-, rfl, rfl⟩ | ⟨-, -, rfl, rfl⟩ | ⟨-, -, rfl, rfl⟩ <;> cases h <;>
      exact Or.inl ⟨rfl, rfl⟩
  case acquire =>
    rcases hacquire : m.acquire with ⟨m₁, outcome⟩
    simp only [hacquire] at h
    rcases acquire_cases hacquire with ⟨-, rfl, rfl⟩ | ⟨-, rfl, rfl⟩ <;> cases h <;>
      exact Or.inl ⟨rfl, rfl⟩
  case beginAttempt =>
    obtain ⟨m₁, begun, hsection, h⟩ := h
    obtain ⟨job, arbiter, -, -, ⟨-, -, rfl, hshown⟩ | ⟨-, rfl, rfl⟩⟩ :=
      beginAttempt_cases hsection <;> cases h
    · exact Or.inl ⟨hshown.gate, rfl⟩
    · exact Or.inl ⟨rfl, rfl⟩
  case finishProcess =>
    obtain ⟨m₁, hsection, h⟩ := h
    cases h
    refine Or.inl ⟨(finishProcess_cases hsection).gate, ?_⟩
    simp only [Proc.pending]
    split_ifs <;> rfl
  case markSuccess =>
    obtain ⟨m₁, success, hsection, h⟩ := h
    obtain ⟨job, -, ⟨-, rfl, m₂, hrelease, hshown⟩ | ⟨-, rfl, hrelease⟩⟩ :=
      markSuccess_cases hsection <;> cases h
    · refine Or.inl ⟨?_, rfl⟩
      rw [hshown.gate, gate_of_release hrelease, gate_callCancel]
      rfl
    · exact Or.inl ⟨gate_of_release hrelease, rfl⟩
  case markFailure =>
    obtain ⟨m₁, valid, hsection, h⟩ := h
    obtain ⟨job, -, ⟨-, rfl, m₂, hrelease, hshown⟩ | ⟨-, rfl, hrelease⟩⟩ :=
      markFailure_cases hsection <;> cases h
    · refine Or.inl ⟨?_, rfl⟩
      rw [hshown.gate, gate_of_release hrelease]
      rfl
    · exact Or.inl ⟨gate_of_release hrelease, rfl⟩
  case releaseTarget =>
    obtain ⟨m₁, hsection, h⟩ := h
    cases h
    exact Or.inl ⟨gate_of_release hsection, rfl⟩
  case markCancelled =>
    obtain ⟨m₁, hsection, h⟩ := h
    cases h
    obtain ⟨job, m₂, -, hrelease, ⟨-, m₃, hsignal, hshown⟩ | ⟨-, rfl⟩⟩ :=
      markQueueCancelled_cases hsection
    · refine Or.inl ⟨?_, rfl⟩
      rw [hshown.gate, gate_of_signal hsignal, ← gate_of_release hrelease]
      rfl
    · exact Or.inl ⟨gate_of_release hrelease, rfl⟩
  case finishWorker =>
    obtain ⟨m₁, hsection, h⟩ := h
    cases h
    rcases finishQueueWorker_cases hsection with ⟨job, -, -, hshown⟩ | ⟨-, rfl⟩
    · exact Or.inl ⟨hshown.gate, rfl⟩
    · exact Or.inl ⟨rfl, rfl⟩
  case awaitTarget | awaitSlot =>
    obtain ⟨_, -, h⟩ := h
    cases h
    refine Or.inl ⟨rfl, ?_⟩
    simp only [Proc.pending]
    split_ifs <;> rfl
  case checkContext =>
    cases h
    refine Or.inl ⟨rfl, ?_⟩
    simp only [Proc.pending]
    split_ifs <;> rfl
  case running | notifySuccess | releaseSlot =>
    cases h
    exact Or.inl ⟨rfl, rfl⟩
  case workerDone =>
    cases h
    exact Or.inr ⟨rfl, rfl⟩
  case exited => cases h

/-- A step of a keepalive worker and the gate. -/
theorem KeepaliveWorker.step_gate {w : KeepaliveWorker} (h : w.step m self input = some effect) :
    Passes m effect := by
  unfold KeepaliveWorker.step at h
  cases hpc : w.pc <;>
    simp only [hpc, Option.bind_eq_bind, Option.bind_eq_some_iff, Prod.exists] at h
  case beginRequest =>
    obtain ⟨m₁, outcome, hsection, h⟩ := h
    have hgate : m₁.gate = m.gate := by
      obtain ⟨keepalive, job, arbiter, -, -, -, hcases⟩ := beginKeepaliveRequest_cases hsection
      rcases hcases with ⟨-, -, rfl⟩ | ⟨-, -, rfl | ⟨state, -, hshown⟩⟩
      · rfl
      · rfl
      · exact hshown.gate
    cases outcome <;> cases h <;> exact Or.inl ⟨hgate, rfl⟩
  case acquire =>
    rcases hacquire : m.acquire with ⟨m₁, outcome⟩
    simp only [hacquire] at h
    rcases acquire_cases hacquire with ⟨-, rfl, rfl⟩ | ⟨-, rfl, rfl⟩ <;> cases h <;>
      exact Or.inl ⟨rfl, rfl⟩
  case confirmRequest =>
    obtain ⟨m₁, outcome, hsection, h⟩ := h
    have hgate : m₁.gate = m.gate := by
      obtain ⟨keepalive, job, arbiter, -, -, -, hcases⟩ := confirmKeepaliveRequest_cases hsection
      rcases hcases with ⟨-, -, rfl⟩ | ⟨-, -, -, rfl | ⟨state, -, hshown⟩⟩ | ⟨-, -, -, -, hshown⟩
      · rfl
      · rfl
      · exact hshown.gate
      · exact hshown.gate
    cases outcome <;> cases h <;> exact Or.inl ⟨hgate, rfl⟩
  case finishProcess =>
    obtain ⟨m₁, hsection, h⟩ := h
    cases h
    exact Or.inl ⟨(finishProcess_cases hsection).gate, rfl⟩
  case finishRequest =>
    obtain ⟨m₁, valid, hsection, h⟩ := h
    obtain ⟨keepalive, -, ⟨-, rfl, m₂, hrelease, hshown⟩ | ⟨-, rfl, hrelease⟩⟩ :=
      finishKeepaliveRequest_cases hsection <;> cases h
    · refine Or.inl ⟨?_, rfl⟩
      rw [hshown.gate, gate_of_release hrelease]
      rfl
    · exact Or.inl ⟨gate_of_release hrelease, rfl⟩
  case waitNext =>
    split at h <;> cases h
    · exact Or.inl ⟨rfl, rfl⟩
    · refine Or.inl ⟨rfl, ?_⟩
      simp only [Proc.pending]
      split_ifs <;> rfl
  case awaitNext =>
    split_ifs at h
    · cases h
      exact Or.inl ⟨rfl, rfl⟩
    · rw [Option.bind_eq_some_iff] at h
      obtain ⟨_, -, h⟩ := h
      cases h
      refine Or.inl ⟨rfl, ?_⟩
      simp only [Proc.pending]
      split_ifs <;> rfl
  case markCancelled =>
    obtain ⟨m₁, hsection, h⟩ := h
    cases h
    obtain ⟨keepalive, m₂, -, hrelease, ⟨-, m₃, hsignal, hshown⟩ | ⟨-, rfl⟩⟩ :=
      markKeepaliveCancelled_cases hsection
    · refine Or.inl ⟨?_, rfl⟩
      rw [hshown.gate, gate_of_signal hsignal, ← gate_of_release hrelease]
      rfl
    · exact Or.inl ⟨gate_of_release hrelease, rfl⟩
  case finishWorker =>
    obtain ⟨m₁, hsection, h⟩ := h
    cases h
    rcases finishKeepaliveWorker_cases hsection with ⟨keepalive, -, -, hshown⟩ | ⟨-, rfl⟩
    · exact Or.inl ⟨hshown.gate, rfl⟩
    · exact Or.inl ⟨rfl, rfl⟩
  case releaseSlot changed => cases changed <;> cases h <;> exact Or.inl ⟨rfl, rfl⟩
  case awaitTarget | awaitSlot =>
    obtain ⟨_, -, h⟩ := h
    cases h
    refine Or.inl ⟨rfl, ?_⟩
    simp only [Proc.pending]
    split_ifs <;> rfl
  case checkContext =>
    cases h
    refine Or.inl ⟨rfl, ?_⟩
    simp only [Proc.pending]
    split_ifs <;> rfl
  case running =>
    cases h
    exact Or.inl ⟨rfl, rfl⟩
  case workerDone =>
    cases h
    exact Or.inr ⟨rfl, rfl⟩
  case exited => cases h

/-- A step of an ad-hoc request and the gate. -/
theorem AdhocCall.step_gate {call : AdhocCall} (h : call.step m self input = some effect) :
    Passes m effect := by
  unfold AdhocCall.step at h
  cases hpc : call.pc <;>
    simp only [hpc, Option.bind_eq_bind, Option.bind_eq_some_iff, Prod.exists] at h
  case acquire =>
    rcases hacquire : m.acquire with ⟨m₁, outcome⟩
    simp only [hacquire] at h
    rcases acquire_cases hacquire with ⟨-, rfl, rfl⟩ | ⟨-, rfl, rfl⟩ <;> cases h <;>
      exact Or.inl ⟨rfl, rfl⟩
  case confirm =>
    obtain ⟨m₁, confirmed, hsection, h⟩ := h
    rcases confirmAdhoc_cases hsection with ⟨rfl, arbiter, -, -, hshown⟩ | ⟨rfl, rfl, -⟩ <;> cases h
    · exact Or.inl ⟨hshown.gate, rfl⟩
    · exact Or.inl ⟨rfl, rfl⟩
  case finishRequest =>
    obtain ⟨m₁, hsection, h⟩ := h
    cases h
    refine Or.inl ⟨?_, rfl⟩
    rw [← gate_callCancel (m := m) (some call.context)]
    rcases finishAdhocRequest_cases hsection with ⟨arbiter, -, -, hshown⟩ | ⟨-, hshown⟩
    · exact hshown.gate.trans (gate_giveBack _ _)
    · exact hshown.gate.trans (gate_giveBack _ _)
  case awaitSlot =>
    obtain ⟨_, -, h⟩ := h
    cases h
    refine Or.inl ⟨rfl, ?_⟩
    split_ifs <;> rfl
  case checkContext =>
    cases h
    refine Or.inl ⟨rfl, ?_⟩
    split_ifs <;> rfl
  case running =>
    cases h
    exact Or.inl ⟨rfl, rfl⟩
  case workerDone =>
    cases h
    exact Or.inr ⟨rfl, rfl⟩
  case returned => cases h

/-- A step of an edit keeps the gate. -/
theorem EditCall.step_gate {call : EditCall} (h : call.step m input = some effect) :
    effect.manager.gate = m.gate := by
  cases EditCall.step_takes h with
  | waited => rfl
  | updated id target m₁ result hsection =>
    rcases updateTarget_cases hsection with ⟨rfl, -⟩ | ⟨_, _, m₂, -, -, -, -, -, hmove, hshown⟩
    · rfl
    · rw [hshown.gate]
      rcases hmove with ⟨-, rfl⟩ | ⟨-, hrename⟩
      · rfl
      · obtain ⟨_, _, _, -, -, -, rfl⟩ := renameTarget_cases hrename
        rfl
  | deleted id m₁ result hsection =>
    rcases deleteTarget_cases hsection with ⟨rfl, -⟩ | ⟨_, -, -, -, hshown⟩
    · rfl
    · exact hshown.gate

/-- Only workers and ad-hoc requests become such. -/
theorem Proc.isRequest_of_step {proc : Proc} (h : proc.step m next self input = some effect)
    (hrequest : effect.proc.isRequest = true) : proc.isRequest = true := by
  cases proc with
  | queue w | keepalive w | adhoc call => rfl
  | start call =>
    obtain ⟨⟨_, hproc, -⟩, -⟩ := StartCall.step_proc h
    rw [hproc] at hrequest
    cases hrequest
  | edit call =>
    obtain ⟨⟨_, hproc⟩, -⟩ := EditCall.step_proc h
    rw [hproc] at hrequest
    cases hrequest
  | wait call =>
    obtain ⟨-, ⟨_, hproc⟩, -⟩ := WaitCall.step_proc h
    rw [hproc] at hrequest
    cases hrequest

/-- What a step of a goroutine can do to the gate: nothing, or it calls `Done`, or it creates a
worker, which it does only while the manager is not shutting down. -/
theorem Proc.step_gate {proc : Proc} (h : proc.step m next self input = some effect) :
    (effect.manager.gate = m.gate ∧ effect.proc.pending = proc.pending ∧ effect.spawned = []) ∨
    (effect.manager.gate = (m.runWG - 1, m.shuttingDown) ∧ proc.pending = true ∧
      effect.proc.pending = false ∧ effect.spawned = []) ∨
    (m.shuttingDown = false ∧ effect.manager.gate = (m.runWG + 1, false) ∧
      effect.proc.pending = proc.pending ∧
      ∃ worker, effect.spawned = [worker] ∧ worker.pending = true) := by
  have hpasses : Passes m effect → proc.pending = true → effect.spawned = [] →
      (effect.manager.gate = m.gate ∧ effect.proc.pending = proc.pending ∧ effect.spawned = []) ∨
      (effect.manager.gate = (m.runWG - 1, m.shuttingDown) ∧ proc.pending = true ∧
        effect.proc.pending = false ∧ effect.spawned = []) := by
    rintro (⟨hgate, hafter⟩ | ⟨hgate, hafter⟩) hbefore hspawned
    · exact Or.inl ⟨hgate, hafter.trans hbefore.symm, hspawned⟩
    · exact Or.inr ⟨hgate, hbefore, hafter, hspawned⟩
  cases proc with
  | queue w =>
    have hpc : w.pc ≠ .exited := by
      intro hpc
      simp [Proc.step, QueueWorker.step, hpc] at h
    obtain ⟨_, -, hspawned⟩ := QueueWorker.step_proc h
    exact (hpasses (QueueWorker.step_gate h) (by simpa [pending] using hpc) hspawned).imp_right
      Or.inl
  | keepalive w =>
    have hpc : w.pc ≠ .exited := by
      intro hpc
      simp [Proc.step, KeepaliveWorker.step, hpc] at h
    obtain ⟨_, -, hspawned⟩ := KeepaliveWorker.step_proc h
    exact (hpasses (KeepaliveWorker.step_gate h) (by simpa [pending] using hpc) hspawned).imp_right
      Or.inl
  | adhoc call =>
    have hpending : (Proc.adhoc call).pending = true := by
      cases hpc : call.pc <;> simp [Proc.step, AdhocCall.step, pending, hpc] at h ⊢
    obtain ⟨_, -, hspawned⟩ := AdhocCall.step_proc h
    exact (hpasses (AdhocCall.step_gate h) hpending hspawned).imp_right Or.inl
  | start call =>
    cases StartCall.step_acts h with
    | passes hstops hshown pc => exact Or.inl ⟨hshown.gate.trans hstops.gate, rfl, rfl⟩
    | refuses | joins => exact Or.inl ⟨rfl, rfl, rfl⟩
    | startsQueue _ _ hdown _ _ hshown =>
      refine Or.inr (Or.inr ⟨hdown, ?_, rfl, _, rfl, rfl⟩)
      rw [hshown.gate, ← hdown]
      rfl
    | startsKeepalive _ _ hdown _ hshown =>
      refine Or.inr (Or.inr ⟨hdown, ?_, rfl, _, rfl, rfl⟩)
      rw [hshown.gate, ← hdown]
      rfl
  | edit call =>
    obtain ⟨⟨pc, hproc⟩, hspawned, -⟩ := EditCall.step_proc h
    refine Or.inl ⟨EditCall.step_gate h, ?_, hspawned⟩
    rw [hproc]
    rfl
  | wait call =>
    obtain ⟨hmanager, ⟨call', hproc⟩, hspawned, -⟩ := WaitCall.step_proc h
    refine Or.inl ⟨by rw [hmanager], ?_, hspawned⟩
    rw [hproc]
    rfl

end

/-! ### Steps of the system -/

namespace System

variable {s s' : System} {label : Label}

/-- What a step can do to the gate and to the number of pending goroutines: nothing, one of them
calls `Done`, one is let in while the manager is not shutting down, or the manager shuts down. -/
inductive Gated (s s' : System) : Prop
  | keeps (hgate : s'.manager.gate = s.manager.gate)
      (hcount : s'.procs.countP Proc.pending = s.procs.countP Proc.pending)
      (hnew : ∀ (i : Nat) (proc : Proc), s.procs.length ≤ i → s'.procs[i]? = some proc →
        proc.pending = false)
  | leaves (hgate : s'.manager.gate = (s.manager.runWG - 1, s.manager.shuttingDown))
      (hcount : s'.procs.countP Proc.pending + 1 = s.procs.countP Proc.pending)
      (hnew : s'.procs.length = s.procs.length)
  | enters (hdown : s.manager.shuttingDown = false)
      (hgate : s'.manager.gate = (s.manager.runWG + 1, false))
      (hcount : s'.procs.countP Proc.pending = s.procs.countP Proc.pending + 1)
  | shuts (hgate : s'.manager.gate = (s.manager.runWG, true)) (hprocs : s'.procs = s.procs)
      (hmanager : s'.manager = s.manager.beginShutdown)

/-- A step that keeps the gate and the goroutines. -/
theorem Gated.of_same (hgate : s'.manager.gate = s.manager.gate) (hprocs : s'.procs = s.procs) :
    s.Gated s' := by
  refine .keeps hgate (by rw [hprocs]) ?_
  intro i proc hle hproc
  rw [hprocs, List.getElem?_eq_none hle] at hproc
  cases hproc

/-- A step that keeps the gate and adds a call. -/
theorem Gated.of_call {proc : Proc} (hgate : s'.manager.gate = s.manager.gate)
    (hprocs : s'.procs = s.procs ++ [proc]) (hpending : proc.pending = false) : s.Gated s' := by
  refine .keeps hgate ?_ ?_
  · rw [hprocs, List.countP_append, List.countP_singleton, hpending]
    rfl
  · intro i other hle hother
    rw [hprocs] at hother
    rcases Pool.getElem?_concat_cases hother with ⟨-, rfl⟩ | hold
    · exact hpending
    · rw [List.getElem?_eq_none hle] at hold
      cases hold

/-- A step of a goroutine and the gate. -/
theorem Gated.of_advance [Go.NetURL] {self : Nat} {input : Input} {proc : Proc} {effect : Effect}
    (hproc : s.procs[self]? = some proc)
    (heffect : proc.step s.manager s.procs.length self input = some effect) :
    s.Gated (s.apply self effect) := by
  have hprocs : (s.apply self effect).procs = s.procs.set self effect.proc ++ effect.spawned := rfl
  rcases Proc.step_gate heffect with ⟨hgate, hafter, hspawned⟩ |
    ⟨hgate, hbefore, hafter, hspawned⟩ | ⟨hdown, hgate, hafter, worker, hspawned, hworker⟩
  · rw [hspawned, List.append_nil] at hprocs
    refine .keeps hgate ?_ ?_
    · rw [hprocs, Pool.countP_set_of_eq hproc hafter]
    · intro i other hle hother
      rw [hprocs, List.getElem?_eq_none (by rwa [List.length_set])] at hother
      cases hother
  · rw [hspawned, List.append_nil] at hprocs
    refine .leaves hgate ?_ ?_
    · rw [hprocs, Pool.countP_set_of_loss hproc hbefore hafter]
    · rw [hprocs, List.length_set]
  · refine .enters hdown hgate ?_
    rw [hprocs, hspawned, List.countP_append, List.countP_singleton, hworker,
      Pool.countP_set_of_eq hproc hafter]
    rfl

/-- Every step is gated. -/
theorem step_gated [Go.NetURL] (hstep : s.step label = some s') : s.Gated s' := by
  cases label
  case start | startKeepalive | wait =>
    cases hstep
    exact .of_call rfl rfl rfl
  case stop names now =>
    simp only [System.step, Option.map_eq_some_iff] at hstep
    obtain ⟨⟨m₁, result⟩, hsection, rfl⟩ := hstep
    obtain ⟨m₂, hstops, hshown, -⟩ := Manager.stop_cases hsection
    exact .of_same (hshown.gate.trans hstops.gate) rfl
  case runAdhoc id now =>
    simp only [System.step, Option.bind_eq_bind, Option.bind_eq_some_iff, Option.pure_def,
      Prod.exists] at hstep
    obtain ⟨m₁, reserved, hsection, hstep⟩ := hstep
    rcases Manager.reserveAdhoc_cases hsection with ⟨rfl, error, rfl⟩ |
      ⟨key, arbiter, -, hdown, -, -, -, rfl, hshown⟩
    · cases hstep
      exact .of_same rfl rfl
    · cases hstep
      refine .enters hdown ?_ ?_
      · show m₁.gate = _
        rw [hshown.gate, ← hdown]
        rfl
      · exact List.countP_append
  case createTarget target persist =>
    simp only [System.step, Option.map_eq_some_iff] at hstep
    obtain ⟨⟨m₁, result⟩, hsection, rfl⟩ := hstep
    rcases Manager.createTarget_cases hsection with ⟨rfl, -⟩ | ⟨saved, -, -, hshown⟩
    · exact .of_same rfl rfl
    · exact .of_same hshown.gate rfl
  case updateTarget id target now =>
    cases target with
    | none =>
      cases hstep
      exact .of_same rfl rfl
    | some target =>
      obtain ⟨_, _, hsection, hprocs, -⟩ := editCall_manager hstep
      obtain ⟨m₂, hstops, hshown⟩ := Manager.stopTarget_cases hsection
      exact .of_call (hshown.gate.trans hstops.gate) hprocs rfl
  case deleteTarget id now =>
    obtain ⟨_, _, hsection, hprocs, -⟩ := editCall_manager hstep
    obtain ⟨m₂, hstops, hshown⟩ := Manager.stopTarget_cases hsection
    exact .of_call (hshown.gate.trans hstops.gate) hprocs rfl
  case updateSettings =>
    simp only [System.step, Option.map_eq_some_iff] at hstep
    obtain ⟨m₁, hsection, rfl⟩ := hstep
    obtain ⟨m₂, m₃, hloop, hlimit, hshown⟩ := Manager.updateSettings_cases hsection
    refine .of_same (hshown.gate.trans ?_) rfl
    rcases hlimit with ⟨rfl, -⟩ | ⟨-, rfl⟩
    · exact hloop.gate
    · exact hloop.gate
  case observe buffer =>
    simp only [System.step, Option.map_eq_some_iff] at hstep
    obtain ⟨⟨m₁, snapshot, id⟩, hsection, rfl⟩ := hstep
    obtain ⟨_, rfl⟩ := Manager.observe_cases hsection
    exact .of_same rfl rfl
  case beginShutdown =>
    cases hstep
    by_cases hdown : s.manager.shuttingDown = true
    · refine .of_same ?_ rfl
      show s.manager.beginShutdown.gate = _
      rw [Manager.beginShutdown, if_pos hdown]
    · refine .shuts ?_ rfl rfl
      show s.manager.beginShutdown.gate = _
      rw [Manager.beginShutdown, if_neg hdown]
      rfl
  case cancelAdhoc call =>
    simp only [System.step] at hstep
    split at hstep <;> cases hstep
    exact .of_same rfl rfl
  case setMessenger | closeSubscription | receive | cancelRoot =>
    cases hstep
    exact .of_same rfl rfl
  case advance self input =>
    obtain ⟨proc, effect, hproc, heffect, rfl⟩ := step_advance hstep
    exact .of_advance hproc heffect

/-- A manager that is shutting down stays so. -/
theorem Gated.shuttingDown (h : s.Gated s') (hdown : s.manager.shuttingDown = true) :
    s'.manager.shuttingDown = true := by
  cases h with
  | keeps hgate => exact (congrArg Prod.snd hgate).trans hdown
  | leaves hgate => exact (congrArg Prod.snd hgate).trans hdown
  | enters hopen =>
    rw [hopen] at hdown
    cases hdown
  | shuts hgate => exact congrArg Prod.snd hgate

/-- While the manager is shutting down, no worker is created and no ad-hoc request accepted. -/
theorem Gated.closed (h : s.Gated s') (hdown : s.manager.shuttingDown = true) {i : Nat}
    {proc : Proc} (hnew : s.procs.length ≤ i) (hproc : s'.procs[i]? = some proc) :
    proc.pending = false := by
  cases h with
  | keeps _ _ hcalls => exact hcalls i proc hnew hproc
  | leaves _ _ hlength =>
    rw [List.getElem?_eq_none (by rwa [hlength])] at hproc
    cases hproc
  | enters hopen =>
    rw [hopen] at hdown
    cases hdown
  | shuts _ hprocs =>
    rw [hprocs, List.getElem?_eq_none hnew] at hproc
    cases hproc

variable [Go.NetURL]

/-- The wait group counts the pending goroutines. -/
theorem Reachable.runWG (h : s.Reachable) :
    s.manager.runWG = s.procs.countP Proc.pending := by
  refine h.invariant (P := fun s ↦ s.manager.runWG = s.procs.countP Proc.pending) ?_ ?_
  · intro settings targets _
    exact congrArg Prod.fst (Manager.gate_new settings targets)
  · intro s s' label hs _ hstep
    cases step_gated hstep with
    | keeps hgate hcount =>
      have hsame : s'.manager.runWG = s.manager.runWG := congrArg Prod.fst hgate
      omega
    | leaves hgate hcount =>
      have hless : s'.manager.runWG = s.manager.runWG - 1 := congrArg Prod.fst hgate
      omega
    | enters _ hgate hcount =>
      have hmore : s'.manager.runWG = s.manager.runWG + 1 := congrArg Prod.fst hgate
      omega
    | shuts hgate hprocs =>
      have hsame : s'.manager.runWG = s.manager.runWG := congrArg Prod.fst hgate
      rw [hsame, hprocs, hs]

end System

end CodexQueueBot.Jobs
