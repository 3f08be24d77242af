import CodexQueueBot.Jobs.Tables
import CodexQueueBot.Lib.Pool

/-!
# How steps change the goroutines

A step of the system is a step of one goroutine or a call. A step of a goroutine changes its program
point and nothing else about it, and only start calls create goroutines; a call adds at most one
goroutine and records nothing in the history. Goroutines begin at their first program point.
-/

set_option autoImplicit false
set_option relaxedAutoImplicit false

namespace CodexQueueBot.Jobs

open Lib

/-- A goroutine at its first program point; a start call that has no answers yet, or another
call. -/
def Proc.Newborn : Proc → Prop
  | .queue w => w.pc = .acquireTarget
  | .keepalive w => w.pc = .beginRequest
  | .adhoc call => call.pc = .acquire
  | .start call => call.started = [] ∧ call.already = []
  | .edit _ | .wait _ => True

/-- A goroutine that `startQueue` or `startKeepalive` creates. -/
def Proc.isWorker : Proc → Bool
  | .queue _ | .keepalive _ => true
  | .adhoc _ | .start _ | .edit _ | .wait _ => false

variable [Go.NetURL] {m : Manager} {next self : Nat} {input : Input} {effect : Effect}

open Manager

/-- A step of a queue worker moves it to another program point. -/
theorem QueueWorker.step_proc {w : QueueWorker} (h : w.step m self input = some effect) :
    ∃ pc, effect.proc = .queue { w with pc } ∧ effect.spawned = [] := by
  unfold QueueWorker.step at h
  cases hpc : w.pc <;>
    simp only [hpc, Option.bind_eq_bind, Option.bind_eq_some_iff, Prod.exists] at h
  case acquireTarget =>
    obtain ⟨m₁, outcome, -, h⟩ := h
    cases outcome <;> cases h <;> exact ⟨_, rfl, rfl⟩
  case acquire => split at h <;> cases h <;> exact ⟨_, rfl, rfl⟩
  case beginAttempt =>
    obtain ⟨m₁, _ | ⟨attempt, target⟩, -, h⟩ := h <;> cases h <;> exact ⟨_, rfl, rfl⟩
  case markSuccess =>
    obtain ⟨m₁, _ | success, -, h⟩ := h <;> cases h <;> exact ⟨_, rfl, rfl⟩
  case markFailure =>
    obtain ⟨m₁, valid, -, h⟩ := h
    cases h
    exact ⟨_, rfl, rfl⟩
  case awaitTarget | awaitSlot | finishProcess | releaseTarget | markCancelled | finishWorker =>
    obtain ⟨_, -, h⟩ := h
    cases h
    exact ⟨_, rfl, rfl⟩
  case running | notifySuccess | checkContext | releaseSlot | workerDone =>
    cases h
    exact ⟨_, rfl, rfl⟩
  case exited => cases h

/-- A step of a keepalive worker moves it to another program point. -/
theorem KeepaliveWorker.step_proc {w : KeepaliveWorker} (h : w.step m self input = some effect) :
    ∃ pc, effect.proc = .keepalive { w with pc } ∧ effect.spawned = [] := by
  unfold KeepaliveWorker.step at h
  cases hpc : w.pc <;>
    simp only [hpc, Option.bind_eq_bind, Option.bind_eq_some_iff, Prod.exists] at h
  case beginRequest | confirmRequest =>
    obtain ⟨m₁, outcome, -, h⟩ := h
    cases outcome <;> cases h <;> exact ⟨_, rfl, rfl⟩
  case acquire | waitNext => split at h <;> cases h <;> exact ⟨_, rfl, rfl⟩
  case releaseSlot changed => cases changed <;> cases h <;> exact ⟨_, rfl, rfl⟩
  case finishRequest =>
    obtain ⟨m₁, valid, -, h⟩ := h
    cases h
    exact ⟨_, rfl, rfl⟩
  case awaitNext =>
    split_ifs at h
    · cases h
      exact ⟨_, rfl, rfl⟩
    · rw [Option.bind_eq_some_iff] at h
      obtain ⟨_, -, h⟩ := h
      cases h
      exact ⟨_, rfl, rfl⟩
  case awaitTarget | awaitSlot | finishProcess | markCancelled | finishWorker =>
    obtain ⟨_, -, h⟩ := h
    cases h
    exact ⟨_, rfl, rfl⟩
  case running | checkContext | workerDone =>
    cases h
    exact ⟨_, rfl, rfl⟩
  case exited => cases h

/-- A step of a `RunAdhoc` call moves it to another program point. -/
theorem AdhocCall.step_proc {call : AdhocCall} (h : call.step m self input = some effect) :
    ∃ pc, effect.proc = .adhoc { call with pc } ∧ effect.spawned = [] := by
  unfold AdhocCall.step at h
  cases hpc : call.pc <;>
    simp only [hpc, Option.bind_eq_bind, Option.bind_eq_some_iff, Prod.exists] at h
  case acquire => split at h <;> cases h <;> exact ⟨_, rfl, rfl⟩
  case confirm =>
    obtain ⟨m₁, confirmed, -, h⟩ := h
    split_ifs at h <;> cases h <;> exact ⟨_, rfl, rfl⟩
  case awaitSlot | finishRequest =>
    obtain ⟨_, -, h⟩ := h
    cases h
    exact ⟨_, rfl, rfl⟩
  case checkContext | running | workerDone =>
    cases h
    exact ⟨_, rfl, rfl⟩
  case returned => cases h

/-- A step of a start call leaves a start call of the same kind, and the goroutines it creates are
at their first program point. -/
theorem StartCall.step_proc {call : StartCall} (h : call.step m next self input = some effect) :
    (∃ call' : StartCall, effect.proc = .start call' ∧ call'.kind = call.kind) ∧
      ∀ proc ∈ effect.spawned, proc.Newborn := by
  have hconclude : ∀ (m₁ : Manager) (key : String) (rest : List String) (outcome : StartOutcome),
      (∃ call' : StartCall, (call.conclude m₁ next self key rest outcome).proc = .start call' ∧
        call'.kind = call.kind) ∧
      ∀ proc ∈ (call.conclude m₁ next self key rest outcome).spawned, proc.Newborn := by
    intro m₁ key rest outcome
    cases outcome with
    | refused | joined | retry => exact ⟨⟨_, rfl, rfl⟩, fun _ hmem ↦ by cases hmem⟩
    | started name runID context =>
      refine ⟨⟨_, rfl, rfl⟩, fun proc hmem ↦ ?_⟩
      rw [List.mem_singleton.mp hmem]
      cases call.kind <;> rfl
  cases StartCall.step_takes h with
  | prepared | waited => exact ⟨⟨_, rfl, rfl⟩, fun _ hmem ↦ by cases hmem⟩
  | rejected key rest m₁ outcome | committed key rest m₁ outcome =>
    exact hconclude m₁ key rest outcome

/-- A step of an edit leaves an edit of the same kind. -/
theorem EditCall.step_proc {call : EditCall} (h : call.step m input = some effect) :
    (∃ pc, effect.proc = .edit { call with pc }) ∧ effect.spawned = [] ∧
        effect.happenings = [] := by
  cases EditCall.step_takes h with
  | waited | updated | deleted => exact ⟨⟨_, rfl⟩, rfl, rfl⟩

omit [Go.NetURL] in
/-- A step of a `Wait` call leaves the manager alone. -/
theorem WaitCall.step_proc {call : WaitCall} (h : call.step m input = some effect) :
    effect.manager = m ∧ (∃ call', effect.proc = .wait call') ∧ effect.spawned = [] ∧
      effect.happenings = [] := by
  unfold WaitCall.step at h
  split at h
  · cases h
  · split_ifs at h <;> cases h <;> exact ⟨rfl, ⟨_, rfl⟩, rfl, rfl⟩

/-- The goroutines that a step creates are at their first program point. -/
theorem Proc.step_spawned {proc : Proc} (h : proc.step m next self input = some effect) :
    ∀ other ∈ effect.spawned, other.Newborn := by
  have hnone : effect.spawned = [] → ∀ other ∈ effect.spawned, other.Newborn := by
    intro heq other hmem
    rw [heq] at hmem
    cases hmem
  cases proc with
  | queue w =>
    obtain ⟨_, -, hspawned⟩ := QueueWorker.step_proc h
    exact hnone hspawned
  | keepalive w =>
    obtain ⟨_, -, hspawned⟩ := KeepaliveWorker.step_proc h
    exact hnone hspawned
  | adhoc call =>
    obtain ⟨_, -, hspawned⟩ := AdhocCall.step_proc h
    exact hnone hspawned
  | start call => exact (StartCall.step_proc h).2
  | edit call => exact hnone (EditCall.step_proc h).2.1
  | wait call => exact hnone (WaitCall.step_proc h).2.2.1

/-- What becomes of a goroutine by a step. -/
inductive Proc.Follows : Proc → Proc → Prop
  | queue (w : QueueWorker) (pc : QueuePC) : Follows (.queue w) (.queue { w with pc })
  | keepalive (w : KeepaliveWorker) (pc : KeepalivePC) :
      Follows (.keepalive w) (.keepalive { w with pc })
  | adhoc (call : AdhocCall) (pc : AdhocPC) : Follows (.adhoc call) (.adhoc { call with pc })
  | start (call call' : StartCall) (hkind : call'.kind = call.kind) :
      Follows (.start call) (.start call')
  | edit (call : EditCall) (pc : EditPC) : Follows (.edit call) (.edit { call with pc })
  | wait (call call' : WaitCall) : Follows (.wait call) (.wait call')

/-- A step of a goroutine leaves the same goroutine. -/
theorem Proc.step_follows {proc : Proc} (h : proc.step m next self input = some effect) :
    proc.Follows effect.proc := by
  cases proc with
  | queue w =>
    obtain ⟨pc, hmoved, -⟩ := QueueWorker.step_proc h
    exact hmoved ▸ .queue w pc
  | keepalive w =>
    obtain ⟨pc, hmoved, -⟩ := KeepaliveWorker.step_proc h
    exact hmoved ▸ .keepalive w pc
  | adhoc call =>
    obtain ⟨pc, hmoved, -⟩ := AdhocCall.step_proc h
    exact hmoved ▸ .adhoc call pc
  | start call =>
    obtain ⟨⟨call', hmoved, hkind⟩, -⟩ := StartCall.step_proc h
    exact hmoved ▸ .start call call' hkind
  | edit call =>
    obtain ⟨⟨pc, hmoved⟩, -⟩ := EditCall.step_proc h
    exact hmoved ▸ .edit call pc
  | wait call =>
    obtain ⟨-, ⟨call', hmoved⟩, -⟩ := WaitCall.step_proc h
    exact hmoved ▸ .wait call call'

/-- What has become a queue worker was that queue worker before. -/
theorem Proc.step_queue {proc : Proc} {w' : QueueWorker}
    (h : proc.step m next self input = some effect) (heq : effect.proc = .queue w') :
    ∃ w pc, proc = .queue w ∧ w' = { w with pc } := by
  have hfollows := Proc.step_follows h
  rw [heq] at hfollows
  cases hfollows with
  | queue w pc => exact ⟨w, pc, rfl, rfl⟩

/-- What has become a start call was a start call of the same kind before. -/
theorem Proc.step_start {proc : Proc} {call' : StartCall}
    (h : proc.step m next self input = some effect) (heq : effect.proc = .start call') :
    ∃ call, proc = .start call ∧ call'.kind = call.kind := by
  have hfollows := Proc.step_follows h
  rw [heq] at hfollows
  cases hfollows with
  | start call _ hkind => exact ⟨call, rfl, hkind⟩

/-- Only the step of an edit leaves an edit behind. -/
theorem Proc.step_edit {proc : Proc} {call' : EditCall}
    (h : proc.step m next self input = some effect) (heq : effect.proc = .edit call') :
    ∃ call, proc = .edit call := by
  have hfollows := Proc.step_follows h
  rw [heq] at hfollows
  cases hfollows with
  | edit call pc => exact ⟨call, rfl⟩

/-- Only the step of a `Wait` call leaves one behind. -/
theorem Proc.step_wait {proc : Proc} {call' : WaitCall}
    (h : proc.step m next self input = some effect) (heq : effect.proc = .wait call') :
    ∃ call, proc = .wait call := by
  have hfollows := Proc.step_follows h
  rw [heq] at hfollows
  cases hfollows with
  | wait call => exact ⟨call, rfl⟩

namespace System

variable {s s' : System} {label : Label}

/-- A step of the system that is not a step of a goroutine adds calls at their first program point
and records nothing. -/
theorem step_procs (hstep : s.step label = some s')
    (hcall : ∀ self input, label ≠ .advance self input) :
    s'.trace = s.trace ∧ ∃ spawned, s'.procs = s.procs ++ spawned ∧
      ∀ proc ∈ spawned, proc.Newborn ∧ proc.isWorker = false := by
  have hsame : s'.trace = s.trace → s'.procs = s.procs →
      s'.trace = s.trace ∧ ∃ spawned, s'.procs = s.procs ++ spawned ∧
        ∀ proc ∈ spawned, proc.Newborn ∧ proc.isWorker = false := by
    intro htrace hprocs
    exact ⟨htrace, [], by rw [hprocs, List.append_nil], fun _ hmem ↦ by cases hmem⟩
  have hone : ∀ proc : Proc, s'.trace = s.trace → s'.procs = s.procs ++ [proc] → proc.Newborn →
      proc.isWorker = false → s'.trace = s.trace ∧ ∃ spawned, s'.procs = s.procs ++ spawned ∧
        ∀ proc ∈ spawned, proc.Newborn ∧ proc.isWorker = false := by
    intro proc htrace hprocs hnewborn hcall
    refine ⟨htrace, [proc], hprocs, fun other hmem ↦ ?_⟩
    rw [List.mem_singleton.mp hmem]
    exact ⟨hnewborn, hcall⟩
  cases label
  case advance self input => exact absurd rfl (hcall self input)
  case start | startKeepalive =>
    cases hstep
    exact hone _ rfl rfl ⟨rfl, rfl⟩ rfl
  case wait =>
    cases hstep
    exact hone _ rfl rfl trivial rfl
  case runAdhoc id now =>
    simp only [System.step, Option.bind_eq_bind, Option.bind_eq_some_iff, Option.pure_def,
      Prod.exists] at hstep
    obtain ⟨m₁, reserved, -, hstep⟩ := hstep
    cases reserved with
    | error error =>
      cases hstep
      exact hsame rfl rfl
    | ok reservation =>
      cases hstep
      exact hone (.adhoc { reservation with started := now }) rfl rfl rfl rfl
  case updateTarget id target now =>
    cases target with
    | none =>
      cases hstep
      exact hsame rfl rfl
    | some target =>
      obtain ⟨pc, _, -, hprocs, htrace, -⟩ := editCall_manager hstep
      exact hone _ htrace hprocs trivial rfl
  case deleteTarget id now =>
    obtain ⟨pc, _, -, hprocs, htrace, -⟩ := editCall_manager hstep
    exact hone _ htrace hprocs trivial rfl
  case stop | createTarget | updateSettings | observe =>
    simp only [System.step, Option.map_eq_some_iff] at hstep
    obtain ⟨_, -, rfl⟩ := hstep
    exact hsame rfl rfl
  case cancelAdhoc call =>
    simp only [System.step] at hstep
    split at hstep <;> cases hstep
    exact hsame rfl rfl
  case setMessenger | closeSubscription | receive | beginShutdown | cancelRoot =>
    cases hstep
    exact hsame rfl rfl

/-- A goroutine after a step has moved by that step, was there before and has not moved, or is new
and at its first program point. -/
theorem step_proc_cases (hstep : s.step label = some s') {i : Nat} {proc' : Proc}
    (hproc' : s'.procs[i]? = some proc') :
    (∃ input proc effect, label = .advance i input ∧ s.procs[i]? = some proc ∧
      proc.step s.manager s.procs.length i input = some effect ∧ s' = s.apply i effect ∧
      effect.proc = proc') ∨
    (s.procs[i]? = some proc' ∧ ∀ input, label ≠ .advance i input) ∨
    (s.procs.length ≤ i ∧ proc'.Newborn) := by
  by_cases hcall : ∀ self input, label ≠ .advance self input
  · obtain ⟨-, spawned, hprocs, hspawned⟩ := step_procs hstep hcall
    rw [hprocs, List.getElem?_append] at hproc'
    split_ifs at hproc' with hlt
    · exact Or.inr (Or.inl ⟨hproc', hcall i⟩)
    · exact Or.inr (Or.inr ⟨Nat.not_lt.mp hlt, (hspawned proc' (List.mem_of_getElem? hproc')).1⟩)
  · push Not at hcall
    obtain ⟨self, input, rfl⟩ := hcall
    obtain ⟨proc, effect, hproc, heffect, rfl⟩ := step_advance hstep
    rw [show (s.apply self effect).procs = s.procs.set self effect.proc ++ effect.spawned from
      rfl, List.getElem?_append] at hproc'
    split_ifs at hproc' with hlt
    · rcases Pool.getElem?_set_cases hproc' with ⟨rfl, rfl⟩ | ⟨hne, hold⟩
      · exact Or.inl ⟨input, proc, effect, rfl, hproc, heffect, rfl, rfl⟩
      · refine Or.inr (Or.inl ⟨hold, fun input' heq ↦ hne ?_⟩)
        cases heq
        rfl
    · rw [List.length_set] at hlt
      exact Or.inr (Or.inr ⟨Nat.not_lt.mp hlt,
        Proc.step_spawned heffect proc' (List.mem_of_getElem? hproc')⟩)

/-- A goroutine is still there after a step, and has moved only if the step is its own. -/
theorem step_getElem? (hstep : s.step label = some s') {i : Nat} {proc : Proc}
    (hproc : s.procs[i]? = some proc) :
    ∃ proc', s'.procs[i]? = some proc' ∧ (proc' = proc ∨ ∃ input effect,
      label = .advance i input ∧ proc.step s.manager s.procs.length i input = some effect ∧
      s' = s.apply i effect ∧ proc' = effect.proc) := by
  have hlt : i < s.procs.length := (List.getElem?_eq_some_iff.mp hproc).1
  by_cases hcall : ∀ self input, label ≠ .advance self input
  · obtain ⟨-, spawned, hprocs, -⟩ := step_procs hstep hcall
    refine ⟨proc, ?_, Or.inl rfl⟩
    rw [hprocs, List.getElem?_append_left hlt]
    exact hproc
  · push Not at hcall
    obtain ⟨self, input, rfl⟩ := hcall
    obtain ⟨moved, effect, hmoved, heffect, rfl⟩ := step_advance hstep
    have hset : (s.apply self effect).procs[i]? = (s.procs.set self effect.proc)[i]? :=
      List.getElem?_append_left (by rwa [List.length_set])
    rw [hset]
    by_cases heq : self = i
    · subst heq
      obtain rfl := Option.some.inj (hmoved.symm.trans hproc)
      exact ⟨effect.proc, List.getElem?_set_self hlt,
        Or.inr ⟨input, effect, rfl, heffect, rfl, rfl⟩⟩
    · refine ⟨proc, ?_, Or.inl rfl⟩
      rw [List.getElem?_set_ne heq]
      exact hproc

/-- Goroutines are never removed. -/
theorem length_le_of_step (hstep : s.step label = some s') :
    s.procs.length ≤ s'.procs.length := by
  by_contra hlt
  rw [Nat.not_le] at hlt
  obtain ⟨proc', hproc', -⟩ := step_getElem? hstep (List.getElem?_eq_getElem hlt)
  exact absurd (List.getElem?_eq_some_iff.mp hproc').1 (Nat.lt_irrefl _)

end System

end CodexQueueBot.Jobs
