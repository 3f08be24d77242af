import CodexQueueBot.Jobs.Activity
import CodexQueueBot.Jobs.Starts
import CodexQueueBot.Jobs.Waits

/-!
# Edits of quiescent targets

`UpdateTarget` and `DeleteTarget` stop the work on a target, wait outside the lock until it is idle,
and look the target up again before they persist the edit. Between the two sections anything can
happen; what protects the edit is the second check. This module proves that a persist function is
called only while nothing works on the target, that the target of a runner call in flight stays what
it was when the call began, and that an edit which returns an error has changed nothing.

The persist function is a parameter of the section that calls it. It is called exactly if its
failure would be the result of the section, which is how `EditCall.Persists` is defined.
-/

set_option autoImplicit false
set_option relaxedAutoImplicit false

namespace CodexQueueBot.Jobs

open Lib

/-! ### The call of the persist function -/

/-- The identifier of the target that a call edits. -/
def EditKind.id : EditKind → Int
  | .update id _ => id
  | .delete id => id

section

variable [Go.NetURL] {m m' : Manager}

/-- The next section of an edit calls its persist function: were it to fail, the call would return
that failure. -/
def EditCall.Persists (call : EditCall) (m : Manager) (input : Input) : Prop :=
  ∀ message, ∃ effect, call.step m { input with persist := .failed message } = some effect ∧
    effect.proc = .edit { call with pc := .returned (.error (.persist message)) }

namespace Manager

/-- `UpdateTarget` fails with the failure of its persist function only on an idle target. -/
theorem updateTarget_persist {id : Int} {target : Target} {message : String}
    (h : m.updateTarget id target (.failed message) = some (m', .error (.persist message))) :
    ∃ key, m.targetKeyByIDLocked id = some key ∧ m.targetBusyLocked key = some false := by
  unfold updateTarget at h
  cases hkey : m.targetKeyByIDLocked id with
  | none =>
    simp only [hkey] at h
    cases h
  | some key =>
    simp only [hkey, Option.bind_eq_bind, Option.bind_eq_some_iff, Option.pure_def] at h
    obtain ⟨busy, hbusy, h⟩ := h
    cases busy with
    | true => cases h
    | false => exact ⟨key, rfl, hbusy⟩

/-- `DeleteTarget` fails with the failure of its persist function only on an idle target. -/
theorem deleteTarget_persist {id : Int} {message : String}
    (h : m.deleteTarget id (.failed message) = some (m', .error (.persist message))) :
    ∃ key, m.targetKeyByIDLocked id = some key ∧ m.targetBusyLocked key = some false := by
  unfold deleteTarget at h
  cases hkey : m.targetKeyByIDLocked id with
  | none =>
    simp only [hkey] at h
    cases h
  | some key =>
    simp only [hkey, Option.bind_eq_bind, Option.bind_eq_some_iff, Option.pure_def] at h
    obtain ⟨busy, hbusy, h⟩ := h
    cases busy with
    | true => cases h
    | false => exact ⟨key, rfl, hbusy⟩

end Manager

/-- A persist function is called on an idle target. -/
theorem EditCall.Persists.idle {call : EditCall} {input : Input} (h : call.Persists m input) :
    ∃ key, m.targetKeyByIDLocked call.kind.id = some key ∧
      m.targetBusyLocked key = some false := by
  obtain ⟨effect, hstep, hproc⟩ := h ""
  cases EditCall.step_takes hstep with
  | waited kind key pc hnext =>
    obtain rfl : pc = .returned (.error (.persist "")) := congrArg EditCall.pc (Proc.edit.inj hproc)
    rcases hnext with hnext | hnext | hnext <;> cases hnext
  | updated id target m₁ result hsection =>
    cases hproc
    exact Manager.updateTarget_persist hsection
  | deleted id m₁ result hsection =>
    cases hproc
    exact Manager.deleteTarget_persist hsection

/-! ### Edits that fail -/

/-- A step of an edit that returns an error changes nothing. -/
theorem EditCall.step_failed {call call' : EditCall} {input : Input} {effect : Effect}
    {error : Manager.Error} (h : call.step m input = some effect)
    (hproc : effect.proc = .edit call') (hpc : call'.pc = .returned (.error error)) :
    effect.manager = m := by
  cases EditCall.step_takes h with
  | waited => rfl
  | updated id target m₁ result hsection =>
    cases hproc
    cases hpc
    rcases Manager.updateTarget_cases hsection with ⟨heq, -⟩ | ⟨_, _, _, -, -, -, -, hok, -⟩
    · exact heq
    · cases hok
  | deleted id m₁ result hsection =>
    cases hproc
    cases hpc
    rcases Manager.deleteTarget_cases hsection with ⟨heq, -⟩ | ⟨_, -, -, hok, -⟩
    · exact heq
    · cases hok

/-- A `CreateTarget` call that returns an error changes nothing. -/
theorem Manager.createTarget_failed {target : Option Target} {persist : Persist} {error : Error}
    (h : m.createTarget target persist = some (m', .error error)) : m' = m := by
  rcases createTarget_cases h with ⟨heq, -⟩ | ⟨_, -, ⟨hok, -⟩, -⟩
  · exact heq
  · cases hok

/-- The first section of an edit changes nothing when it finds no target. -/
theorem Manager.stopTarget_failed {id : Int} {now : Time} {error : Error}
    (h : m.stopTarget id now = some (m', .error error)) : m' = m := by
  unfold stopTarget at h
  cases hkey : m.targetKeyByIDLocked id with
  | none =>
    simp only [hkey] at h
    cases h
    rfl
  | some key =>
    simp only [hkey, Option.bind_eq_bind, Option.bind_eq_some_iff, Option.pure_def] at h
    obtain ⟨busy, -, h⟩ := h
    split_ifs at h
    · simp only [Option.bind_eq_some_iff] at h
      obtain ⟨_, -, _, -, _, -, h⟩ := h
      cases h
    · cases h

/-! ### The data of busy targets -/

namespace Manager

variable {key : String} {cell : Cell Mode}

/-- `CreateTarget` leaves the data of every other target alone. -/
theorem createTarget_target (htabled : m.Tabled) {target : Option Target} {persist : Persist}
    {result : Except Error Unit} (h : m.createTarget target persist = some (m', result))
    (hcell : m.cell key = some cell) : m'.targets.lookup key = m.targets.lookup key := by
  rcases createTarget_cases h with ⟨rfl, -⟩ | ⟨saved, hfree, -, hshown⟩
  · rfl
  · have hvacant := htabled.cell_eq_none (AList.lookup_eq_none.mp hfree)
    obtain ⟨_, _, rfl⟩ := hshown
    refine AList.lookup_insert_ne ?_
    rintro rfl
    rw [hvacant] at hcell
    cases hcell

/-- Assumes: the identifier is that of one target only. The last section of `UpdateTarget` leaves
the data of busy targets alone. -/
theorem updateTarget_target (htabled : m.Tabled) {id : Int} {target : Target} {persist : Persist}
    {result : Except Error Unit} (hid : m.Identifies id)
    (h : m.updateTarget id target persist = some (m', result)) (hcell : m.cell key = some cell)
    (hbusy : ¬ cell.Idle) : m'.targets.lookup key = m.targets.lookup key := by
  rcases updateTarget_cases h with ⟨rfl, -⟩ |
    ⟨oldKey, saved, m₁, hkey, hidle, hconflict, -, -, hmove, hshown⟩
  · rfl
  · have hfree := htabled.eq_or_free hid hkey hconflict
    generalize normalizeName saved.name = newKey at hconflict hmove hshown hfree
    obtain ⟨old, hold, hquiet⟩ := idle_of_targetBusyLocked hidle
    have holdNe : key ≠ oldKey := by
      rintro rfl
      obtain rfl := Option.some.inj (hcell.symm.trans hold)
      exact hbusy hquiet
    have hnewNe : key ≠ newKey := by
      rintro rfl
      rcases hfree with rfl | hfree
      · exact holdNe rfl
      · rw [htabled.cell_eq_none hfree] at hcell
        cases hcell
    obtain ⟨_, _, rfl⟩ := hshown
    show (m₁.targets.insert newKey saved).lookup key = _
    rw [AList.lookup_insert_ne hnewNe]
    rcases hmove with ⟨-, rfl⟩ | ⟨-, hrename⟩
    · rfl
    · obtain ⟨_, _, _, -, -, -, rfl⟩ := renameTarget_cases hrename
      exact AList.lookup_erase_ne holdNe

/-- The last section of `DeleteTarget` leaves the data of busy targets alone. -/
theorem deleteTarget_target {id : Int} {persist : Persist} {result : Except Error Unit}
    (h : m.deleteTarget id persist = some (m', result)) (hcell : m.cell key = some cell)
    (hbusy : ¬ cell.Idle) : m'.targets.lookup key = m.targets.lookup key := by
  rcases deleteTarget_cases h with ⟨rfl, -⟩ | ⟨oldKey, -, hidle, -, hshown⟩
  · rfl
  · obtain ⟨old, hold, hquiet⟩ := idle_of_targetBusyLocked hidle
    obtain ⟨_, _, rfl⟩ := hshown
    refine AList.lookup_erase_ne ?_
    rintro rfl
    obtain rfl := Option.some.inj (hcell.symm.trans hold)
    exact hbusy hquiet

end Manager

/-- A lawful step leaves the data of every target alone that a live goroutine works on. -/
theorem System.step_target {s s' : System} {label : Label} (h : s.Reachable)
    (hlawful : s.Lawful label) (hstep : s.step label = some s') {i : Nat} {proc : Proc}
    (hproc : s.procs[i]? = some proc) (hlive : proc.view.live = true) :
    s'.manager.targets.lookup proc.view.key = s.manager.targets.lookup proc.view.key := by
  rcases step_domain hstep with hdomain | hedits
  · exact congrArg (fun domain ↦ domain.targets.lookup proc.view.key) hdomain
  · have hworker : s.ledger.workers[i]? = some proc.view := view_getElem? hproc
    obtain ⟨cell, hcell⟩ := h.valid.present i _ hworker hlive
    have hbusy : ¬ cell.Idle := by
      intro hidle
      rw [h.valid.not_live_of_idle hworker hcell hidle] at hlive
      cases hlive
    cases hedits with
    | create hsection => exact Manager.createTarget_target h.tabled hsection hcell
    | update hself hsection =>
      exact Manager.updateTarget_target h.tabled (hlawful _ _ hself) hsection hcell hbusy
    | delete _ hsection => exact Manager.deleteTarget_target hsection hcell hbusy

/-! ### Runner calls in flight -/

/-- The target that a goroutine hands to the runner, from the section that reads it on. -/
def Proc.carries : Proc → Option (String × Target)
  | .queue ⟨key, _, _, .running _ target⟩ => some (key, target)
  | .keepalive ⟨key, _, _, .running _ target⟩ => some (key, target)
  | .adhoc call => if call.view.live then some (call.key, call.target) else none
  | _ => none

omit [Go.NetURL] in
/-- A goroutine that carries a target is alive on it. -/
theorem Proc.live_of_carries {proc : Proc} {key : String} {target : Target}
    (h : proc.carries = some (key, target)) : proc.view.live = true ∧ proc.view.key = key := by
  unfold carries at h
  split at h
  case h_1 | h_2 =>
    cases h
    exact ⟨rfl, rfl⟩
  case h_3 call =>
    split_ifs at h with hlive
    cases h
    exact ⟨hlive, rfl⟩
  case h_4 => cases h

/-- A queue worker carries a target after its step when the section has just read it. -/
theorem QueueWorker.step_carries {w : QueueWorker} {self : Nat} {input : Input} {effect : Effect}
    {key : String} {target : Target} (h : w.step m self input = some effect)
    (hcarries : effect.proc.carries = some (key, target)) :
    w.view.live = true ∧ w.key = key ∧ m.target key = target := by
  unfold QueueWorker.step at h
  cases hpc : w.pc <;>
    simp only [hpc, Option.bind_eq_bind, Option.bind_eq_some_iff, Prod.exists] at h
  case beginAttempt =>
    obtain ⟨m₁, begun, hsection, h⟩ := h
    obtain ⟨job, arbiter, -, -, ⟨-, -, rfl, -⟩ | ⟨-, rfl, rfl⟩⟩ :=
      Manager.beginAttempt_cases hsection <;> cases h <;> cases hcarries
    exact ⟨by simp [view, hpc], rfl, rfl⟩
  case acquireTarget =>
    obtain ⟨m₁, outcome, -, h⟩ := h
    cases outcome <;> cases h <;> cases hcarries
  case acquire => split at h <;> cases h <;> cases hcarries
  case markSuccess =>
    obtain ⟨m₁, _ | success, -, h⟩ := h <;> cases h <;> cases hcarries
  case awaitTarget | awaitSlot | finishProcess =>
    obtain ⟨_, -, h⟩ := h
    cases h
    simp only at hcarries
    split_ifs at hcarries <;> cases hcarries
  case markFailure =>
    obtain ⟨m₁, valid, -, h⟩ := h
    cases h
    cases valid <;> cases hcarries
  case checkContext =>
    cases h
    simp only at hcarries
    split_ifs at hcarries <;> cases hcarries
  case releaseTarget | markCancelled | finishWorker =>
    obtain ⟨m₁, -, h⟩ := h
    cases h
    cases hcarries
  case running | notifySuccess | releaseSlot | workerDone =>
    cases h
    cases hcarries
  case exited => cases h

/-- A keepalive worker carries a target after its step when the section has just read it. -/
theorem KeepaliveWorker.step_carries {w : KeepaliveWorker} {self : Nat} {input : Input}
    {effect : Effect} {key : String} {target : Target} (h : w.step m self input = some effect)
    (hcarries : effect.proc.carries = some (key, target)) :
    w.view.live = true ∧ w.key = key ∧ m.target key = target := by
  unfold KeepaliveWorker.step at h
  cases hpc : w.pc <;>
    simp only [hpc, Option.bind_eq_bind, Option.bind_eq_some_iff, Prod.exists] at h
  case confirmRequest =>
    obtain ⟨m₁, outcome, hsection, h⟩ := h
    obtain ⟨keepalive, job, arbiter, -, -, -, hcases⟩ :=
      Manager.confirmKeepaliveRequest_cases hsection
    rcases hcases with ⟨-, rfl, -⟩ | ⟨-, rfl, -⟩ | ⟨-, rfl, -⟩ <;> cases h <;> cases hcarries
    exact ⟨by simp [view, hpc], rfl, rfl⟩
  case beginRequest =>
    obtain ⟨m₁, outcome, -, h⟩ := h
    cases outcome <;> cases h <;> cases hcarries
  case acquire => split at h <;> cases h <;> cases hcarries
  case waitNext =>
    split at h <;> cases h
    · cases hcarries
    · simp only at hcarries
      split_ifs at hcarries <;> cases hcarries
  case awaitNext =>
    split_ifs at h
    · cases h
      cases hcarries
    · rw [Option.bind_eq_some_iff] at h
      obtain ⟨_, -, h⟩ := h
      cases h
      simp only at hcarries
      split_ifs at hcarries <;> cases hcarries
  case releaseSlot changed => cases changed <;> cases h <;> cases hcarries
  case awaitTarget | awaitSlot =>
    obtain ⟨_, -, h⟩ := h
    cases h
    simp only at hcarries
    split_ifs at hcarries <;> cases hcarries
  case finishRequest =>
    obtain ⟨m₁, valid, -, h⟩ := h
    cases h
    cases valid <;> cases hcarries
  case checkContext =>
    cases h
    simp only at hcarries
    split_ifs at hcarries <;> cases hcarries
  case finishProcess | markCancelled | finishWorker =>
    obtain ⟨m₁, -, h⟩ := h
    cases h
    cases hcarries
  case running | workerDone =>
    cases h
    cases hcarries
  case exited => cases h

/-- A `RunAdhoc` call is alive before each of its steps but the last. -/
theorem AdhocCall.step_live {call call' : AdhocCall} {self : Nat} {input : Input} {effect : Effect}
    (h : call.step m self input = some effect) (hproc : effect.proc = .adhoc call')
    (hlive : call'.view.live = true) : call.view.live = true := by
  unfold AdhocCall.step at h
  cases hpc : call.pc <;> simp only [hpc] at h
  case workerDone =>
    cases h
    cases hproc
    cases hlive
  case returned => cases h
  all_goals simp [view, hpc]

/-- A goroutine carries a target after its own step because it did so before, or because the section
has just read it. -/
theorem Proc.step_carries {proc : Proc} {next self : Nat} {input : Input} {effect : Effect}
    {key : String} {target : Target} (h : proc.step m next self input = some effect)
    (hcarries : effect.proc.carries = some (key, target)) :
    proc.view.live = true ∧ proc.view.key = key ∧
      (proc.carries = some (key, target) ∨ m.target key = target) := by
  cases proc with
  | queue w =>
    obtain ⟨hlive, hkey, htarget⟩ := QueueWorker.step_carries h hcarries
    exact ⟨hlive, hkey, Or.inr htarget⟩
  | keepalive w =>
    obtain ⟨hlive, hkey, htarget⟩ := KeepaliveWorker.step_carries h hcarries
    exact ⟨hlive, hkey, Or.inr htarget⟩
  | adhoc call =>
    obtain ⟨pc, hproc, -⟩ := AdhocCall.step_proc h
    rw [hproc, Proc.carries] at hcarries
    split_ifs at hcarries with hlive
    cases hcarries
    have hbefore := AdhocCall.step_live h hproc hlive
    exact ⟨hbefore, rfl, Or.inl (if_pos hbefore)⟩
  | start call =>
    obtain ⟨⟨call', hproc, -⟩, -⟩ := StartCall.step_proc h
    rw [hproc] at hcarries
    cases hcarries
  | edit call =>
    obtain ⟨⟨pc, hproc⟩, -⟩ := EditCall.step_proc h
    rw [hproc] at hcarries
    cases hcarries
  | wait call =>
    obtain ⟨-, ⟨call', hproc⟩, -⟩ := WaitCall.step_proc h
    rw [hproc] at hcarries
    cases hcarries

/-- The key and the target of a runner call in flight. -/
def Proc.flight : Proc → Option (String × Target)
  | .queue ⟨key, _, _, .running _ target⟩ => some (key, target)
  | .keepalive ⟨key, _, _, .running _ target⟩ => some (key, target)
  | .adhoc ⟨key, _, _, target, _, .running⟩ => some (key, target)
  | _ => none

omit [Go.NetURL] in
/-- The target of a runner call in flight is carried by its goroutine. -/
theorem Proc.carries_of_flight {proc : Proc} {key : String} {target : Target}
    (h : proc.flight = some (key, target)) : proc.carries = some (key, target) := by
  unfold flight at h
  split at h <;> cases h <;> rfl

end

namespace System

variable [Go.NetURL] {s : System}

/-- Every goroutine carries the data that its target has. -/
def Faithful (s : System) : Prop :=
  ∀ (i : Nat) (proc : Proc) (key : String) (target : Target), s.procs[i]? = some proc →
    proc.carries = some (key, target) → s.manager.targets.lookup key = some target

/-- The data of a target that a live goroutine works on is in the table. -/
theorem lookup_target (h : s.Reachable) {i : Nat} {proc : Proc} (hproc : s.procs[i]? = some proc)
    (hlive : proc.view.live = true) :
    s.manager.targets.lookup proc.view.key = some (s.manager.target proc.view.key) := by
  obtain ⟨cell, hcell⟩ := h.valid.present i _ (view_getElem? hproc) hlive
  obtain ⟨job, _, _, hjob, -⟩ := Manager.cell_eq_some.mp hcell
  obtain ⟨target, htarget⟩ := Table.exists_lookup_of_mem
    ((h.tabled.jobs _).mp (Table.mem_of_lookup hjob))
  rw [Manager.target, htarget]
  rfl

/-- The targets that goroutines carry are those of the table in every reachable state. -/
theorem Reachable.faithful (h : s.Reachable) : s.Faithful := by
  refine h.induct (P := Faithful) ?_ ?_
  · intro settings targets _ i proc key target hproc
    cases hproc
  · intro s s' label hreach hs hlawful hstep i proc' key target hproc' hcarries
    rcases step_proc_cases hstep hproc' with
      ⟨input, proc, effect, -, hproc, heffect, -, rfl⟩ | ⟨hproc, -⟩ | ⟨hnew, hnewborn⟩
    · obtain ⟨hlive, rfl, hread⟩ := Proc.step_carries heffect hcarries
      rw [step_target hreach hlawful hstep hproc hlive]
      rcases hread with hbefore | hread
      · exact hs i proc _ target hproc hbefore
      · rw [lookup_target hreach hproc hlive, hread]
    · obtain ⟨hlive, rfl⟩ := Proc.live_of_carries hcarries
      rw [step_target hreach hlawful hstep hproc hlive]
      exact hs i proc' _ target hproc hcarries
    · -- A new goroutine carries a target only if it is an ad-hoc request that was just accepted.
      cases proc' with
      | adhoc call =>
        obtain ⟨id, now, -, hsection⟩ := step_newAdhoc hstep hproc' hnew
        obtain ⟨hlive, hkey⟩ := Proc.live_of_carries hcarries
        have hreach' := hreach.step hlawful hstep
        have hcarried : (call.key, call.target) = (key, target) := by
          rw [Proc.carries] at hcarries
          split_ifs at hcarries
          exact Option.some.inj hcarries
        cases hcarried
        rw [show call.key = (Proc.adhoc call).view.key from rfl,
          lookup_target hreach' hproc' hlive]
        rcases Manager.reserveAdhoc_cases hsection with ⟨-, _, herror⟩ |
          ⟨key, arbiter, -, -, -, -, -, hok, hshown⟩
        · cases herror
        · obtain ⟨hcallKey, -, -, hcallTarget⟩ := Manager.Reservation.mk.inj (Except.ok.inj hok)
          obtain ⟨_, _, heq⟩ := hshown
          rw [heq, hcallTarget, ← hcallKey]
          rfl
      | queue w =>
        obtain ⟨key', runID, context, pc⟩ := w
        cases hnewborn
        cases hcarries
      | keepalive w =>
        obtain ⟨key', runID, context, pc⟩ := w
        cases hnewborn
        cases hcarries
      | start call | edit call | wait call => cases hcarries

/-! ### Safety of edits -/

/-- Nothing works on a target. -/
structure Quiescent (s : System) (key : String) : Prop where
  queue : ∀ proc ∈ s.procs, proc.liveQueueWorker key = false
  keepalive : ∀ proc ∈ s.procs, proc.liveKeepaliveWorker key = false
  owner : ∃ arbiter, s.manager.arbiters.lookup key = some arbiter ∧ arbiter.owner = .none
  flight : ∀ proc ∈ s.procs, proc.inFlight ≠ some key

/-- Edits happen on quiescent targets and all at once: a persist function is called only while
nothing works on the target, the target of a runner call in flight does not change, and an edit that
returns an error leaves the manager as its last section found it. -/
structure EditSafe (s : System) : Prop where
  persists : ∀ (self : Nat) (call : EditCall) (input : Input),
    s.procs[self]? = some (.edit call) → call.Persists s.manager input →
    ∃ key, s.manager.targetKeyByIDLocked call.kind.id = some key ∧ s.Quiescent key
  steady : ∀ (i : Nat) (proc : Proc) (key : String) (target : Target), s.procs[i]? = some proc →
    proc.flight = some (key, target) → s.manager.targets.lookup key = some target ∧
    ∀ (label : Label) (s' : System), s.Lawful label → s.step label = some s' →
      s'.manager.targets.lookup key = some target
  created : ∀ (target : Option Target) (persist : Persist) (m : Manager) (error : Manager.Error),
    s.manager.createTarget target persist = some (m, .error error) → m = s.manager
  sought : ∀ (id : Int) (now : Time) (m : Manager) (error : Manager.Error),
    s.manager.stopTarget id now = some (m, .error error) → m = s.manager
  returned : ∀ (self : Nat) (input : Input) (s' : System) (call : EditCall)
    (error : Manager.Error), s.step (.advance self input) = some s' →
    s'.procs[self]? = some (.edit call) → call.pc = .returned (.error error) →
    s'.manager = s.manager

/-- An idle target is quiescent. -/
theorem quiescent_of_idle (h : s.Reachable) {key : String}
    (hidle : s.manager.targetBusyLocked key = some false) : s.Quiescent key := by
  obtain ⟨cell, hcell, hquiet⟩ := Manager.idle_of_targetBusyLocked hidle
  have hdead : ∀ proc ∈ s.procs, proc.view.key = key → proc.view.live = false := by
    intro proc hmem hkey
    obtain ⟨i, hproc⟩ := List.mem_iff_getElem?.mp hmem
    exact h.valid.not_live_of_idle (view_getElem? hproc) (hkey ▸ hcell) hquiet
  refine ⟨?_, ?_, ?_, ?_⟩
  · intro proc hmem
    by_contra hlive
    rw [Bool.not_eq_false, ← Proc.serves_queue, Worker.serves_iff] at hlive
    obtain ⟨hlive, hkey, -⟩ := hlive
    rw [hdead proc hmem hkey] at hlive
    cases hlive
  · intro proc hmem
    by_contra hlive
    rw [Bool.not_eq_false, ← Proc.serves_keepalive, Worker.serves_iff] at hlive
    obtain ⟨hlive, hkey, -⟩ := hlive
    rw [hdead proc hmem hkey] at hlive
    cases hlive
  · obtain ⟨job, keepalive, arbiter, -, -, harbiter, rfl⟩ := Manager.cell_eq_some.mp hcell
    exact ⟨arbiter, harbiter, TargetArbiter.claim_eq_none.mp hquiet.unowned⟩
  · intro proc hmem hflight
    obtain ⟨hprocess, hkey⟩ := Proc.process_of_inFlight hflight
    obtain ⟨i, hproc⟩ := List.mem_iff_getElem?.mp hmem
    obtain ⟨hslot, -⟩ := h.valid.equipped i _ (view_getElem? hproc) hprocess
    have hlive := h.valid.alive i _ (view_getElem? hproc) (Or.inr (Or.inr hslot))
    rw [hdead proc hmem hkey] at hlive
    cases hlive

/-- Edits are safe in every reachable state. -/
theorem edit_safe (h : s.Reachable) : s.EditSafe where
  persists := by
    intro self call input _ hpersists
    obtain ⟨key, hkey, hidle⟩ := hpersists.idle
    exact ⟨key, hkey, quiescent_of_idle h hidle⟩
  steady := by
    intro i proc key target hproc hflight
    have hcarries := Proc.carries_of_flight hflight
    have htarget := h.faithful i proc key target hproc hcarries
    obtain ⟨hlive, rfl⟩ := Proc.live_of_carries hcarries
    refine ⟨htarget, fun label s' hlawful hstep ↦ ?_⟩
    rw [step_target h hlawful hstep hproc hlive]
    exact htarget
  created _ _ _ _ hsection := Manager.createTarget_failed hsection
  sought _ _ _ _ hsection := Manager.stopTarget_failed hsection
  returned := by
    intro self input s' call' error hstep hproc' hpc
    rcases step_proc_cases hstep hproc' with
      ⟨input', proc, effect, -, hproc, heffect, rfl, heq⟩ | ⟨-, hother⟩ | ⟨hnew, -⟩
    · obtain ⟨call, rfl⟩ := Proc.step_edit heffect heq
      exact EditCall.step_failed heffect heq hpc
    · exact absurd rfl (hother input)
    · obtain ⟨proc, _, hproc, -⟩ := step_advance hstep
      rw [List.getElem?_eq_none hnew] at hproc
      cases hproc

/-- A guard that every step without an update of a target passes. -/
def gentle (s : System) : Label → Bool
  | .advance self _ =>
    match s.procs[self]? with
    | some (.edit ⟨.update _ _, _⟩) => false
    | _ => true
  | _ => true

omit [Go.NetURL] in
/-- A gentle step is lawful. -/
theorem lawful_of_gentle (s : System) (label : Label) (h : s.gentle label = true) :
    s.Lawful label := by
  cases label
  case advance self input =>
    intro id target hproc
    simp [gentle, hproc] at h
  all_goals trivial

/-- A `DeleteTarget` call that has found its target idle calls its persist function next. -/
theorem persists_delete {m : Manager} {id : Int} {key : String} (input : Input)
    (hkey : m.targetKeyByIDLocked id = some key) (hidle : m.targetBusyLocked key = some false) :
    EditCall.Persists { kind := .delete id, pc := .commit } m input := by
  intro message
  refine ⟨⟨m, .edit { kind := .delete id, pc := .returned (.error (.persist message)) }, [], []⟩,
    ?_, rfl⟩
  simp [EditCall.step, Manager.deleteTarget, hkey, hidle]

/-- The labels by which a queue attempt is begun on `a` and the deletion of `b` is about to be
persisted. -/
def deletion : List Label :=
  queueAttempt ++ [.deleteTarget 2 0, .advance 2 {}]

/-- An attempt is in flight on `a`, and the deletion of the idle target `b` is about to be
persisted. -/
def deletionDue (s : System) : Bool :=
  (s.procs[2]?.any fun proc ↦ proc matches .edit ⟨.delete 2, .commit⟩) &&
    (s.manager.targetKeyByIDLocked 2 == some "b") &&
    (s.manager.targetBusyLocked "b" == some false) &&
    (s.procs[1]?.any fun proc ↦ proc.flight.any fun flight ↦ flight.1 == "a")

omit [Go.NetURL] in
/-- While an attempt is in flight on `a`, the persist function of a deletion of `b` is called: `b`
is quiescent, and `a` has the data that the attempt was begun with. -/
theorem edit_safe_deletion :
    ∃ (s : System) (call : EditCall) (proc : Proc) (target : Target),
      @Reachable Go.NetURL.emptyOnly s ∧ s.procs[2]? = some (.edit call) ∧
      @EditCall.Persists Go.NetURL.emptyOnly call s.manager {} ∧ s.Quiescent "b" ∧
      s.procs[1]? = some proc ∧ proc.flight = some ("a", target) ∧
      s.manager.targets.lookup "a" = some target := by
  let _ := Go.NetURL.emptyOnly
  have heval : (runLabels step gentle sample deletion).any deletionDue = true := by
    decide +kernel
  obtain ⟨s, hrun, htest⟩ := Steps.exists_of_runLabels lawful_of_gentle heval
  have hreach : s.Reachable := ⟨_, _, by decide, hrun⟩
  simp only [deletionDue, Bool.and_eq_true, Option.any_eq_true, beq_iff_eq, Prod.exists] at htest
  obtain ⟨⟨⟨⟨edit, hedit, hcall⟩, hkey⟩, hidle⟩, proc, hproc, key, target, hflight, rfl⟩ := htest
  split at hcall
  case h_2 => cases hcall
  case h_1 =>
    have hsafe := edit_safe hreach
    have hpersists := persists_delete {} hkey hidle
    obtain ⟨key, hkey', hquiescent⟩ := hsafe.persists 2 _ {} hedit hpersists
    obtain rfl := Option.some.inj (hkey.symm.trans hkey')
    exact ⟨s, _, proc, target, hreach, hedit, hpersists, hquiescent, hproc, hflight,
      (hsafe.steady 1 proc "a" target hproc hflight).1⟩

end System

end CodexQueueBot.Jobs
