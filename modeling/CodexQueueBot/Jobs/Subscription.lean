import CodexQueueBot.Jobs.Exclusion
import CodexQueueBot.Jobs.Starts

/-!
# Callers that are told they are subscribed

`Start` answers with two lists of names, and the chat handler reports those in `Already` as in
progress and subscribed. A caller is really subscribed when one section of its call stored the
subscriber in the job of a run that was on (`Subscribes`). This holds of every answer in runs where
the sections that answer find what they answer for: after a failed `prepareMode` the job is running,
and after a successful one the manager is not shutting down (`answered_subscribed`). `prepareMode`
also fails on a timeout and during a shutdown, and the run it has seen may be over by then; the
answer is the same, and nobody is subscribed (`answered_not_subscribed`).
-/

set_option autoImplicit false
set_option relaxedAutoImplicit false

namespace CodexQueueBot.Jobs

open Lib Manager

namespace Manager

/-- A registered subscriber is stored under its key. -/
theorem lookup_addSubscriberLocked (job : Job) {subscriber : Subscriber}
    (hrecipient : subscriber.recipient ≠ "") :
    (addSubscriberLocked job subscriber).subscribers.lookup (subscriberKey subscriber) =
      some subscriber := by
  unfold addSubscriberLocked
  rw [if_neg hrecipient]
  exact AList.lookup_insert job.subscribers

/-- A registration leaves the state and the run of a job alone. -/
theorem addSubscriberLocked_state (job : Job) (subscriber : Subscriber) :
    (addSubscriberLocked job subscriber).state = job.state ∧
      (addSubscriberLocked job subscriber).runID = job.runID := by
  rw [addSubscriberLocked_eq]
  exact ⟨rfl, rfl⟩

end Manager

/-- A call with a recipient records its registration. -/
theorem StartKind.mem_subscription {kind : StartKind} {subscriber : Subscriber}
    (hkind : kind = .queue subscriber) (hrecipient : subscriber.recipient ≠ "") (self : Nat)
    (key : String) (runID : Nat) :
    .subscribed self key runID subscriber ∈ kind.subscription self key runID := by
  rw [hkind, StartKind.subscription, if_neg hrecipient]
  exact List.mem_singleton_self _

/-- The answers of a call after one more key. -/
theorem StartCall.mem_answer {call : StartCall} {key name : String} {rest : List String}
    {started : Bool} {entry : String × String}
    (h : entry ∈ (call.answer key name rest started).started ++
      (call.answer key name rest started).already) :
    entry ∈ call.started ++ call.already ∨ (entry = (key, name) ∧ name ≠ "") := by
  unfold answer at h
  by_cases hname : name = ""
  · left
    cases started <;> simpa [hname] using h
  · cases started <;>
      simp only [hname, if_true, if_false, Bool.false_eq_true, List.mem_append,
        List.mem_singleton] at h ⊢ <;> tauto

namespace System

variable [Go.NetURL] {s₀ s s' : System}

/-- Between two states of a run, a section of a call stored a subscriber in the job of a queue run
that was on. -/
def Subscribes (s₀ s : System) (call : Nat) (key : String) (subscriber : Subscriber) : Prop :=
  ∃ (s₁ s₂ : System) (input : Input) (job : Job), Steps step (fun _ _ ↦ True) s₀ s₁ ∧
    s₁.step (.advance call input) = some s₂ ∧ Steps step (fun _ _ ↦ True) s₂ s ∧
    .subscribed call key job.runID subscriber ∈ s₂.trace.drop s₁.trace.length ∧
    s₂.manager.jobs.lookup key = some job ∧ job.state = .running ∧
    job.subscribers.lookup (subscriberKey subscriber) = some subscriber

/-- What has been stored stays so in longer runs. -/
theorem Subscribes.trans {call : Nat} {key : String} {subscriber : Subscriber}
    (h : Subscribes s₀ s call key subscriber) (hrun : Steps step (fun _ _ ↦ True) s s') :
    Subscribes s₀ s' call key subscriber := by
  obtain ⟨s₁, s₂, input, job, hfirst, hstep, hlast, hstored⟩ := h
  exact ⟨s₁, s₂, input, job, hfirst, hstep, hlast.trans hrun, hstored⟩

omit [Go.NetURL] in
/-- The sections of `startQueue` that answer find what they answer for, if the target is still
there: after a failed `prepareMode` the job is running, and after a successful one the manager is
not shutting down. -/
def Attending (s : System) : Label → Prop
  | .advance self _ => ∀ (call : StartCall) (subscriber : Subscriber) (key : String)
      (rest : List String), s.procs[self]? = some (.start call) → call.kind = .queue subscriber →
      call.remaining = key :: rest → key ∈ s.manager.targets →
      (call.pc = .reject → ∀ job, s.manager.jobs.lookup key = some job → job.state = .running) ∧
      (call.pc = .commit → s.manager.shuttingDown = false)
  | _ => True

/-- Every answer of a call with a recipient was preceded by its registration. -/
def Answered (s₀ s : System) : Prop :=
  ∀ (i : Nat) (call : StartCall) (subscriber : Subscriber) (key name : String),
    s.procs[i]? = some (.start call) → call.kind = .queue subscriber →
    subscriber.recipient ≠ "" → (key, name) ∈ call.started ++ call.already →
    Subscribes s₀ s i key subscriber

/-- The step of a call answers only for what it registers. -/
theorem answered_self {self : Nat} {input : Input} {call call' : StartCall} {effect : Effect}
    {subscriber : Subscriber} {key name : String} (hrun : Steps step (fun _ _ ↦ True) s₀ s)
    (hattending : s.Attending (.advance self input))
    (hproc : s.procs[self]? = some (.start call))
    (heffect : call.step s.manager s.procs.length self input = some effect)
    (hcall' : effect.proc = .start call') (hkind : call'.kind = .queue subscriber)
    (hrecipient : subscriber.recipient ≠ "")
    (hmem : (key, name) ∈ call'.started ++ call'.already) :
    (key, name) ∈ call.started ++ call.already ∨
      Subscribes s₀ (s.apply self effect) self key subscriber := by
  have hstep : s.step (.advance self input) = some (s.apply self effect) := by
    simp only [step, hproc, Option.bind_eq_bind, Option.bind_some]
    rw [show (Proc.start call).step s.manager s.procs.length self input = some effect from heffect]
    rfl
  have hstored : ∀ (job : Job), .subscribed self key job.runID subscriber ∈ effect.happenings →
      effect.manager.jobs.lookup key = some job → job.state = .running →
      job.subscribers.lookup (subscriberKey subscriber) = some subscriber →
      Subscribes s₀ (s.apply self effect) self key subscriber := by
    intro job hhappening hjob hrunning hlookup
    refine ⟨s, _, input, job, hrun, hstep, .refl, ?_, hjob, hrunning, hlookup⟩
    rw [show (s.apply self effect).trace = s.trace ++ effect.happenings from rfl,
      List.drop_left]
    exact hhappening
  have hacts := StartCall.step_acts heffect
  cases hacts with
  | passes _ _ pc =>
    cases hcall'
    exact Or.inl hmem
  | @refuses key' rest name' hremaining hreason =>
    cases hcall'
    rcases StartCall.mem_answer hmem with hbefore | ⟨heq, hname⟩
    · exact Or.inl hbefore
    · cases heq
      obtain ⟨hkey, hcase⟩ := hreason subscriber hkind hrecipient hname
      obtain ⟨hreject, hcommit⟩ := hattending call subscriber key rest hproc hkind hremaining hkey
      rcases hcase with ⟨hpc, job, hjob, hidle⟩ | ⟨hpc, hdown⟩
      · exact absurd (hreject hpc job hjob) hidle
      · rw [hcommit hpc] at hdown
        cases hdown
  | @joins subscriber' key' rest name' job hkind' hremaining hjob hrunning =>
    cases hcall'
    rcases StartCall.mem_answer hmem with hbefore | ⟨heq, -⟩
    · exact Or.inl hbefore
    · cases heq
      obtain rfl := StartKind.queue.inj (hkind'.symm.trans hkind)
      obtain ⟨hstate, hid⟩ := addSubscriberLocked_state job subscriber'
      refine Or.inr (hstored (addSubscriberLocked job subscriber') ?_ (AList.lookup_insert _)
        (hstate.trans hrunning) (lookup_addSubscriberLocked job hrecipient))
      rw [hid]
      exact StartKind.mem_subscription hkind' hrecipient self key job.runID
  | @startsQueue subscriber' key' rest name' job arbiter now m' hkind' hremaining hdown hjob
      hrunning hshown =>
    cases hcall'
    rcases StartCall.mem_answer hmem with hbefore | ⟨heq, -⟩
    · exact Or.inl hbefore
    · cases heq
      obtain rfl := StartKind.queue.inj (hkind'.symm.trans hkind)
      refine Or.inr (hstored (startedJob job subscriber' s.manager.nextContext now) ?_ ?_ rfl
        (lookup_addSubscriberLocked job hrecipient))
      · exact List.mem_cons_of_mem _
          (StartKind.mem_subscription hkind' hrecipient self key (job.runID + 1))
      · show m'.jobs.lookup key = _
        rw [hshown.jobs]
        exact AList.lookup_insert _
  | startsKeepalive hkind' =>
    cases hcall'
    cases hkind'.symm.trans hkind

/-- In runs whose sections find what they answer for, every caller that is told a name is
subscribed. -/
theorem answered_subscribed (settings : Settings) (targets : List Target)
    (hrun : Steps step Attending (init settings targets) s) :
    Answered (init settings targets) s := by
  induction hrun with
  | refl =>
    intro i call subscriber key name hproc
    cases hproc
  | @tail s₁ s₂ label hrun hattending hstep ih =>
    have hany : Steps step (fun _ _ ↦ True) (init settings targets) s₁ :=
      hrun.mono fun _ _ _ ↦ trivial
    have hsingle : Steps step (fun _ _ ↦ True) s₁ s₂ := .single trivial hstep
    intro i call' subscriber key name hproc' hkind hrecipient hmem
    rcases step_proc_cases hstep hproc' with
      ⟨input, proc, effect, rfl, hproc, heffect, rfl, heq⟩ | ⟨hproc, -⟩ | ⟨-, hnewborn⟩
    · obtain ⟨call, rfl, hsame⟩ := Proc.step_start heffect heq
      rcases answered_self hany hattending hproc heffect heq hkind hrecipient hmem
        with hbefore | hsubscribes
      · exact (ih i call subscriber key name hproc (hsame.symm.trans hkind) hrecipient
          hbefore).trans hsingle
      · exact hsubscribes
    · exact (ih i call' subscriber key name hproc hkind hrecipient hmem).trans hsingle
    · obtain ⟨hstarted, halready⟩ := hnewborn
      rw [hstarted, halready] at hmem
      cases hmem

/-- No call is about to answer after a failed `prepareMode`, and the manager is not shutting
down. -/
def forthright (s : System) (_ : Label) : Bool :=
  !s.manager.shuttingDown && s.procs.all fun
    | .start call => call.pc ≠ .reject
    | _ => true

omit [Go.NetURL] in
/-- A step is attended to while no call is about to answer after a failed `prepareMode`. -/
theorem attending_of_forthright (s : System) (label : Label) (h : s.forthright label = true) :
    s.Attending label := by
  obtain ⟨hdown, hprocs⟩ := Bool.and_eq_true_iff.mp h
  cases label with
  | advance self input =>
    intro call subscriber key rest hproc _ _ _
    have hpc := List.all_eq_true.mp hprocs _ (List.mem_of_getElem? hproc)
    exact ⟨fun hreject ↦ absurd hreject (of_decide_eq_true hpc), fun _ ↦ by simpa using hdown⟩
  | _ => trivial

omit [Go.NetURL] in
/-- A call that starts a run on `a` is answered with its name and subscribed to it. -/
theorem answered_subscribed_started :
    ∃ (s : System) (call : StartCall), Steps (@step Go.NetURL.emptyOnly) Attending sample s ∧
      s.procs[0]? = some (.start call) ∧ call.started = [("a", "a")] ∧
      @Subscribes Go.NetURL.emptyOnly sample s 0 "a" ⟨"r", "", "", none⟩ := by
  let _ := Go.NetURL.emptyOnly
  have heval : (runLabels step forthright sample
      [.start ["a"] ⟨"r", "", "", none⟩, .advance 0 {}, .advance 0 {}]).any (fun s ↦
      s.procs[0]?.any fun
        | .start call => call.kind = .queue ⟨"r", "", "", none⟩ ∧ call.started = [("a", "a")]
        | _ => false) = true := by
    decide +kernel
  obtain ⟨s, hrun, htest⟩ := Steps.exists_of_runLabels attending_of_forthright heval
  obtain ⟨proc, hproc, htest⟩ := (Option.any_eq_true _ _).mp htest
  cases proc with
  | start call =>
    obtain ⟨hkind, hstarted⟩ := of_decide_eq_true htest
    refine ⟨s, call, hrun, hproc, hstarted, ?_⟩
    refine answered_subscribed _ _ hrun 0 call _ "a" "a" hproc hkind (by decide) ?_
    rw [hstarted]
    exact List.mem_append_left _ (List.mem_singleton_self _)
  | queue w | keepalive w | adhoc call | edit call | wait call => cases htest

/-- The history only grows. -/
theorem mem_trace_of_steps {allowed : System → Label → Prop} {happening : Happening}
    (hrun : Steps step allowed s s') (h : happening ∈ s.trace) : happening ∈ s'.trace := by
  refine hrun.invariant (P := fun s ↦ happening ∈ s.trace) ?_ h
  intro s s' label hmem _ hstep
  obtain ⟨happenings, htrace, -⟩ := step_trace hstep
  rw [htrace]
  exact List.mem_append_left _ hmem

/-- The labels by which a second call finds the run on `a` in `prepareMode`, the run is stopped, and
the call answers. -/
def joinedTooLate : List Label :=
  [.start ["a"] ⟨"r", "", "", none⟩, .advance 0 {}, .advance 0 {},
    .start ["a"] ⟨"q", "", "", none⟩, .advance 2 {}, .stop ["a"] 0, .advance 2 {}]

/-- The second call has answered that it has joined the run on `a`, and it is not subscribed. -/
def toldUnsubscribed (s : System) : Bool :=
  (s.trace.all fun
    | .subscribed call _ _ _ => call ≠ 2
    | _ => true) && s.procs[2]?.any fun
    | .start call => call.kind = .queue ⟨"q", "", "", none⟩ ∧ call.already = [("a", "a")]
    | _ => false

omit [Go.NetURL] in
/-- Not every caller that is told a name is subscribed. -/
theorem answered_not_subscribed :
    ¬ ∀ s : System, Steps (@step Go.NetURL.emptyOnly) Lawful sample s →
      @Answered Go.NetURL.emptyOnly sample s := by
  let _ := Go.NetURL.emptyOnly
  intro hall
  have heval : (runLabels step calm sample joinedTooLate).any toldUnsubscribed = true := by
    decide +kernel
  obtain ⟨s, hrun, htest⟩ := Steps.exists_of_runLabels lawful_of_calm heval
  obtain ⟨htrace, htest⟩ := Bool.and_eq_true_iff.mp htest
  obtain ⟨proc, hproc, htest⟩ := (Option.any_eq_true _ _).mp htest
  cases proc with
  | start call =>
    obtain ⟨hkind, halready⟩ := of_decide_eq_true htest
    have hmem : ("a", "a") ∈ call.started ++ call.already := by
      rw [halready]
      exact List.mem_append_right _ (List.mem_singleton_self _)
    obtain ⟨s₁, s₂, _, job, -, -, hlast, hmem, -⟩ :=
      hall s hrun 2 call _ "a" "a" hproc hkind (by decide) hmem
    have hrecorded := mem_trace_of_steps hlast (List.mem_of_mem_drop hmem)
    exact absurd rfl (of_decide_eq_true (List.all_eq_true.mp htrace _ hrecorded))
  | queue w | keepalive w | adhoc call | edit call | wait call => cases htest

end System

end CodexQueueBot.Jobs
