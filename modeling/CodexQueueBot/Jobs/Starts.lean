import CodexQueueBot.Jobs.History

/-!
# What a start call can do

A step of a `Start` or `StartKeepalive` call stops other work and goes on, answers for its first
remaining key without a change, joins the queue run that is on, or starts a run. `StartCall.Acts`
lists these, with what a call that answers without a change has found.
-/

set_option autoImplicit false
set_option relaxedAutoImplicit false

namespace CodexQueueBot.Jobs

open Lib Manager

/-- A new queue run: the job of a target that is not running, as the start of a run leaves it with
its worker. -/
def startedJob (job : Job) (subscriber : Subscriber) (context : Nat) (now : Time) : Job :=
  { beginJob job subscriber context now with workers := job.workers + 1 }

/-- A new keepalive run, with its worker. -/
def startedKeepalive (keepalive : KeepaliveJob) (context : Nat) (now : Time) : KeepaliveJob :=
  { beginKeepaliveJob keepalive context now with workers := keepalive.workers + 1 }

/-- What a step of a start call can do. -/
inductive StartCall.Acts (m : Manager) (next self : Nat) (call : StartCall) : Effect → Prop
  /-- It stops other work, or waits, and goes on with the same key. -/
  | passes {now : Time} {m₁ m' : Manager} (hstops : Stops now m m₁) (hshown : m₁.Shown m')
      (pc : StartPC) : Acts m next self call { manager := m', proc := .start { call with pc } }
  /-- It answers for its first key. A call with a recipient that does so with a name has found the
  target not running, or the manager shutting down. -/
  | refuses {key : String} {rest : List String} {name : String}
      (hremaining : call.remaining = key :: rest)
      (hreason : ∀ subscriber, call.kind = .queue subscriber → subscriber.recipient ≠ "" →
        name ≠ "" → key ∈ m.targets ∧ ((call.pc = .reject ∧
          ∃ job, m.jobs.lookup key = some job ∧ job.state ≠ .running) ∨
          (call.pc = .commit ∧ m.shuttingDown = true))) :
      Acts m next self call { manager := m, proc := .start (call.answer key name rest false) }
  /-- It joins the queue run that is on. -/
  | joins {subscriber : Subscriber} {key : String} {rest : List String} {name : String} {job : Job}
      (hkind : call.kind = .queue subscriber) (hremaining : call.remaining = key :: rest)
      (hjob : m.jobs.lookup key = some job) (hrunning : job.state = .running) :
      Acts m next self call
        { manager := m.setJob key (addSubscriberLocked job subscriber)
          proc := .start (call.answer key name rest false)
          happenings := call.kind.subscription self key job.runID }
  /-- It starts a queue run. -/
  | startsQueue {subscriber : Subscriber} {key : String} {rest : List String} {name : String}
      {job : Job} {arbiter : TargetArbiter} {now : Time} {m' : Manager}
      (hkind : call.kind = .queue subscriber) (hremaining : call.remaining = key :: rest)
      (hdown : m.shuttingDown = false) (hjob : m.jobs.lookup key = some job)
      (hrunning : job.state ≠ .running)
      (hshown : { (m.setJob key (startedJob job subscriber m.nextContext now)).resignalled key
        arbiter with nextContext := m.nextContext + 1, runWG := m.runWG + 1 }.Shown m') :
      Acts m next self call
        { manager := m'
          proc := .start (call.answer key name rest true)
          spawned := [.queue { key, runID := job.runID + 1, context := m.nextContext }]
          happenings := .started next .queue key (job.runID + 1) ::
            call.kind.subscription self key (job.runID + 1) }
  /-- It starts a keepalive run. -/
  | startsKeepalive {key : String} {rest : List String} {name : String}
      {keepalive : KeepaliveJob} {arbiter : TargetArbiter} {now : Time} {m' : Manager}
      (hkind : call.kind = .keepalive) (hremaining : call.remaining = key :: rest)
      (hdown : m.shuttingDown = false) (hkeepalive : m.keepalives.lookup key = some keepalive)
      (hshown : { (m.setKeepalive key (startedKeepalive keepalive m.nextContext now)).resignalled
        key arbiter with nextContext := m.nextContext + 1, runWG := m.runWG + 1 }.Shown m') :
      Acts m next self call
        { manager := m'
          proc := .start (call.answer key name rest true)
          spawned := [.keepalive { key, runID := keepalive.runID + 1, context := m.nextContext }]
          happenings := [.started next .keepalive key (keepalive.runID + 1)] }

namespace Manager

variable {m m' : Manager} {key : String} {now : Time} {subscriber : Subscriber} {name : String}

/-- After a failed `prepareMode` a caller with a recipient is only told a name, and not subscribed,
when the target is not running. -/
theorem rejectQueue_refused (h : m.rejectQueue key subscriber = some (m', .refused name))
    (hrecipient : subscriber.recipient ≠ "") (hname : name ≠ "") :
    key ∈ m.targets ∧ ∃ job, m.jobs.lookup key = some job ∧ job.state ≠ .running := by
  unfold rejectQueue at h
  cases htarget : m.targets.lookup key with
  | none =>
    simp only [htarget] at h
    cases h
    exact absurd rfl hname
  | some target =>
    simp only [htarget, if_pos hrecipient, Option.bind_eq_bind, Option.bind_eq_some_iff,
      Option.pure_def] at h
    obtain ⟨job, hjob, h⟩ := h
    split_ifs at h with hrunning <;> cases h
    exact ⟨Table.mem_of_lookup htarget, job, hjob, hrunning⟩

/-- After a successful `prepareMode` a caller is only told a name, and nothing is started or joined,
when the manager is shutting down. -/
theorem commitQueue_refused [Go.NetURL] (h : m.commitQueue key subscriber now =
    some (m', .refused name)) (hname : name ≠ "") :
    key ∈ m.targets ∧ m.shuttingDown = true := by
  unfold commitQueue at h
  by_cases hdown : m.shuttingDown = true
  · rw [if_pos hdown] at h
    cases htarget : m.targets.lookup key with
    | none =>
      rw [htarget] at h
      cases h
      exact absurd rfl hname
    | some target => exact ⟨Table.mem_of_lookup htarget, hdown⟩
  rw [if_neg hdown] at h
  cases htarget : m.targets.lookup key with
  | none =>
    simp only [htarget] at h
    cases h
    exact absurd rfl hname
  | some target =>
    simp only [htarget, Option.bind_eq_bind, Option.bind_eq_some_iff, Option.pure_def] at h
    obtain ⟨job, -, h⟩ := h
    split_ifs at h
    · cases h
    · simp only [Option.bind_eq_some_iff] at h
      obtain ⟨keepalive, -, h⟩ := h
      split_ifs at h
      · cases h
      · simp only [Option.bind_eq_some_iff] at h
        obtain ⟨_, -, _, -, h⟩ := h
        cases h

end Manager

variable {m : Manager} {next self : Nat} {input : Input} {effect : Effect}

/-- A `StartKeepalive` call that answers without a change does what `Acts` allows. -/
theorem StartCall.acts_keepalive_refused {call : StartCall} (hkind : call.kind = .keepalive)
    {key : String} {rest : List String} (hremaining : call.remaining = key :: rest)
    (name : String) :
    call.Acts m next self
      { manager := m, proc := .start (call.answer key name rest false) } := by
  refine .refuses hremaining ?_
  intro subscriber hqueue
  rw [hkind] at hqueue
  cases hqueue

/-- A step of a start call does what `Acts` allows. -/
theorem StartCall.step_acts [Go.NetURL] {call : StartCall}
    (h : call.step m next self input = some effect) : call.Acts m next self effect := by
  have hstay : ∀ pc, call.Acts m next self { manager := m, proc := .start { call with pc } } :=
    fun pc ↦ @StartCall.Acts.passes m next self call 0 m m .refl (.refl m) pc
  obtain ⟨kind, remaining, pc, started, already, unknown⟩ := call
  cases StartCall.step_takes h with
  | prepared key m₁ outcome pc' hsection =>
    obtain ⟨m₂, hstops, hshown⟩ := prepareMode_cases hsection
    exact .passes hstops hshown _
  | waited pc' => exact hstay pc'
  | rejected key rest m₁ outcome hpc hremaining hsection =>
    cases hpc
    cases hremaining
    cases kind with
    | keepalive =>
      cases hsection
      exact acts_keepalive_refused rfl rfl _
    | queue subscriber =>
      replace hsection : m.rejectQueue key subscriber = some (m₁, outcome) := hsection
      rcases rejectQueue_cases hsection with ⟨rfl, name, rfl⟩ |
        ⟨target, job, -, hjob, hrunning, -, rfl, rfl⟩
      · refine .refuses rfl ?_
        rintro subscriber' hkind hrecipient hname
        obtain rfl := StartKind.queue.inj hkind
        obtain ⟨hkey, hidle⟩ := rejectQueue_refused hsection hrecipient hname
        exact ⟨hkey, Or.inl ⟨rfl, hidle⟩⟩
      · exact .joins rfl rfl hjob hrunning
  | committed key rest m₁ outcome hpc hremaining hsection =>
    cases hpc
    cases hremaining
    cases kind with
    | keepalive =>
      replace hsection : m.commitKeepalive key input.now = some (m₁, outcome) := hsection
      rcases commitKeepalive_cases hsection with ⟨rfl, rfl | ⟨name, rfl⟩⟩ |
        ⟨target, job, keepalive, arbiter, hdown, -, -, hkeepalive, -, -, -, -, rfl, hshown⟩
      · exact hstay .prepareMode
      · exact acts_keepalive_refused rfl rfl _
      · exact .startsKeepalive rfl rfl hdown hkeepalive hshown
    | queue subscriber =>
      replace hsection : m.commitQueue key subscriber input.now = some (m₁, outcome) := hsection
      rcases commitQueue_cases hsection with ⟨rfl, rfl | ⟨name, rfl⟩⟩ |
        ⟨target, job, -, hjob, hrunning, rfl, rfl⟩ |
        ⟨target, job, keepalive, arbiter, hdown, -, hjob, -, -, hrunning, -, -, rfl, hshown⟩
      · exact hstay .prepareMode
      · refine .refuses rfl ?_
        intro subscriber' _ _ hname
        obtain ⟨hkey, hdown⟩ := commitQueue_refused hsection hname
        exact ⟨hkey, Or.inr ⟨rfl, hdown⟩⟩
      · exact .joins rfl rfl hjob hrunning
      · exact .startsQueue rfl rfl hdown hjob hrunning hshown

/-- Only start calls create goroutines, one worker at most. -/
theorem Proc.step_spawned_cases [Go.NetURL] {proc : Proc}
    (h : proc.step m next self input = some effect) :
    effect.spawned = [] ∨ ∃ call, proc = .start call ∧
      ∃ worker, effect.spawned = [worker] ∧ worker.isWorker = true := by
  cases proc with
  | queue w =>
    obtain ⟨_, -, hspawned⟩ := QueueWorker.step_proc h
    exact Or.inl hspawned
  | keepalive w =>
    obtain ⟨_, -, hspawned⟩ := KeepaliveWorker.step_proc h
    exact Or.inl hspawned
  | adhoc call =>
    obtain ⟨_, -, hspawned⟩ := AdhocCall.step_proc h
    exact Or.inl hspawned
  | start call =>
    cases StartCall.step_acts h with
    | passes | refuses | joins => exact Or.inl rfl
    | startsQueue | startsKeepalive => exact Or.inr ⟨call, rfl, _, rfl, rfl⟩
  | edit call => exact Or.inl (EditCall.step_proc h).2.1
  | wait call => exact Or.inl (WaitCall.step_proc h).2.2.1

/-- A worker that was not there before was created by the step of a start call. -/
theorem System.step_newWorker [Go.NetURL] {s s' : System} {label : Label}
    (hstep : s.step label = some s') {i : Nat} {worker : Proc}
    (hproc : s'.procs[i]? = some worker) (hworker : worker.isWorker = true)
    (hnew : s.procs.length ≤ i) :
    i = s.procs.length ∧ ∃ self input call effect, label = .advance self input ∧
      s.procs[self]? = some (.start call) ∧
      call.step s.manager s.procs.length self input = some effect ∧ s' = s.apply self effect ∧
      effect.spawned = [worker] := by
  by_cases hcall : ∀ self input, label ≠ .advance self input
  · obtain ⟨-, spawned, hprocs, hspawned⟩ := System.step_procs hstep hcall
    rw [hprocs, List.getElem?_append_right hnew] at hproc
    rw [(hspawned worker (List.mem_of_getElem? hproc)).2] at hworker
    cases hworker
  · push Not at hcall
    obtain ⟨self, input, rfl⟩ := hcall
    obtain ⟨proc, effect, hself, heffect, rfl⟩ := System.step_advance hstep
    have hlength : (s.procs.set self effect.proc).length ≤ i := by rwa [List.length_set]
    rw [show (s.apply self effect).procs = s.procs.set self effect.proc ++ effect.spawned from rfl,
      List.getElem?_append_right hlength, List.length_set] at hproc
    rcases Proc.step_spawned_cases heffect with hnone | ⟨call, rfl, other, hone, -⟩
    · rw [hnone] at hproc
      cases hproc
    · rw [hone, List.getElem?_singleton] at hproc
      split_ifs at hproc with hzero
      cases hproc
      exact ⟨by omega, self, input, call, effect, rfl, hself, heffect, rfl, hone⟩

/-- A goroutine that was not there before is a worker, an ad-hoc request that the step has accepted,
or a call of another operation. -/
theorem System.step_new [Go.NetURL] {s s' : System} {label : Label}
    (hstep : s.step label = some s') {i : Nat} {proc : Proc} (hproc : s'.procs[i]? = some proc)
    (hnew : s.procs.length ≤ i) :
    proc.isWorker = true ∨
    (∃ call id now, proc = .adhoc call ∧ label = .runAdhoc id now ∧ s.manager.reserveAdhoc id =
      some (s'.manager, .ok ⟨call.key, call.runID, call.context, call.target⟩)) ∨
    (∃ call, proc = .start call) ∨ (∃ call, proc = .edit call) ∨ proc = .wait {} := by
  have hnone : s'.procs ≠ s.procs := by
    intro heq
    rw [heq, List.getElem?_eq_none hnew] at hproc
    cases hproc
  have hone : ∀ other, s'.procs = s.procs ++ [other] → proc = other := by
    intro other heq
    rw [heq, List.getElem?_append_right hnew, List.getElem?_singleton] at hproc
    split_ifs at hproc
    exact (Option.some.inj hproc).symm
  cases label
  case runAdhoc id now =>
    simp only [System.step, Option.bind_eq_bind, Option.bind_eq_some_iff, Option.pure_def,
      Prod.exists] at hstep
    obtain ⟨m₁, reserved, hsection, hstep⟩ := hstep
    cases reserved with
    | error error =>
      cases hstep
      exact absurd rfl hnone
    | ok reservation =>
      cases hstep
      exact Or.inr (Or.inl ⟨_, id, now, hone _ rfl, rfl, hsection⟩)
  case start | startKeepalive =>
    cases hstep
    exact Or.inr (Or.inr (Or.inl ⟨_, hone _ rfl⟩))
  case wait =>
    cases hstep
    exact Or.inr (Or.inr (Or.inr (Or.inr (hone _ rfl))))
  case updateTarget id target now =>
    cases target with
    | none =>
      cases hstep
      exact absurd rfl hnone
    | some target =>
      obtain ⟨pc, _, -, hprocs, -⟩ := System.editCall_manager hstep
      exact Or.inr (Or.inr (Or.inr (Or.inl ⟨_, hone _ hprocs⟩)))
  case deleteTarget id now =>
    obtain ⟨pc, _, -, hprocs, -⟩ := System.editCall_manager hstep
    exact Or.inr (Or.inr (Or.inr (Or.inl ⟨_, hone _ hprocs⟩)))
  case stop | createTarget | updateSettings | observe =>
    simp only [System.step, Option.map_eq_some_iff] at hstep
    obtain ⟨_, -, rfl⟩ := hstep
    exact absurd rfl hnone
  case cancelAdhoc =>
    simp only [System.step] at hstep
    split at hstep <;> cases hstep
    exact absurd rfl hnone
  case setMessenger | closeSubscription | receive | beginShutdown | cancelRoot =>
    cases hstep
    exact absurd rfl hnone
  case advance self input =>
    obtain ⟨mover, effect, -, heffect, rfl⟩ := System.step_advance hstep
    have hlength : (s.procs.set self effect.proc).length ≤ i := by rwa [List.length_set]
    rw [show (s.apply self effect).procs = s.procs.set self effect.proc ++ effect.spawned from rfl,
      List.getElem?_append_right hlength] at hproc
    rcases Proc.step_spawned_cases heffect with heq | ⟨_, -, worker, heq, hworker⟩
    · rw [heq] at hproc
      cases hproc
    · rw [heq, List.getElem?_singleton] at hproc
      split_ifs at hproc
      cases hproc
      exact Or.inl hworker

/-- A `RunAdhoc` call that was not there before was accepted by the step. -/
theorem System.step_newAdhoc [Go.NetURL] {s s' : System} {label : Label}
    (hstep : s.step label = some s') {i : Nat} {call : AdhocCall}
    (hproc : s'.procs[i]? = some (.adhoc call)) (hnew : s.procs.length ≤ i) :
    ∃ id now, label = .runAdhoc id now ∧ s.manager.reserveAdhoc id =
      some (s'.manager, .ok ⟨call.key, call.runID, call.context, call.target⟩) := by
  rcases System.step_new hstep hproc hnew with hworker | ⟨other, id, now, heq, hlabel, hsection⟩ |
    ⟨_, heq⟩ | ⟨_, heq⟩ | heq
  · cases hworker
  · cases heq
    exact ⟨id, now, hlabel, hsection⟩
  · cases heq
  · cases heq
  · cases heq

end CodexQueueBot.Jobs
