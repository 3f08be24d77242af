import CodexQueueBot.Codex.Isolation

/-!
# How a request ends

A request that has been cancelled does not need its child, nor any other request, to come to its
end (`cancelled_ends`). Each phase takes it one step further: a child that has been started is
waited for until it is killed, and what is left is to read the response, to report, and to remove
the entries.
-/

set_option autoImplicit false
set_option relaxedAutoImplicit false

namespace CodexQueueBot.Codex

open Go Jobs Lib

namespace Requests

variable [Text] {request request' : Request} {effect : Effect} {s : Requests} {first : Files}
  {index : ℕ}

/-- The steps of a request that neither its context nor its child takes. -/
def Own : RequestLabel → Prop
  | .done _ => False
  | .run (.start _) => True
  | .run label => Command.Own {} label
  | .print _ => False
  | .write _ => False
  | .clutter => False
  | _ => True

/-- A request can come to its end with steps of its own. -/
def Ends (s : Requests) (index : ℕ) : Prop :=
  ∃ (s' : Requests) (request : Request) (run : Option Run) (result : Result),
    Steps Requests.step (fun s label ↦
      (∃ own, label = .request index own ∧ Own own) ∧ s.Orderly label) s s' ∧
    s'.requests[index]? = some request ∧ request.phase = .returned run result

/-- A request that has returned has come to its end. -/
theorem ends_of_returned {run : Option Run} {result : Result}
    (hrequest : s.requests[index]? = some request) (hphase : request.phase = .returned run result) :
    s.Ends index :=
  ⟨s, request, run, result, .refl, hrequest, hphase⟩

/-- A step of its own takes a request forward. -/
theorem Sound.forward {label : RequestLabel} (h : s.Sound first)
    (hrequest : s.requests[index]? = some request)
    (hmove : request.step s.runner s.files label = some (request', effect)) (hown : Own label)
    (horderly : s.Orderly (.request index label)) :
    ∃ s' : Requests, s'.Sound first ∧ s'.requests[index]? = some request' ∧
      (s'.Ends index → s.Ends index) := by
  have hstep : s.step (.request index label) = some { s with
      files := effect.files s.files
      requests := s.requests.set index request'
      left := effect.left s.left } := by
    simp [Requests.step, hrequest, hmove]
  have hlt := (List.getElem?_eq_some_iff.mp hrequest).1
  refine ⟨_, h.step hstep, List.getElem?_set_self hlt, ?_⟩
  rintro ⟨s', last, run, result, hsteps, hlast, hphase⟩
  exact ⟨s', last, run, result, (Steps.single ⟨⟨label, rfl, hown⟩, horderly⟩ hstep).trans hsteps,
    hlast, hphase⟩

/-- A request that has only its workspace left comes to its end. -/
theorem Sound.ends_of_cleaned {workspace : String} {run : Option Run} {result : Result}
    (h : s.Sound first) (hrequest : s.requests[index]? = some request)
    (hphase : request.phase = .cleaned workspace run result) : s.Ends index := by
  obtain ⟨target, kind, ctx, phase⟩ := request
  subst hphase
  obtain ⟨⟨cluttered, hworkspace⟩, -⟩ := h.fits index _ hrequest
  cases cluttered with
  | false =>
    have hmove : Request.step s.runner s.files ⟨target, kind, ctx, .cleaned workspace run result⟩
        (.removeWorkspace true) =
          some (⟨target, kind, ctx, .returned run result⟩, .remove workspace) :=
      if_pos hworkspace
    obtain ⟨s₁, -, hrequest₁, hends⟩ := h.forward hrequest hmove trivial trivial
    exact hends (ends_of_returned hrequest₁ rfl)
  | true =>
    have horderly : s.Orderly (.request index (.removeWorkspace false)) := by
      intro other hother name hmem
      obtain rfl := Option.some.inj (hrequest.symm.trans hother)
      obtain rfl := List.mem_singleton.mp hmem
      exact hworkspace
    have hmove : Request.step s.runner s.files ⟨target, kind, ctx, .cleaned workspace run result⟩
        (.removeWorkspace false) =
          some (⟨target, kind, ctx, .returned run result⟩, .leave workspace) :=
      rfl
    obtain ⟨s₁, -, hrequest₁, hends⟩ := h.forward hrequest hmove trivial horderly
    exact hends (ends_of_returned hrequest₁ rfl)

/-- A request that has its result comes to its end. -/
theorem Sound.ends_of_reported {run : Run} {result : Result} (h : s.Sound first)
    (hrequest : s.requests[index]? = some request) (hphase : request.phase = .reported run result) :
    s.Ends index := by
  obtain ⟨target, kind, ctx, phase⟩ := request
  subst hphase
  have hmove : Request.step s.runner s.files ⟨target, kind, ctx, .reported run result⟩
      (.removeResponse true) =
        some (⟨target, kind, ctx, .cleaned run.workspace (some run) result⟩,
          .remove run.responsePath) :=
    rfl
  obtain ⟨s₁, h₁, hrequest₁, hends⟩ := h.forward hrequest hmove trivial rfl
  exact hends (h₁.ends_of_cleaned hrequest₁ rfl)

/-- A request that has read the response comes to its end. -/
theorem Sound.ends_of_read {run : Run} {response : Except String String} (h : s.Sound first)
    (hrequest : s.requests[index]? = some request) (hphase : request.phase = .read run response) :
    s.Ends index := by
  obtain ⟨target, kind, ctx, phase⟩ := request
  subst hphase
  obtain ⟨-, -, -, ⟨ended, hended⟩, -⟩ := h.fits index _ hrequest
  let outcome : Outcome := { run := ended, runError := "", output := run.buffer.string, response }
  have hmove : Request.step s.runner s.files ⟨target, kind, ctx, .read run response⟩ (.report "") =
      some (⟨target, kind, ctx, .reported run (outcome.result run.settings target ctx)⟩,
        .nothing) := by
    simp [Request.step, hended, outcome]
  obtain ⟨s₁, h₁, hrequest₁, hends⟩ := h.forward hrequest hmove trivial trivial
  exact hends (h₁.ends_of_reported hrequest₁ rfl)

/-- A request whose command has returned comes to its end. -/
theorem Sound.ends_of_command {run : Run} {ended : RunResult} (h : s.Sound first)
    (hrequest : s.requests[index]? = some request) (hphase : request.phase = .running run)
    (hended : run.command.phase = .returned ended) : s.Ends index := by
  obtain ⟨target, kind, ctx, phase⟩ := request
  subst hphase
  have hfile := (h.fits index _ hrequest).1.response
  have hmove : Request.step s.runner s.files ⟨target, kind, ctx, .running run⟩ (.readFile none) =
      some (⟨target, kind, ctx, .read run (.ok run.written)⟩, .nothing) := by
    simp [Request.step, hended, hfile]
  obtain ⟨s₁, h₁, hrequest₁, hends⟩ := h.forward hrequest hmove trivial trivial
  exact hends (h₁.ends_of_read hrequest₁ rfl)

/-- The own steps of a command are own steps of its request. -/
theorem Sound.lift {run : Run} {command : Command} (h : s.Sound first)
    (hrequest : s.requests[index]? = some request) (hphase : request.phase = .running run)
    (hsteps : Steps Command.step Command.Own run.command command) :
    ∃ s' : Requests, s'.Sound first ∧
      s'.requests[index]? = some { request with phase := .running { run with command } } ∧
      (s'.Ends index → s.Ends index) := by
  obtain ⟨target, kind, ctx, phase⟩ := request
  subst hphase
  induction hsteps with
  | refl => exact ⟨s, h, hrequest, id⟩
  | @tail c₁ c₂ label hsteps hown hstep ih =>
    obtain ⟨s₁, h₁, hrequest₁, hends₁⟩ := ih
    have hlabel : Own (.run label) := by
      cases label with
      | start size => trivial
      | _ => exact hown
    have hmove : Request.step s₁.runner s₁.files
        ⟨target, kind, ctx, .running { run with command := c₁ }⟩ (.run label) =
          some (⟨target, kind, ctx, .running { run with command := c₂ }⟩, .nothing) := by
      simp [Request.step, hstep, Command.cancelled_step hown hstep]
    obtain ⟨s₂, h₂, hrequest₂, hends₂⟩ := h₁.forward hrequest₁ hmove hlabel trivial
    exact ⟨s₂, h₂, hrequest₂, fun hends ↦ hends₁ (hends₂ hends)⟩

/-- A request whose command listens comes to its end, when it has been cancelled and nobody has
escaped. -/
theorem Sound.ends_of_listens {run : Run} (h : s.Sound first)
    (hrequest : s.requests[index]? = some request) (hphase : request.phase = .running run)
    (hctx : request.ctx ≠ none) (hlistens : run.command.Listens)
    (hnone : ¬ run.command.family.Escaped run.command.Stuck) : s.Ends index := by
  obtain ⟨target, kind, ctx, phase⟩ := request
  subst hphase
  obtain ⟨hrun, hcancelled⟩ := h.fits index _ hrequest
  have hsome : run.command.cancelled = true := by
    rw [hcancelled]
    exact Option.isSome_iff_ne_none.mpr hctx
  obtain ⟨command, hsteps, ended, hended⟩ := (hrun.command.returns_iff hsome hlistens).mpr hnone
  obtain ⟨s₁, h₁, hrequest₁, hends₁⟩ := h.lift hrequest rfl hsteps
  exact hends₁ (h₁.ends_of_command hrequest₁ rfl hended)

/-- A request whose child has not been started comes to its end, when it has been cancelled. -/
theorem Sound.ends_of_start {run : Run} (h : s.Sound first)
    (hrequest : s.requests[index]? = some request) (hphase : request.phase = .running run)
    (hctx : request.ctx ≠ none) (hstart : run.command.phase = .start) : s.Ends index := by
  obtain ⟨target, kind, ctx, phase⟩ := request
  subst hphase
  let started : Command := { run.command with family := [{}], room := 0, phase := .running }
  have hmove : Request.step s.runner s.files ⟨target, kind, ctx, .running run⟩
      (.run (.start (some 0))) =
        some (⟨target, kind, ctx, .running { run with command := started }⟩, .nothing) := by
    simp [Request.step, Command.step, hstart, started]
  obtain ⟨s₁, h₁, hrequest₁, hends⟩ := h.forward hrequest hmove trivial trivial
  exact hends (h₁.ends_of_listens hrequest₁ rfl hctx trivial Family.not_escaped_leader)

/-- A request that has its workspace comes to its end, when no file can be created. -/
theorem Sound.ends_of_placed {settings : Runner} {prompt workspace : String} (h : s.Sound first)
    (hrequest : s.requests[index]? = some request)
    (hphase : request.phase = .placed settings prompt workspace) : s.Ends index := by
  obtain ⟨target, kind, ctx, phase⟩ := request
  subst hphase
  have hmove : Request.step s.runner s.files ⟨target, kind, ctx, .placed settings prompt workspace⟩
      (.createTemp (.error "")) = some (⟨target, kind, ctx, .cleaned workspace none
        (.failed [.text ("create response file: " ++ "")])⟩, .nothing) :=
    rfl
  obtain ⟨s₁, h₁, hrequest₁, hends⟩ := h.forward hrequest hmove trivial trivial
  exact hends (h₁.ends_of_cleaned hrequest₁ rfl)

/-- A request that has its prompt comes to its end, when no workspace can be created. -/
theorem Sound.ends_of_prepared {settings : Runner} {prompt : String} (h : s.Sound first)
    (hrequest : s.requests[index]? = some request)
    (hphase : request.phase = .prepared settings prompt) : s.Ends index := by
  obtain ⟨target, kind, ctx, phase⟩ := request
  subst hphase
  have hmove : Request.step s.runner s.files ⟨target, kind, ctx, .prepared settings prompt⟩
      (.mkdirTemp (.error "")) = some (⟨target, kind, ctx, .returned none
        (.failed [.text ("create temporary workspace: " ++ "")])⟩, .nothing) :=
    rfl
  obtain ⟨s₁, -, hrequest₁, hends⟩ := h.forward hrequest hmove trivial trivial
  exact hends (ends_of_returned hrequest₁ rfl)

/-- A request that has been called comes to its end. -/
theorem Sound.ends_of_called (h : s.Sound first) (hrequest : s.requests[index]? = some request)
    (hphase : request.phase = .called) : s.Ends index := by
  obtain ⟨target, kind, ctx, phase⟩ := request
  subst hphase
  cases hprompt : kind.prompt s.runner (.lines []) 0 "" with
  | error error =>
    have hmove : Request.step s.runner s.files ⟨target, kind, ctx, .called⟩
        (.begin (.lines []) 0 "") =
          some (⟨target, kind, ctx, .returned none (.failed error)⟩, .nothing) := by
      simp [Request.step, hprompt]
    obtain ⟨s₁, -, hrequest₁, hends⟩ := h.forward hrequest hmove trivial trivial
    exact hends (ends_of_returned hrequest₁ rfl)
  | ok prompt =>
    have hmove : Request.step s.runner s.files ⟨target, kind, ctx, .called⟩
        (.begin (.lines []) 0 "") =
          some (⟨target, kind, ctx, .prepared s.runner prompt⟩, .nothing) := by
      simp [Request.step, hprompt]
    obtain ⟨s₁, h₁, hrequest₁, hends⟩ := h.forward hrequest hmove trivial trivial
    exact hends (h₁.ends_of_prepared hrequest₁ rfl)

/-- However requests of a runner interleave: a request whose context is done can come to its end
with steps of its own, and orderly ones, whatever the others do, unless a process that it waits for
has left the process group of its child. -/
theorem cancelled_ends {runner : Runner} {files : Files}
    (hrun : Steps Requests.step (fun _ _ ↦ True) { runner, files } s)
    (hrequest : s.requests[index]? = some request) (hctx : request.ctx ≠ none)
    (hnone : ∀ run, request.phase = .running run →
      ¬ run.command.family.Escaped run.command.Stuck) :
    s.Ends index := by
  have h := sound_of_steps hrun
  obtain ⟨target, kind, ctx, phase⟩ := request
  cases phase with
  | called => exact h.ends_of_called hrequest rfl
  | prepared settings prompt => exact h.ends_of_prepared hrequest rfl
  | placed settings prompt workspace => exact h.ends_of_placed hrequest rfl
  | running run =>
    cases hcommand : run.command.phase with
    | start => exact h.ends_of_start hrequest rfl hctx hcommand
    | returned ended => exact h.ends_of_command hrequest rfl hcommand
    | _ =>
      refine h.ends_of_listens hrequest rfl hctx ?_ (hnone run rfl)
      rw [Command.Listens, hcommand]
      trivial
  | read run response => exact h.ends_of_read hrequest rfl
  | reported run result => exact h.ends_of_reported hrequest rfl
  | cleaned workspace run result => exact h.ends_of_cleaned hrequest rfl
  | returned run result => exact ends_of_returned hrequest rfl

/-- The child has been started and is alone. -/
def started (request : Request) : Bool :=
  match request.phase with
  | .running run => run.command.family = [{}] && request.ctx.isSome
  | _ => false

omit [Text] in
/-- A request that is cancelled while its child runs can come to its end. -/
theorem cancelled_ends_started : ∃ s : Requests, s.requests.map started = [true] ∧
    @Ends bytesText s 0 := by
  have heval : (runLabels (@Requests.step bytesText) (fun _ _ ↦ true)
      { runner := sampleRunner, files := fun _ ↦ none }
      ([.call (named "a") (.runPrompt "hello"), .request 0 (.begin (.lines []) 0 "")] ++
        (sampleSteps 0 "work" "response" "").take 3 ++ [.request 0 (.done .cancelled)])).any
        (·.requests.map started = [true]) = true := by
    decide +kernel
  obtain ⟨s, hrun, htest⟩ := Steps.exists_of_runLabels (fun _ _ _ ↦ trivial) heval
  have hstarted := of_decide_eq_true htest
  have hfirst := congrArg (·[0]?) hstarted
  rw [List.getElem?_map] at hfirst
  obtain ⟨request, hrequest, hstart⟩ := Option.map_eq_some_iff.mp hfirst
  obtain ⟨target, kind, ctx, phase⟩ := request
  cases phase with
  | running run =>
    obtain ⟨hfamily, hctx⟩ := Bool.and_eq_true_iff.mp hstart
    refine ⟨s, hstarted, @cancelled_ends bytesText _ _ _ _ _ hrun hrequest ?_ ?_⟩
    · exact Option.isSome_iff_ne_none.mp hctx
    · rintro _ ⟨⟩
      rw [of_decide_eq_true hfamily]
      exact Family.not_escaped_leader
  | _ => cases hstart

end Requests

end CodexQueueBot.Codex
