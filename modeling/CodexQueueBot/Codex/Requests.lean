import CodexQueueBot.Codex.Runner
import CodexQueueBot.Codex.TailBuffer
import CodexQueueBot.Lib.Leases

/-!
# Requests that go on at the same time

Requests of one runner share its settings, which can be changed at any time, and the directory for
temporary files: `runPrompt` makes a workspace and a file for the response there, runs the child,
reads the file, and removes both. `Requests` is any number of them, one step at a time:
`Request.step` is the next step of a request with what it does to the directory. The processes of a
child print as long as they hold the pipe of the output, and write the response and leave files in
the workspace as long as they run. One that outlives its request goes on writing under the names of
entries that were removed, unless another request has been given the name.

A request `Fits` the directory when its entries are there with what its own child has written.
Every step of it keeps this, and has an effect that is `Legal`: on a free name, or on its own.
-/

set_option autoImplicit false
set_option relaxedAutoImplicit false

namespace CodexQueueBot.Codex

open Go Jobs Lib

/-- What stands under a name of the directory: a workspace, in which there may be something, or a
file. -/
inductive Entry
  | directory (cluttered : Bool)
  | file (content : String)
  deriving DecidableEq, Repr

/-- The directory for temporary files. -/
abbrev Files := String → Option Entry

/-- A child of `runPrompt`, with what it has printed and the response that it has written until the
response is read. -/
structure Run where
  settings : Runner
  prompt : String
  workspace : String
  responsePath : String
  buffer : TailBuffer
  command : Command := {}
  printed : List UInt8 := []
  written : String := ""

/-- Where a request stands. -/
inductive RequestPhase
  | called
  | prepared (settings : Runner) (prompt : String)
  | placed (settings : Runner) (prompt workspace : String)
  | running (run : Run)
  | read (run : Run) (response : Except String String)
  | reported (run : Run) (result : Result)
  | cleaned (workspace : String) (run : Option Run) (result : Result)
  | returned (run : Option Run) (result : Result)

/-- A call of `Run` or of `RunPrompt`, with the error of its context. -/
structure Request where
  target : Target
  kind : Kind
  ctx : Option CtxError := none
  phase : RequestPhase := .called

/-- What happens to a request next: its context is done, it goes on, or its child does something. -/
inductive RequestLabel
  | done (error : CtxError)
  | begin (file : PromptsFile) (draw : ℕ) (requestID : String)
  | mkdirTemp (name : Except String String)
  | createTemp (name : Except String String)
  | run (label : RunLabel)
  | print (bytes : Slice UInt8)
  | write (content : String)
  | clutter
  | readFile (error : Option String)
  | report (runError : String)
  | removeResponse (ok : Bool)
  | removeWorkspace (ok : Bool)

/-- What a step does to the directory. A name whose entry cannot be removed is left there. -/
inductive Effect
  | nothing
  | create (name : String) (entry : Entry)
  | write (name : String) (entry : Entry)
  | remove (name : String)
  | leave (name : String)

/-- The directory after a step. -/
def Effect.files (files : Files) : Effect → Files
  | .create name entry => Function.update files name (some entry)
  | .write name entry => Function.update files name (some entry)
  | .remove name => Function.update files name none
  | _ => files

/-- The names that are left after a step. -/
def Effect.left (left : List String) : Effect → List String
  | .leave name => name :: left
  | _ => left

namespace Request

/-- `requestCtx.Done()` is closed; its first error stays. -/
def done (request : Request) (error : CtxError) : Request :=
  let phase := match request.phase with
    | .running run => .running { run with command := { run.command with cancelled := true } }
    | phase => phase
  { request with ctx := request.ctx.or (some error), phase }

section

variable [Text]

/-- The next step of a request, with what it does to the directory. -/
def step (runner : Runner) (files : Files) (request : Request) :
    RequestLabel → Option (Request × Effect)
  | .done error => some (request.done error, .nothing)
  | .begin file draw requestID =>
    match request.phase with
    | .called =>
      match request.kind.prompt runner file draw requestID with
      | .ok prompt => some ({ request with phase := .prepared runner prompt }, .nothing)
      | .error error =>
        some ({ request with phase := .returned none (.failed error) }, .nothing)
    | _ => none
  | .mkdirTemp name =>
    match request.phase, name with
    | .prepared settings prompt, .ok name =>
      if files name = none then
        some ({ request with phase := .placed settings prompt name },
          .create name (.directory false))
      else none
    | .prepared _ _, .error error =>
      let error : Message := [.text ("create temporary workspace: " ++ error)]
      some ({ request with phase := .returned none (.failed error) }, .nothing)
    | _, _ => none
  | .createTemp name =>
    match request.phase, name with
    | .placed settings prompt workspace, .ok name => do
      let buffer ← newTailBuffer maxOutputLen
      let command : Command := { left := prompt.utf8ByteSize, cancelled := request.ctx.isSome }
      let run : Run := { settings, prompt, workspace, responsePath := name, buffer, command }
      if files name = none then
        some ({ request with phase := .running run }, .create name (.file ""))
      else none
    | .placed _ _ workspace, .error error =>
      let error : Message := [.text ("create response file: " ++ error)]
      some ({ request with phase := .cleaned workspace none (.failed error) }, .nothing)
    | _, _ => none
  | .run label =>
    match request.phase with
    | .running run => do
      let command ← run.command.step label
      -- The context of the command is that of the request.
      if command.cancelled = run.command.cancelled then
        some ({ request with phase := .running { run with command } }, .nothing)
      else none
    | _ => none
  | .print bytes =>
    match request.phase with
    | .running run => do
      let (buffer, _) ← run.buffer.write bytes
      let printed := run.printed ++ bytes.content
      if run.command.family.Prints then
        some ({ request with phase := .running { run with buffer, printed } }, .nothing)
      else none
    | _ => none
  | .write content =>
    match request.phase with
    | .running run =>
      if run.command.family.Alive then
        some ({ request with phase := .running { run with written := content } },
          .write run.responsePath (.file content))
      else none
    | .read run _ | .reported run _ =>
      if run.command.family.Alive then some (request, .write run.responsePath (.file content))
      else none
    | _ => none
  | .clutter =>
    match request.phase with
    | .running run | .read run _ | .reported run _ =>
      if run.command.family.Alive then some (request, .write run.workspace (.directory true))
      else none
    | .cleaned workspace (some run) _ =>
      if run.command.family.Alive then some (request, .write workspace (.directory true))
      else none
    | _ => none
  | .readFile error =>
    match request.phase with
    | .running run =>
      match run.command.phase, error, files run.responsePath with
      | .returned _, some error, _ =>
        some ({ request with phase := .read run (.error error) }, .nothing)
      | .returned _, none, some (.file content) =>
        some ({ request with phase := .read run (.ok content) }, .nothing)
      | _, _, _ => none
    | _ => none
  | .report runError =>
    match request.phase with
    | .read run response =>
      match run.command.phase with
      | .returned result =>
        let outcome : Outcome := { run := result, runError, output := run.buffer.string, response }
        let result := outcome.result run.settings request.target request.ctx
        some ({ request with phase := .reported run result }, .nothing)
      | _ => none
    | _ => none
  | .removeResponse ok =>
    match request.phase with
    | .reported run result =>
      some ({ request with phase := .cleaned run.workspace (some run) result },
        if ok then .remove run.responsePath else .leave run.responsePath)
    | _ => none
  | .removeWorkspace ok =>
    match request.phase with
    | .cleaned workspace run result =>
      let returned : Request := { request with phase := .returned run result }
      if ok then
        if files workspace = some (.directory false) then some (returned, .remove workspace)
        else none
      else some (returned, .leave workspace)
    | _ => none

end

/-- The names that a request has in the directory. -/
def names (request : Request) : List String :=
  match request.phase with
  | .placed _ _ workspace => [workspace]
  | .running run => [run.responsePath, run.workspace]
  | .read run _ => [run.responsePath, run.workspace]
  | .reported run _ => [run.responsePath, run.workspace]
  | .cleaned workspace _ _ => [workspace]
  | _ => []

/-- The names of entries that the request has removed or left, if a process of the child still ran
when the response was read. -/
def outlived (request : Request) : List String :=
  match request.phase with
  | .cleaned _ (some run) _ => if run.command.family.Alive then [run.responsePath] else []
  | .returned (some run) _ =>
    if run.command.family.Alive then [run.responsePath, run.workspace] else []
  | _ => []

end Request

/-- The requests of a runner, with the names that they have left in the directory. -/
structure Requests where
  runner : Runner
  files : Files
  requests : List Request := []
  left : List String := []

/-- What happens next: `UpdateRuntime`, `UpdatePaths`, a call, a step of a request, or a process
that has outlived a request writes. -/
inductive Label
  | updateRuntime (timeout : ℕ) (reasoningEffort : String) (overrides : List String)
  | updatePaths (binary promptsFile : String) (prompts : List String)
    (promptsPersisted : Option Bool)
  | call (target : Target) (kind : Kind)
  | request (index : ℕ) (label : RequestLabel)
  | stray (index : ℕ) (name : String) (entry : Entry)

namespace Requests

variable [Text]

/-- The transition function. -/
def step (s : Requests) : Label → Option Requests
  | .updateRuntime timeout reasoningEffort overrides =>
    some { s with runner := s.runner.updateRuntime timeout reasoningEffort overrides }
  | .updatePaths binary promptsFile prompts promptsPersisted =>
    some { s with runner := s.runner.updatePaths binary promptsFile prompts promptsPersisted }
  | .call target kind => some { s with requests := s.requests ++ [{ target, kind }] }
  | .request index label => do
    let request ← s.requests[index]?
    let (request, effect) ← request.step s.runner s.files label
    return { s with
      files := effect.files s.files
      requests := s.requests.set index request
      left := effect.left s.left }
  | .stray index name entry => do
    let request ← s.requests[index]?
    -- What stands under a name that is not free belongs to a request, or was left by one.
    if name ∈ request.outlived ∧ (s.files name = none ∨ name ∈ s.left) then
      return { s with
        files := Function.update s.files name (some entry)
        left := name :: s.left }
    else none

end Requests

/-! ### A request on its own -/

variable [Text]

/-- A workspace stands under a name. -/
def Files.Directory (files : Files) (name : String) : Prop :=
  ∃ cluttered, files name = some (.directory cluttered)

/-- A child on its own: its workspace and its response stand in the directory, and the buffer has
the end of what it has printed. -/
structure Run.Fits (run : Run) (files : Files) : Prop where
  workspace : files.Directory run.workspace
  response : files run.responsePath = some (.file run.written)
  buffer : run.buffer.Keeps maxOutputLen run.printed
  command : run.command.Sound

/-- The entries of a child stand in the directory, whatever is in them. -/
structure Run.Placed (run : Run) (files : Files) : Prop where
  workspace : files.Directory run.workspace
  response : ∃ content, files run.responsePath = some (.file content)

/-- A result is that of the child, or tells why there was none. -/
def Reports (target : Target) (run : Option Run) (result : Result) : Prop :=
  match run with
  | none => ∃ error, error ≠ [] ∧ result = .failed error
  | some run => run.command.Sound ∧ ∃ (outcome : Outcome) (ctx : Option CtxError),
      run.command.phase = .returned outcome.run ∧
      outcome.output = run.printed.rtake maxOutputLen ∧
      (∀ content, outcome.response = .ok content → content = run.written) ∧
      result = outcome.result run.settings target ctx

namespace Request

/-- A request on its own, wherever it stands. -/
def Fits (request : Request) (files : Files) : Prop :=
  match request.phase with
  | .placed _ _ workspace => files.Directory workspace
  | .running run => run.Fits files ∧ run.command.cancelled = request.ctx.isSome
  | .read run response => run.Placed files ∧ run.buffer.Keeps maxOutputLen run.printed ∧
      run.command.Sound ∧ (∃ result, run.command.phase = .returned result) ∧
      ∀ content, response = .ok content → content = run.written
  | .reported run result => run.Placed files ∧ Reports request.target (some run) result
  | .cleaned workspace run result => files.Directory workspace ∧ Reports request.target run result
  | .returned run result => Reports request.target run result
  | _ => True

end Request

/-- The removals that fail. -/
def RequestLabel.Leaves (label : RequestLabel) : Prop :=
  label = .removeResponse false ∨ label = .removeWorkspace false

/-- What the effect of a step may be, with the names of the request before and after. -/
def Effect.Legal (files : Files) (label : RequestLabel) (names names' : List String) :
    Effect → Prop
  | .nothing => names' = names
  | .create name _ => files name = none ∧ ∀ other, other ∈ names' ↔ other ∈ names ∨ other = name
  | .write name _ => name ∈ names ∧ names' = names
  | .remove name => name ∈ names ∧ ∀ other, other ∈ names' ↔ other ∈ names ∧ other ≠ name
  | .leave name => label.Leaves ∧ name ∈ names ∧
      ∀ other, other ∈ names' ↔ other ∈ names ∧ other ≠ name

variable {files files' : Files} {request request' : Request} {run : Run} {effect : Effect}
  {label : RequestLabel}

omit [Text] in
/-- The entries that others have are left alone. -/
theorem Effect.Legal.files_eq {names names' : List String} {other : String}
    (h : effect.Legal files label names names') (hout : other ∉ names)
    (hthere : files other ≠ none) : effect.files files other = files other := by
  cases effect with
  | nothing => rfl
  | create name entry =>
    have hne : other ≠ name := fun heq ↦ hthere (heq ▸ h.1)
    exact Function.update_of_ne hne _ _
  | write name entry =>
    have hne : other ≠ name := fun heq ↦ hout (heq ▸ h.1)
    exact Function.update_of_ne hne _ _
  | remove name =>
    have hne : other ≠ name := fun heq ↦ hout (heq ▸ h.1)
    exact Function.update_of_ne hne _ _
  | leave name => rfl

omit [Text] in
/-- A workspace depends on its entry only. -/
theorem Files.Directory.frame {name : String} (h : files.Directory name)
    (hsame : files' name = files name) : files'.Directory name := by
  rw [Files.Directory, hsame]
  exact h

omit [Text] in
/-- A child depends on its own entries only. -/
theorem Run.Fits.frame (h : run.Fits files) (hresponse : files' run.responsePath =
    files run.responsePath) (hworkspace : files' run.workspace = files run.workspace) :
    run.Fits files' where
  workspace := h.workspace.frame hworkspace
  response := hresponse.trans h.response
  buffer := h.buffer
  command := h.command

omit [Text] in
theorem Run.Fits.placed (h : run.Fits files) : run.Placed files :=
  ⟨h.workspace, run.written, h.response⟩

omit [Text] in
/-- The entries of a child depend on nothing but themselves. -/
theorem Run.Placed.frame (h : run.Placed files) (hresponse : files' run.responsePath =
    files run.responsePath) (hworkspace : files' run.workspace = files run.workspace) :
    run.Placed files' where
  workspace := h.workspace.frame hworkspace
  response := by
    rw [hresponse]
    exact h.response

omit [Text] in
/-- The workspace of a child is not its response. -/
theorem Run.Placed.workspace_ne (h : run.Placed files) : run.workspace ≠ run.responsePath := by
  intro heq
  obtain ⟨cluttered, hworkspace⟩ := h.workspace
  obtain ⟨content, hresponse⟩ := h.response
  rw [heq, hresponse] at hworkspace
  cases hworkspace

omit [Text] in
/-- A process of the child writes a response. -/
theorem Run.Placed.write (h : run.Placed files) (content : String) :
    run.Placed (Function.update files run.responsePath (some (.file content))) where
  workspace := h.workspace.frame (Function.update_of_ne h.workspace_ne _ _)
  response := ⟨content, Function.update_self _ _ _⟩

omit [Text] in
/-- A process of the child leaves files in the workspace. -/
theorem Run.Placed.clutter (h : run.Placed files) :
    run.Placed (Function.update files run.workspace (some (.directory true))) where
  workspace := ⟨true, Function.update_self _ _ _⟩
  response := by
    rw [Function.update_of_ne h.workspace_ne.symm]
    exact h.response

namespace Request

/-- A request depends on its own entries only. -/
theorem Fits.frame (h : request.Fits files)
    (hsame : ∀ name ∈ request.names, files' name = files name) : request.Fits files' := by
  obtain ⟨target, kind, ctx, phase⟩ := request
  cases phase with
  | called => trivial
  | prepared settings prompt => trivial
  | placed settings prompt workspace => exact Files.Directory.frame h (hsame _ List.mem_cons_self)
  | running run =>
    exact ⟨h.1.frame (hsame _ List.mem_cons_self)
      (hsame _ (List.mem_cons_of_mem _ (List.mem_singleton_self _))), h.2⟩
  | read run response =>
    exact ⟨h.1.frame (hsame _ List.mem_cons_self)
      (hsame _ (List.mem_cons_of_mem _ (List.mem_singleton_self _))), h.2⟩
  | reported run result =>
    exact ⟨h.1.frame (hsame _ List.mem_cons_self)
      (hsame _ (List.mem_cons_of_mem _ (List.mem_singleton_self _))), h.2⟩
  | cleaned workspace run result => exact ⟨h.1.frame (hsame _ List.mem_cons_self), h.2⟩
  | returned run result => exact h

/-- What holds of every step of a request that is on its own. -/
structure Steady (files : Files) (label : RequestLabel) (request request' : Request)
    (effect : Effect) : Prop where
  fits : request'.Fits (effect.files files)
  legal : effect.Legal files label request.names request'.names

/-- A request that is done stays on its own. -/
theorem Fits.done (h : request.Fits files) (error : CtxError) :
    Steady files (.done error) request (request.done error) .nothing := by
  obtain ⟨target, kind, ctx, phase⟩ := request
  cases phase with
  | running run =>
    have hcommand := h.1.command.cancel
    refine ⟨⟨⟨h.1.workspace, h.1.response, h.1.buffer, hcommand⟩, ?_⟩, rfl⟩
    cases ctx <;> rfl
  | _ => exact ⟨h, rfl⟩

/-- A step keeps a request on its own, and does only what it may to the directory. -/
theorem Fits.step {runner : Runner} (h : request.Fits files)
    (hstep : request.step runner files label = some (request', effect)) :
    Steady files label request request' effect := by
  cases label with
  | done error =>
    obtain ⟨rfl, rfl⟩ := Prod.mk.inj (Option.some.inj hstep)
    exact h.done error
  | begin file draw requestID =>
    obtain ⟨target, kind, ctx, phase⟩ := request
    cases phase with
    | called =>
      simp only [Request.step] at hstep
      split at hstep
      · obtain ⟨rfl, rfl⟩ := Prod.mk.inj (Option.some.inj hstep)
        exact ⟨trivial, rfl⟩
      · rename_i error hprompt
        obtain ⟨rfl, rfl⟩ := Prod.mk.inj (Option.some.inj hstep)
        exact ⟨⟨error, Kind.prompt_error_ne hprompt, rfl⟩, rfl⟩
    | _ => cases hstep
  | mkdirTemp name =>
    obtain ⟨target, kind, ctx, phase⟩ := request
    cases phase with
    | prepared settings prompt =>
      cases name with
      | error error =>
        obtain ⟨rfl, rfl⟩ := Prod.mk.inj (Option.some.inj hstep)
        exact ⟨⟨_, List.cons_ne_nil _ _, rfl⟩, rfl⟩
      | ok name =>
        simp only [Request.step] at hstep
        split_ifs at hstep with hfree
        obtain ⟨rfl, rfl⟩ := Prod.mk.inj (Option.some.inj hstep)
        exact ⟨⟨false, Function.update_self _ _ _⟩, hfree, by simp [names]⟩
    | _ => cases hstep
  | createTemp name =>
    obtain ⟨target, kind, ctx, phase⟩ := request
    cases phase with
    | placed settings prompt workspace =>
      cases name with
      | error error =>
        obtain ⟨rfl, rfl⟩ := Prod.mk.inj (Option.some.inj hstep)
        exact ⟨⟨h, _, List.cons_ne_nil _ _, rfl⟩, rfl⟩
      | ok name =>
        simp only [Request.step] at hstep
        obtain ⟨buffer, hbuffer, hstep⟩ := Option.bind_eq_some_iff.mp hstep
        split_ifs at hstep with hfree
        obtain ⟨rfl, rfl⟩ := Prod.mk.inj (Option.some.inj hstep)
        refine ⟨⟨⟨?_, Function.update_self _ _ _, TailBuffer.keeps_new hbuffer, ?_⟩,
          rfl⟩, hfree, by simp [names, or_comm]⟩
        · have hne : workspace ≠ name := by
            rintro rfl
            obtain ⟨cluttered, hworkspace⟩ := h
            rw [hfree] at hworkspace
            cases hworkspace
          exact Files.Directory.frame h (Function.update_of_ne hne _ _)
        · have hsound := Command.sound_initial prompt.utf8ByteSize
          cases ctx.isSome with
          | false => exact hsound
          | true => exact hsound.cancel
    | _ => cases hstep
  | run label =>
    obtain ⟨target, kind, ctx, phase⟩ := request
    cases phase with
    | running run =>
      obtain ⟨command, hcommand, hstep⟩ := Option.bind_eq_some_iff.mp hstep
      split_ifs at hstep with hsame
      obtain ⟨rfl, rfl⟩ := Prod.mk.inj (Option.some.inj hstep)
      obtain ⟨⟨hworkspace, hresponse, hbuffer, hsound⟩, hctx⟩ := h
      exact ⟨⟨⟨hworkspace, hresponse, hbuffer, hsound.step hcommand⟩, hsame.trans hctx⟩, rfl⟩
    | _ => cases hstep
  | print bytes =>
    obtain ⟨target, kind, ctx, phase⟩ := request
    cases phase with
    | running run =>
      obtain ⟨⟨buffer, count⟩, hwrite, hstep⟩ := Option.bind_eq_some_iff.mp hstep
      dsimp only at hstep
      split_ifs at hstep
      obtain ⟨rfl, rfl⟩ := Prod.mk.inj (Option.some.inj hstep)
      obtain ⟨buffer', hbuffer, hkeeps⟩ := h.1.buffer.write (by decide) bytes
      rw [hwrite] at hbuffer
      obtain ⟨rfl, -⟩ := Prod.mk.inj (Option.some.inj hbuffer)
      exact ⟨⟨⟨h.1.workspace, h.1.response, hkeeps, h.1.command⟩, h.2⟩, rfl⟩
    | _ => cases hstep
  | write content =>
    obtain ⟨target, kind, ctx, phase⟩ := request
    cases phase with
    | running run =>
      simp only [Request.step] at hstep
      split_ifs at hstep
      obtain ⟨rfl, rfl⟩ := Prod.mk.inj (Option.some.inj hstep)
      refine ⟨⟨⟨?_, Function.update_self _ _ _, h.1.buffer, h.1.command⟩, h.2⟩,
        List.mem_cons_self, rfl⟩
      exact (h.1.placed.write content).workspace
    | read run response | reported run result =>
      simp only [Request.step] at hstep
      split_ifs at hstep
      obtain ⟨rfl, rfl⟩ := Prod.mk.inj (Option.some.inj hstep)
      exact ⟨⟨h.1.write content, h.2⟩, List.mem_cons_self, rfl⟩
    | _ => cases hstep
  | clutter =>
    obtain ⟨target, kind, ctx, phase⟩ := request
    cases phase with
    | running run =>
      simp only [Request.step] at hstep
      split_ifs at hstep
      obtain ⟨rfl, rfl⟩ := Prod.mk.inj (Option.some.inj hstep)
      refine ⟨⟨⟨⟨true, Function.update_self _ _ _⟩, ?_, h.1.buffer, h.1.command⟩, h.2⟩,
        List.mem_cons_of_mem _ (List.mem_singleton_self _), rfl⟩
      exact (Function.update_of_ne h.1.placed.workspace_ne.symm _ _).trans h.1.response
    | read run response | reported run result =>
      simp only [Request.step] at hstep
      split_ifs at hstep
      obtain ⟨rfl, rfl⟩ := Prod.mk.inj (Option.some.inj hstep)
      exact ⟨⟨h.1.clutter, h.2⟩, List.mem_cons_of_mem _ (List.mem_singleton_self _), rfl⟩
    | cleaned workspace run result =>
      cases run with
      | none => cases hstep
      | some run =>
        simp only [Request.step] at hstep
        split_ifs at hstep
        obtain ⟨rfl, rfl⟩ := Prod.mk.inj (Option.some.inj hstep)
        exact ⟨⟨⟨true, Function.update_self _ _ _⟩, h.2⟩, List.mem_singleton_self _, rfl⟩
    | _ => cases hstep
  | readFile error =>
    obtain ⟨target, kind, ctx, phase⟩ := request
    cases phase with
    | running run =>
      simp only [Request.step] at hstep
      split at hstep
      · rename_i hphase
        obtain ⟨rfl, rfl⟩ := Prod.mk.inj (Option.some.inj hstep)
        exact ⟨⟨h.1.placed, h.1.buffer, h.1.command, ⟨_, hphase⟩,
          fun content hcontent ↦ (by cases hcontent)⟩, rfl⟩
      · rename_i hphase hfile
        obtain ⟨rfl, rfl⟩ := Prod.mk.inj (Option.some.inj hstep)
        refine ⟨⟨h.1.placed, h.1.buffer, h.1.command, ⟨_, hphase⟩, ?_⟩, rfl⟩
        rintro _ ⟨⟩
        simpa [h.1.response] using hfile.symm
      · cases hstep
    | _ => cases hstep
  | report runError =>
    obtain ⟨target, kind, ctx, phase⟩ := request
    cases phase with
    | read run response =>
      simp only [Request.step] at hstep
      split at hstep
      · rename_i result hphase
        obtain ⟨rfl, rfl⟩ := Prod.mk.inj (Option.some.inj hstep)
        obtain ⟨hplaced, hbuffer, hcommand, -, hresponse⟩ := h
        exact ⟨⟨hplaced, hcommand, _, ctx, hphase, hbuffer.content, hresponse, rfl⟩, rfl⟩
      · cases hstep
    | _ => cases hstep
  | removeResponse ok =>
    obtain ⟨target, kind, ctx, phase⟩ := request
    cases phase with
    | reported run result =>
      obtain ⟨rfl, rfl⟩ := Prod.mk.inj (Option.some.inj hstep)
      have hnames : ∀ other, other ∈ [run.workspace] ↔
          other ∈ [run.responsePath, run.workspace] ∧ other ≠ run.responsePath := by
        intro other
        simp only [List.mem_cons, List.not_mem_nil, or_false]
        constructor
        · rintro rfl
          exact ⟨.inr rfl, h.1.workspace_ne⟩
        · rintro ⟨hresponse | hworkspace, hne⟩
          · exact absurd hresponse hne
          · exact hworkspace
      cases ok with
      | true =>
        refine ⟨⟨?_, h.2⟩, List.mem_cons_self, hnames⟩
        exact h.1.workspace.frame (Function.update_of_ne h.1.workspace_ne _ _)
      | false => exact ⟨⟨h.1.workspace, h.2⟩, .inl rfl, List.mem_cons_self, hnames⟩
    | _ => cases hstep
  | removeWorkspace ok =>
    obtain ⟨target, kind, ctx, phase⟩ := request
    cases phase with
    | cleaned workspace run result =>
      have hnames : ∀ other, other ∈ [] ↔ other ∈ [workspace] ∧ other ≠ workspace := by
        simp
      cases ok with
      | true =>
        simp only [Request.step, if_true] at hstep
        split_ifs at hstep
        obtain ⟨rfl, rfl⟩ := Prod.mk.inj (Option.some.inj hstep)
        exact ⟨h.2, List.mem_cons_self, hnames⟩
      | false =>
        obtain ⟨rfl, rfl⟩ := Prod.mk.inj (Option.some.inj hstep)
        exact ⟨h.2, .inr rfl, List.mem_cons_self, hnames⟩
    | _ => cases hstep

end Request

end CodexQueueBot.Codex
