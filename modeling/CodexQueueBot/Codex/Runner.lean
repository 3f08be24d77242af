import CodexQueueBot.Codex.Arguments
import CodexQueueBot.Codex.Process
import CodexQueueBot.Jobs.Redaction
import Mathlib.Data.List.DropRight

/-!
# Runners

`Runner` is what the mutex of a runner guards; a request copies it when it is called. `pickPrompt`
chooses a prompt of the list that was saved, or of the prompt file if none was, and
`Outcome.result` is what `runPrompt` reports of a child that has ended. The output of the child is
shown with the key of the target redacted.

Times are left out, and so is the command line, which `argsWithSettings` makes of the settings.
-/

set_option autoImplicit false
set_option relaxedAutoImplicit false

namespace CodexQueueBot.Codex

open Go Jobs Lib

/-! ### Settings -/

/-- The fields of `Runner` that can change, which are those of `runnerSettings`; the timeout is in
milliseconds. -/
structure Runner extends RunnerSettings where
  binary : String
  promptsFile : String
  prompts : List String
  promptsPersisted : Bool
  timeout : ℕ
  deriving DecidableEq, Repr

namespace Runner

/-- `UpdateRuntime`. -/
def updateRuntime (r : Runner) (timeout : ℕ) (reasoningEffort : String)
    (overrides : List String) : Runner :=
  { r with timeout, reasoningEffort, overrides }

/-- `UpdatePaths`. -/
def updatePaths (r : Runner) (binary promptsFile : String) (prompts : List String)
    (promptsPersisted : Option Bool) : Runner :=
  { r with
    binary := if Strings.trimSpace binary ≠ "" then Strings.trimSpace binary else r.binary
    promptsFile :=
      if Strings.trimSpace promptsFile ≠ "" then Strings.trimSpace promptsFile else r.promptsFile
    prompts
    promptsPersisted := promptsPersisted.getD true }

end Runner

/-! ### Prompts -/

/-- What reading the prompt file comes to: an error of `os.Open` or of the scanner, or the lines. -/
inductive PromptsFile
  | unopened (error : String)
  | unread (error : String)
  | lines (lines : List String)
  deriving DecidableEq, Repr

/-- `strings.TrimSuffix(line, "\r")`. -/
def trimReturn (line : String) : String :=
  if line.toList.getLast? = some '\r' then String.ofList line.toList.dropLast else line

/-- A line that is neither blank nor a comment. -/
def usable (line : String) : Bool :=
  Strings.trimSpace line ≠ "" && (Strings.trimSpace line).toList.head? ≠ some '#'

/-- `readPrompts`. -/
def readPrompts (path : String) : PromptsFile → Except Message (List String)
  | .unopened error => .error [.text "open prompts file ", .quoted path, .text (": " ++ error)]
  | .unread error => .error [.text "read prompts file ", .quoted path, .text (": " ++ error)]
  | .lines lines =>
    let prompts := (lines.map trimReturn).filter usable
    if prompts = [] then
      .error [.text "prompts file ", .quoted path, .text " has no usable prompts"]
    else .ok prompts

/-- A random element of a list that is not empty. -/
def choose (prompts : List String) (draw : ℕ) : String :=
  prompts.getD (draw % prompts.length) ""

/-- `pickPromptFromSettings`. -/
def pickPromptFromSettings (settings : Runner) (file : PromptsFile) (draw : ℕ) :
    Except Message String :=
  if settings.promptsPersisted then
    if settings.prompts = [] then .error [.text "configured prompt list is empty"]
    else .ok (choose settings.prompts draw)
  else (readPrompts settings.promptsFile file).map (choose · draw)

/-- `Check`, with what `exec.LookPath` says of the binary and `filepath.Abs` of a path. -/
def Runner.check (r : Runner) (lookPath : Except String String)
    (abs : String → Except String String) (file : PromptsFile) : Except Message Unit × Runner :=
  match lookPath with
  | .error error =>
    (.error [.text "find Codex executable ", .quoted r.binary, .text (": " ++ error)], r)
  | .ok found =>
    match if found.toList.head? = some '/' then .ok found else abs found with
    | .error error =>
      (.error [.text "resolve Codex executable ", .quoted r.binary, .text (": " ++ error)], r)
    | .ok resolved =>
      let prompts : Except Message Unit :=
        if r.promptsPersisted then
          if r.prompts = [] then .error [.text "configured prompt list is empty"]
          else if r.prompts.any (Strings.trimSpace · = "") then
            .error [.text "configured prompt list contains an empty prompt"]
          else .ok ()
        else (readPrompts r.promptsFile file).map fun _ ↦ ()
      (prompts, { r with binary := resolved })

/-- A prompt that is chosen is one of the list. -/
theorem choose_mem {prompts : List String} (hne : prompts ≠ []) (draw : ℕ) :
    choose prompts draw ∈ prompts := by
  have hlt := Nat.mod_lt draw (List.length_pos_iff.mpr hne)
  rw [choose, List.getD_eq_getElem?_getD, List.getElem?_eq_getElem hlt, Option.getD_some]
  exact List.getElem_mem hlt

/-- The prompts of a file can be used, and there is one. -/
theorem readPrompts_eq_ok {path : String} {file : PromptsFile} {prompts : List String}
    (h : readPrompts path file = .ok prompts) :
    prompts ≠ [] ∧ ∀ prompt ∈ prompts, Strings.trimSpace prompt ≠ "" := by
  cases file with
  | unopened error => cases h
  | unread error => cases h
  | lines lines =>
    simp only [readPrompts] at h
    split_ifs at h with hempty
    obtain rfl := Except.ok.inj h
    refine ⟨hempty, fun prompt hmem ↦ ?_⟩
    have husable := (List.mem_filter.mp hmem).2
    rw [usable, Bool.and_eq_true, decide_eq_true_eq] at husable
    exact husable.1

/-- A runner that passes its check finds a prompt that is not blank, as long as the prompts stay. -/
theorem Runner.pick_of_check {r r' : Runner} {lookPath : Except String String}
    {abs : String → Except String String} {file : PromptsFile}
    (h : r.check lookPath abs file = (.ok (), r')) (draw : ℕ) :
    ∃ prompt, pickPromptFromSettings r' file draw = .ok prompt ∧ Strings.trimSpace prompt ≠ "" := by
  have hchoose : ∀ {prompts : List String}, prompts ≠ [] →
      (∀ prompt ∈ prompts, Strings.trimSpace prompt ≠ "") →
      ∃ prompt, Except.ok (choose prompts draw) = (.ok prompt : Except Message String) ∧
        Strings.trimSpace prompt ≠ "" :=
    fun hne husable ↦ ⟨_, rfl, husable _ (choose_mem hne draw)⟩
  unfold Runner.check at h
  split at h
  · cases h
  split at h
  · cases h
  obtain ⟨hprompts, rfl⟩ := Prod.mk.inj h
  unfold pickPromptFromSettings
  dsimp only at hprompts ⊢
  split_ifs at hprompts ⊢ with hpersisted hempty hblank
  · refine hchoose hempty fun prompt hmem htrim ↦ hblank ?_
    exact List.any_eq_true.mpr ⟨prompt, hmem, decide_eq_true htrim⟩
  · cases hread : readPrompts r.promptsFile file with
    | error error =>
      rw [hread] at hprompts
      cases hprompts
    | ok prompts =>
      obtain ⟨hne, husable⟩ := readPrompts_eq_ok hread
      exact hchoose hne husable

/-- What `Run` adds to the prompt that it has picked. -/
def fullPrompt (prompt requestID : String) (attempt : ℕ) : String :=
  prompt ++ "\n\nAnswer concisely in at most 80 words. Do not inspect local files, run " ++
    "commands, browse, or use tools. Request ID: " ++ requestID ++ s!". Attempt: {attempt}"

/-- The call of a runner: `Run`, or `RunPrompt`. -/
inductive Kind
  | run (attempt : ℕ)
  | runPrompt (prompt : String)
  deriving DecidableEq, Repr

/-- The prompt of a request, or the error that it returns with at once. -/
def Kind.prompt (kind : Kind) (settings : Runner) (file : PromptsFile) (draw : ℕ)
    (requestID : String) : Except Message String :=
  match kind with
  | .run attempt => (pickPromptFromSettings settings file draw).map (fullPrompt · requestID attempt)
  | .runPrompt prompt =>
    if Strings.trimSpace prompt = "" then .error [.text "prompt must not be empty"] else .ok prompt

/-- A file without prompts says why. -/
theorem readPrompts_error_ne {path : String} {file : PromptsFile} {error : Message}
    (h : readPrompts path file = .error error) : error ≠ [] := by
  cases file with
  | unopened reason =>
    obtain rfl := Except.error.inj h
    exact List.cons_ne_nil _ _
  | unread reason =>
    obtain rfl := Except.error.inj h
    exact List.cons_ne_nil _ _
  | lines lines =>
    simp only [readPrompts] at h
    split_ifs at h
    obtain rfl := Except.error.inj h
    exact List.cons_ne_nil _ _

/-- A call without a prompt says why. -/
theorem Kind.prompt_error_ne {kind : Kind} {settings : Runner} {file : PromptsFile} {draw : ℕ}
    {requestID : String} {error : Message}
    (h : kind.prompt settings file draw requestID = .error error) : error ≠ [] := by
  have hmap : ∀ {α β : Type} {change : α → β} {result : Except Message α},
      result.map change = .error error → result = .error error := by
    intro α β change result hresult
    cases result with
    | error other => exact congrArg Except.error (Except.error.inj hresult)
    | ok value => cases hresult
  cases kind with
  | run attempt =>
    have hpick := hmap h
    unfold pickPromptFromSettings at hpick
    split_ifs at hpick
    · obtain rfl := Except.error.inj hpick
      exact List.cons_ne_nil _ _
    · exact readPrompts_error_ne (hmap hpick)
  | runPrompt prompt =>
    simp only [Kind.prompt] at h
    split_ifs at h
    obtain rfl := Except.error.inj h
    exact List.cons_ne_nil _ _

/-! ### Output -/

/-- `string(bytes)`. -/
class Text where
  ofBytes : List UInt8 → String

/-- `maxOutputLen`. -/
def maxOutputLen : ℕ :=
  64 * 1024

/-- `maxDiagnosticLen`. -/
def maxDiagnosticLen : ℕ :=
  4096

/-- `redact`. -/
def redact (value : String) (secrets : List String) : String :=
  secrets.foldl redactSecret value

/-- `strings.Fields`. -/
def fields (value : String) : List (List Char) :=
  (value.toList.splitOnP Strings.isSpace).filter (· ≠ [])

/-- `cleanDiagnostic`. -/
def cleanDiagnostic (raw : String) : String :=
  let chars := [' '].intercalate (fields (Strings.trimSpace raw))
  String.ofList (if maxDiagnosticLen < chars.length then chars.rtake maxDiagnosticLen else chars)

/-- `Result`. -/
structure Result where
  success : Bool := false
  response : String := ""
  processOutput : String := ""
  exitCode : ℤ := -1
  error : Message := []
  deriving DecidableEq, Repr

/-- A result that tells an error only. -/
def Result.failed (error : Message) : Result :=
  { error }

/-- `requestCtx.Err()`. -/
inductive CtxError
  | cancelled
  | deadlineExceeded
  deriving DecidableEq, Repr

/-- `commandExitCode`. -/
def commandExitCode : RunResult → ℤ
  | .notStarted => -1
  | .exited status => status

/-- What is left of a child: the result of `runCommand` with the text of its error, what the buffer
keeps of its output, and what `os.ReadFile` says of the response file. -/
structure Outcome where
  run : RunResult
  runError : String
  output : List UInt8
  response : Except String String

section

variable [Text]

/-- `ProcessOutput`, of what the buffer keeps. -/
def processOutput (target : Target) (output : List UInt8) : String :=
  Strings.trimSpace (redact (Text.ofBytes output) [target.apiKey])

/-- The diagnostic behind an error text. -/
def withDiagnostic (message : Message) (processOutput : String) : Message :=
  let diagnostic := cleanDiagnostic processOutput
  if diagnostic ≠ "" then message ++ [.text ": ", .text diagnostic] else message

/-- The second half of `runPrompt`, from the return of `runCommand` on. -/
def Outcome.result (outcome : Outcome) (settings : Runner) (target : Target)
    (ctx : Option CtxError) : Result :=
  let output := processOutput target outcome.output
  let response := match outcome.response with
    | .ok content => Strings.trimSpace content
    | .error _ => ""
  let result : Result :=
    { response, processOutput := output, exitCode := commandExitCode outcome.run }
  match ctx with
  | some .deadlineExceeded =>
    { result with error := [.text "request timed out after ", .number settings.timeout] }
  | some .cancelled => { result with error := [.text "request cancelled"] }
  | none =>
    if outcome.run ≠ .exited 0 then
      { result with
        error := withDiagnostic [.text ("codex exit failed: " ++ outcome.runError)] output }
    else match outcome.response with
      | .error error => { result with error := [.text ("read Codex response: " ++ error)] }
      | .ok _ =>
        if response = "" then
          { result with
            error := withDiagnostic
              [.text "Codex exited successfully but returned an empty final response"] output }
        else { result with success := true }

end

/-! ### Fields -/

section

variable {word : List Char}

/-- The first part of a text that is split is a prefix of it, and the others are parts of it. -/
theorem splitOnP_parts (p : Char → Bool) (chars : List Char) :
    (∀ part ∈ (chars.splitOnP p).head?, part <+: chars) ∧
      ∀ part ∈ chars.splitOnP p, part <:+: chars := by
  induction chars with
  | nil => simp
  | cons c chars ih =>
    rw [List.splitOnP_cons_eq_if_modifyHead]
    split_ifs with hc
    · refine ⟨by simp, fun part hmem ↦ ?_⟩
      rcases List.mem_cons.mp hmem with rfl | hmem
      · exact List.nil_infix
      · exact (ih.2 part hmem).trans (List.suffix_cons c chars).isInfix
    · obtain ⟨first, rest, hsplit⟩ := List.exists_cons_of_ne_nil (List.splitOnP_ne_nil p chars)
      rw [hsplit] at ih ⊢
      have hfirst : c :: first <+: c :: chars := List.cons_prefix_cons.mpr ⟨rfl, ih.1 first rfl⟩
      refine ⟨?_, fun part hmem ↦ ?_⟩
      · rintro _ ⟨⟩
        exact hfirst
      · rcases List.mem_cons.mp hmem with rfl | hmem
        · exact hfirst.isInfix
        · exact (ih.2 part (List.mem_cons_of_mem _ hmem)).trans (List.suffix_cons c chars).isInfix

/-- A word without the separator that occurs in parts that are joined occurs in one of them. -/
theorem infix_of_infix_intercalate {separator : Char} (hne : word ≠ []) (hsep : separator ∉ word)
    {parts : List (List Char)} (h : word <:+: [separator].intercalate parts) :
    ∃ part ∈ parts, word <:+: part := by
  induction parts with
  | nil => exact absurd (List.infix_nil.mp h) hne
  | cons part parts ih =>
    cases parts with
    | nil => exact ⟨part, List.mem_singleton_self _, by simpa using h⟩
    | cons next parts =>
      rw [List.intercalate_cons_cons] at h
      rcases Strings.infix_of_infix_separator hsep (by simpa using h) with hpart | hrest
      · exact ⟨part, List.mem_cons_self, hpart⟩
      · obtain ⟨other, hmem, hother⟩ := ih hrest
        exact ⟨other, List.mem_cons_of_mem _ hmem, hother⟩

/-- A word without white space that occurs in the diagnostic occurs in the output. -/
theorem occurs_of_occurs_cleanDiagnostic {word value : String} (hne : word ≠ "")
    (hspace : ∀ c ∈ word.toList, Strings.isSpace c = false)
    (h : Occurs word (cleanDiagnostic value)) : Occurs word value := by
  have hjoined : word.toList <:+: [' '].intercalate (fields (Strings.trimSpace value)) := by
    unfold cleanDiagnostic at h
    rw [Occurs, String.toList_ofList] at h
    split_ifs at h
    · exact h.trans (List.drop_suffix _ _).isInfix
    · exact h
  obtain ⟨part, hmem, hpart⟩ := infix_of_infix_intercalate
    (fun hnil ↦ hne (String.toList_eq_nil_iff.mp hnil))
    (fun hmem ↦ absurd (hspace _ hmem) (by decide)) hjoined
  have htrim := (splitOnP_parts Strings.isSpace _).2 part (List.mem_filter.mp hmem).1
  rw [Strings.trimSpace, String.toList_ofList] at htrim
  exact (hpart.trans htrim).trans (Strings.trimSpaceChars_infix _)

end

/-! ### What a result tells -/

section

variable [Text] {outcome : Outcome} {settings : Runner} {target : Target} {ctx : Option CtxError}

/-- What a result says besides of success and error. -/
theorem Outcome.result_shown (outcome : Outcome) (settings : Runner) (target : Target)
    (ctx : Option CtxError) :
    (outcome.result settings target ctx).exitCode = commandExitCode outcome.run ∧
    (outcome.result settings target ctx).processOutput = processOutput target outcome.output ∧
    ∀ content, outcome.response = .ok content →
      (outcome.result settings target ctx).response = Strings.trimSpace content := by
  obtain ⟨run, runError, output, response⟩ := outcome
  unfold Outcome.result
  cases ctx with
  | some error => cases error <;> exact ⟨rfl, rfl, by rintro _ rfl; rfl⟩
  | none =>
    by_cases hrun : run = .exited 0
    · cases response with
      | error error => exact ⟨by simp [hrun], by simp [hrun], by simp⟩
      | ok content =>
        by_cases hempty : Strings.trimSpace content = ""
        · simp [hrun, hempty]
        · simp [hrun, hempty]
    · simp only [ne_eq, hrun, not_false_eq_true, if_true, true_and]
      rintro _ rfl
      rfl

/-- A success is that of a child that has exited with zero while the request was going on, and that
has left a response which is not blank. -/
theorem Outcome.result_success_iff : (outcome.result settings target ctx).success = true ↔
    ctx = none ∧ outcome.run = .exited 0 ∧
      ∃ content, outcome.response = .ok content ∧ Strings.trimSpace content ≠ "" := by
  obtain ⟨run, runError, output, response⟩ := outcome
  unfold Outcome.result
  cases ctx with
  | some error => cases error <;> simp
  | none =>
    by_cases hrun : run = .exited 0
    · cases response with
      | error error => simp [hrun]
      | ok content =>
        by_cases hempty : Strings.trimSpace content = ""
        · simp [hrun, hempty]
        · simp [hrun, hempty]
    · simp [hrun]

omit [Text] in
/-- An error with a diagnostic behind it, if there is one. -/
theorem withDiagnostic_cases (own processOutput : String) :
    withDiagnostic [.text own] processOutput = [.text own] ∨
      withDiagnostic [.text own] processOutput =
        [.text own, .text ": ", .text (cleanDiagnostic processOutput)] := by
  unfold withDiagnostic
  generalize cleanDiagnostic processOutput = diagnostic
  by_cases hempty : diagnostic = ""
  · exact .inl (if_neg (not_not.mpr hempty))
  · exact .inr (if_pos hempty)

/-- What the bot itself says in an error. -/
def Outcome.ownTexts (outcome : Outcome) : List String :=
  ["request timed out after ", "request cancelled", "codex exit failed: " ++ outcome.runError, ": ",
    "Codex exited successfully but returned an empty final response"] ++
    match outcome.response with
    | .error error => ["read Codex response: " ++ error]
    | .ok _ => []

/-- The error of a result: none for a success, and else a text of the bot, with the timeout or the
diagnostic behind it. -/
theorem Outcome.result_cases (outcome : Outcome) (settings : Runner) (target : Target)
    (ctx : Option CtxError) :
    (outcome.result settings target ctx).success = true ∧
        (outcome.result settings target ctx).error = [] ∨
      (outcome.result settings target ctx).success = false ∧ ∃ own ∈ outcome.ownTexts,
        (outcome.result settings target ctx).error = [.text own, .number settings.timeout] ∨
        (outcome.result settings target ctx).error = [.text own] ∨
        (outcome.result settings target ctx).error = [.text own, .text ": ",
          .text (cleanDiagnostic (processOutput target outcome.output))] := by
  obtain ⟨run, runError, output, response⟩ := outcome
  generalize houtput : processOutput target output = shown
  unfold Outcome.result
  dsimp only
  rw [houtput]
  cases ctx with
  | some error =>
    cases error with
    | cancelled => exact .inr ⟨rfl, _, by simp [ownTexts], .inr (.inl rfl)⟩
    | deadlineExceeded => exact .inr ⟨rfl, _, by simp [ownTexts], .inl rfl⟩
  | none =>
    dsimp only
    by_cases hrun : run = .exited 0
    · rw [if_neg (not_not.mpr hrun)]
      cases response with
      | error error => exact .inr ⟨rfl, _, by simp [ownTexts], .inr (.inl rfl)⟩
      | ok content =>
        dsimp only
        by_cases hempty : Strings.trimSpace content = ""
        · rw [if_pos hempty]
          dsimp only
          refine .inr ⟨rfl, _, ?_, .inr (withDiagnostic_cases _ shown)⟩
          simp [ownTexts]
        · rw [if_neg hempty]
          exact .inl ⟨rfl, rfl⟩
    · rw [if_pos hrun]
      dsimp only
      refine .inr ⟨rfl, _, ?_, .inr (withDiagnostic_cases _ shown)⟩
      simp [ownTexts]

/-- A result is a success exactly if it tells no error. -/
theorem Outcome.result_error_iff : (outcome.result settings target ctx).error = [] ↔
    (outcome.result settings target ctx).success = true := by
  obtain ⟨hsuccess, herror⟩ | ⟨hsuccess, own, -, herror⟩ :=
    outcome.result_cases settings target ctx
  · simp [hsuccess, herror]
  · rcases herror with herror | herror | herror <;> simp [hsuccess, herror]

/-- What the child has printed is shown without the key: the key occurs neither in the output nor in
an error, unless it is a part of what the bot itself says there. -/
theorem Outcome.result_hides_key (hkey : Redactable target.apiKey)
    (hspace : ∀ c ∈ target.apiKey.toList, Strings.isSpace c = false) :
    ¬ Occurs target.apiKey (outcome.result settings target ctx).processOutput ∧
      ∀ value, .text value ∈ (outcome.result settings target ctx).error →
        Occurs target.apiKey value → value ∈ outcome.ownTexts := by
  have houtput : ¬ Occurs target.apiKey (processOutput target outcome.output) := by
    unfold processOutput redact
    intro hoccurs
    refine not_occurs_redactSecret_self hkey (Text.ofBytes outcome.output) ?_
    rw [Occurs, Strings.trimSpace, String.toList_ofList] at hoccurs
    exact hoccurs.trans (Strings.trimSpaceChars_infix _)
  have hcases :=
    outcome.result_cases settings target ctx
  have hshown := (outcome.result_shown settings target ctx).2.1
  refine ⟨by rwa [hshown], fun value hmem hoccurs ↦ ?_⟩
  have hcolon : ": " ∈ outcome.ownTexts := by simp [ownTexts]
  rcases hcases with ⟨-, herror⟩ | ⟨-, own, hown, herror | herror | herror⟩
  · rw [herror] at hmem
    cases hmem
  · rw [herror] at hmem
    obtain rfl : value = own := by simpa using hmem
    exact hown
  · rw [herror] at hmem
    obtain rfl : value = own := by simpa using hmem
    exact hown
  · rw [herror] at hmem
    have hvalues : value = own ∨ value = ": " ∨
        value = cleanDiagnostic (processOutput target outcome.output) := by
      simpa only [List.mem_cons, Fragment.text.injEq, List.not_mem_nil, or_false] using hmem
    rcases hvalues with rfl | rfl | rfl
    · exact hown
    · exact hcolon
    · exact absurd (occurs_of_occurs_cleanDiagnostic hkey.nonempty hspace hoccurs) houtput

end

end CodexQueueBot.Codex
