import CodexQueueBot.Codex.Environment
import CodexQueueBot.Config.Validity
import CodexQueueBot.Go.Strconv

/-!
# The arguments of the Codex child

`argsWithSettings` writes the command line of a Codex child. The settings of the bot go into it as
overrides `key=value` of a TOML configuration, and the values that are texts are written by
`tomlAssignment`, which quotes them with `strconv.Quote`.

A Go literal is not always a literal of TOML. `argsWithSettings_faithful_iff` says when the child
reads what was meant: exactly when the name and the base URL of the target and the reasoning effort
have no character for which Go has an escape of its own. Validation lets such a character into a
name, since it forbids white space and separators only.
-/

set_option autoImplicit false
set_option relaxedAutoImplicit false

namespace CodexQueueBot.Codex

open Go Lib

/-- The fields of `runnerSettings` that the arguments depend on. -/
structure RunnerSettings where
  reasoningEffort : String
  overrides : List String
  deriving DecidableEq, Repr

/-- `providerID`. -/
def providerID : String :=
  "queue_proxy"

section

variable [Strconv.Printable]

/-- `tomlAssignment`. -/
def tomlAssignment (key value : String) : String :=
  key ++ "=" ++ Strconv.quote value

/-- `Runner.argsWithSettings`. -/
def argsWithSettings (settings : RunnerSettings) (target : Target)
    (workspace responsePath prompt : String) : List String :=
  let args := [
    "exec",
    "--ignore-user-config",
    "--ephemeral",
    "--skip-git-repo-check",
    "--ignore-rules",
    "--sandbox", "read-only",
    "--color", "never",
    "-C", workspace,
    "-m", target.model,
    "-c", tomlAssignment "model_provider" providerID,
    "-c", tomlAssignment ("model_providers." ++ providerID ++ ".name") target.name,
    "-c", tomlAssignment ("model_providers." ++ providerID ++ ".base_url") target.apiBaseURL,
    "-c", tomlAssignment ("model_providers." ++ providerID ++ ".env_key") apiKeyEnvName,
    "-c", tomlAssignment ("model_providers." ++ providerID ++ ".wire_api") target.wireAPI,
    "-c", "model_providers." ++ providerID ++ ".requires_openai_auth=false",
    "-c", tomlAssignment "model_reasoning_effort" settings.reasoningEffort,
    "-c", "project_doc_max_bytes=0",
    "-c", "history.persistence=\"none\"",
    "-c", "features.memories=false",
    "-c", "features.skills=false",
    "-c", "features.multi_agent=false",
    "-c", "features.shell_snapshot=false",
    "-c", "notify=[]",
    "-c", "disable_response_storage=true"]
  let args := settings.overrides.foldl (fun args override ↦ args ++ ["-c", override]) args
  let args := target.configOverrides.foldl (fun args override ↦ args ++ ["-c", override]) args
  -- Behind the overrides of the user, so that none of them can show the key to a command.
  let args := args ++ ["-c", "shell_environment_policy.inherit=\"none\""]
  args ++ ["--output-last-message", responsePath, prompt]

end

/-- The keys that `argsWithSettings` passes to `tomlAssignment`, with their values. -/
def assignments (settings : RunnerSettings) (target : Target) : List (String × String) :=
  [("model_provider", providerID),
   ("model_providers." ++ providerID ++ ".name", target.name),
   ("model_providers." ++ providerID ++ ".base_url", target.apiBaseURL),
   ("model_providers." ++ providerID ++ ".env_key", apiKeyEnvName),
   ("model_providers." ++ providerID ++ ".wire_api", target.wireAPI),
   ("model_reasoning_effort", settings.reasoningEffort)]

section

variable [Strconv.Printable]

/-- An assignment among the arguments whose value is a basic string of TOML for what was meant. -/
structure Faithful (args : List String) (key value : String) : Prop where
  passed : ["-c", tomlAssignment key value] <:+: args
  denotes : ∃ literal, Strings.cut (tomlAssignment key value) '=' = some (key, literal) ∧
    Toml.basicString literal = some value

/-! ### The command line -/

/-- Every assignment is passed to the child. -/
theorem infix_assignments {settings : RunnerSettings} {target : Target}
    {entry : String × String} (hentry : entry ∈ assignments settings target)
    (workspace responsePath prompt : String) :
    ["-c", tomlAssignment entry.1 entry.2] <:+:
      argsWithSettings settings target workspace responsePath prompt := by
  have hadded : ∀ overrides args : List String,
      args <+: overrides.foldl (fun args override ↦ args ++ ["-c", override]) args := by
    intro overrides args
    induction overrides generalizing args with
    | nil => exact List.prefix_rfl
    | cons override overrides ih => exact (List.prefix_append args _).trans (ih _)
  refine List.IsInfix.trans ?_ (((hadded _ _).trans (hadded _ _)).trans
    ((List.prefix_append _ _).trans (List.prefix_append _ _))).isInfix
  have hat : ∀ (n : ℕ) (flag args : List String), flag = (args.drop n).take 2 → flag <:+: args := by
    rintro n - args rfl
    exact (List.take_prefix 2 _).isInfix.trans (List.drop_suffix n args).isInfix
  simp only [assignments, List.mem_cons, List.not_mem_nil, or_false] at hentry
  rcases hentry with rfl | rfl | rfl | rfl | rfl | rfl
  · exact hat 13 _ _ rfl
  · exact hat 15 _ _ rfl
  · exact hat 17 _ _ rfl
  · exact hat 19 _ _ rfl
  · exact hat 21 _ _ rfl
  · exact hat 25 _ _ rfl

omit [Strconv.Printable] in
/-- No key has an equals sign. -/
theorem equals_notMem_key {settings : RunnerSettings} {target : Target}
    {entry : String × String} (hentry : entry ∈ assignments settings target) :
    '=' ∉ entry.1.toList := by
  simp only [assignments, List.mem_cons, List.not_mem_nil, or_false] at hentry
  rcases hentry with rfl | rfl | rfl | rfl | rfl | rfl
  all_goals
    dsimp only
    decide

/-- What is passed for a key is faithful exactly when its value has no character that Go writes with
an escape of its own. -/
theorem faithful_iff {settings : RunnerSettings} {target : Target}
    {entry : String × String} (hentry : entry ∈ assignments settings target)
    (workspace responsePath prompt : String) :
    Faithful (argsWithSettings settings target workspace responsePath prompt) entry.1 entry.2 ↔
      Strconv.Portable entry.2 := by
  have hcut : Strings.cut (tomlAssignment entry.1 entry.2) '=' =
      some (entry.1, Strconv.quote entry.2) := Strings.cut_binding (equals_notMem_key hentry) _
  constructor
  · rintro ⟨-, literal, hliteral, hvalue⟩
    obtain rfl : Strconv.quote entry.2 = literal :=
      (Prod.mk.inj (Option.some.inj (hcut.symm.trans hliteral))).2
    by_contra hportable
    rw [Strconv.basicString_quote, if_neg hportable] at hvalue
    cases hvalue
  · intro hportable
    refine ⟨infix_assignments hentry workspace responsePath prompt, _, hcut, ?_⟩
    rw [Strconv.basicString_quote, if_pos hportable]

/-- For a target that validation accepts, Codex reads every setting of the bot as it was meant
exactly when the name and the base URL of the target and the reasoning effort have no character
that Go writes with an escape of its own. -/
theorem argsWithSettings_faithful_iff [NetURL] {raw : Target}
    (hvalid : Config.validateTarget (Config.normalizeTarget raw) = .ok ())
    (settings : RunnerSettings) (workspace responsePath prompt : String) :
    (∀ entry ∈ assignments settings (Config.normalizeTarget raw),
      Faithful
        (argsWithSettings settings (Config.normalizeTarget raw) workspace responsePath prompt)
        entry.1 entry.2) ↔
    Strconv.Portable (Config.normalizeTarget raw).name ∧
      Strconv.Portable (Config.normalizeTarget raw).apiBaseURL ∧
        Strconv.Portable settings.reasoningEffort := by
  generalize Config.normalizeTarget raw = target at hvalid
  have hwire : target.wireAPI = "responses" := (Config.validateTarget_eq_ok.mp hvalid).2.wireAPI
  have hall : (∀ entry ∈ assignments settings target,
      Faithful (argsWithSettings settings target workspace responsePath prompt)
        entry.1 entry.2) ↔ ∀ entry ∈ assignments settings target, Strconv.Portable entry.2 :=
    forall₂_congr fun _ hentry ↦ faithful_iff hentry workspace responsePath prompt
  have hprovider : Strconv.Portable providerID := by decide
  have henvironment : Strconv.Portable apiKeyEnvName := by decide
  have hresponses : Strconv.Portable "responses" := by decide
  rw [hall]
  simp only [assignments, List.forall_mem_cons, hwire, hprovider, henvironment, hresponses,
    true_and, List.not_mem_nil, false_implies, implies_true, and_true]

end

/-! ### A name with a control character -/

/-- A target with a given name, and nothing else that validation could object to. -/
def named (name : String) : Target :=
  { Target.zero with name := name, apiBaseURL := "http://h", apiKey := "k", model := "m" }

/-- A target with a quotation mark in its name is accepted and passed on faithfully. -/
theorem argsWithSettings_faithful_named :
    letI := Strconv.Printable.ascii
    @Config.validateTarget Config.hostOnly (Config.normalizeTarget (named "pri\"mary")) = .ok () ∧
      ∀ entry ∈ assignments ⟨"low", []⟩ (Config.normalizeTarget (named "pri\"mary")),
        Faithful (argsWithSettings ⟨"low", []⟩ (Config.normalizeTarget (named "pri\"mary"))
          "/w" "/r" "p") entry.1 entry.2 :=
  letI := Strconv.Printable.ascii
  letI := Config.hostOnly
  ⟨rfl, (@argsWithSettings_faithful_iff _ _ (named "pri\"mary") rfl ⟨"low", []⟩ "/w" "/r" "p").mpr
    (by decide)⟩

/-- A name with a bell is accepted, and what is passed for it is no basic string. -/
theorem argsWithSettings_unfaithful_bell :
    letI := Strconv.Printable.ascii
    letI := Config.hostOnly
    Config.validateTarget (Config.normalizeTarget (named "a\x07b")) = .ok () ∧
      Config.validateCodex Config.defaultDatabaseConfig.codex = .ok () ∧
      ¬ ∀ entry ∈ assignments ⟨Config.defaultDatabaseConfig.codex.reasoningEffort, []⟩
          (Config.normalizeTarget (named "a\x07b")),
        Faithful (argsWithSettings ⟨Config.defaultDatabaseConfig.codex.reasoningEffort, []⟩
          (Config.normalizeTarget (named "a\x07b")) "/w" "/r" "p") entry.1 entry.2 := by
  refine ⟨rfl, rfl, fun h ↦ ?_⟩
  have hmem : ("model_providers." ++ providerID ++ ".name", "a\x07b") ∈
      assignments ⟨Config.defaultDatabaseConfig.codex.reasoningEffort, []⟩
        (Config.normalizeTarget (named "a\x07b")) := by decide
  have hportable := (@faithful_iff Strconv.Printable.ascii _ _ _ hmem "/w" "/r" "p").mp (h _ hmem)
  exact absurd hportable (by decide)

end CodexQueueBot.Codex
