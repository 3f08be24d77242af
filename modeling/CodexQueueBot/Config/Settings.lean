import CodexQueueBot.Config.Target
import CodexQueueBot.Go.Stdlib

/-!
# The configuration and its validation

The records of `config.Config`, their defaults, and the checks that the database layer and the Web
console run on them. A check returns the text of the first violation, in the order of the source.
`validate` goes through the whole configuration; `ValidateTarget`, `ValidateCodex`,
`ValidateOpenILink`, `ValidateTelegram` and `ValidateWeb` check one part of it, and then validate a
default configuration with that part put in.

The loader of the legacy JSON file is left out, and with it `applyDefaults` and `resolveSecrets`.
-/

set_option autoImplicit false
set_option relaxedAutoImplicit false

namespace CodexQueueBot

open Go

/-! ### Records -/

/-- `OpenILinkConfig`. -/
structure OpenILinkConfig where
  enabled : Bool := false
  baseURL : String := ""
  token : String := ""
  tokenEnv : String := ""
  allowedUserIDs : List String := []
  httpTimeoutSecond : Int := 0
  enabledSet : Bool := false
  deriving DecidableEq, Repr

/-- `TelegramConfig`. -/
structure TelegramConfig where
  enabled : Bool := false
  baseURL : String := ""
  token : String := ""
  tokenEnv : String := ""
  allowedUserIDs : List String := []
  httpTimeoutSecond : Int := 0
  pollTimeoutSecond : Int := 0
  enabledSet : Bool := false
  deriving DecidableEq, Repr

/-- `WebConfig`. -/
structure WebConfig where
  listenAddress : String := ""
  adminUsername : String := ""
  adminPasswordEnv : String := ""
  cookieSecure : Bool := false
  trustedProxies : List String := []
  activityLimit : Int := 0
  cookieSecureSet : Bool := false
  deriving DecidableEq, Repr

/-- `CodexConfig`. -/
structure CodexConfig where
  binary : String := ""
  promptsFile : String := ""
  prompts : List String := []
  promptsPersisted : Bool := false
  requestTimeoutSecond : Int := 0
  retryMinSecond : Int := 0
  retryMaxSecond : Int := 0
  keepaliveMinSecond : Int := 0
  keepaliveMaxSecond : Int := 0
  maxParallel : Int := 0
  successMessage : String := ""
  reasoningEffort : String := ""
  configOverrides : List String := []
  targets : List Target := []
  deriving DecidableEq, Repr

/-- `Config`. -/
structure Config where
  openILink : OpenILinkConfig := {}
  telegram : TelegramConfig := {}
  codex : CodexConfig := {}
  web : WebConfig := {}
  deriving DecidableEq, Repr

/-- `IsOpenILinkEnabled`. -/
def OpenILinkConfig.isOpenILinkEnabled (c : OpenILinkConfig) : Bool :=
  if c.enabledSet then c.enabled
  else c.enabled || Strings.trimSpace c.token ≠ "" || Strings.trimSpace c.tokenEnv ≠ ""

/-- `SetEnabledExplicit` of the OpenILink section. -/
def OpenILinkConfig.setEnabledExplicit (c : OpenILinkConfig) (value : Bool) : OpenILinkConfig :=
  { c with enabled := value, enabledSet := true }

/-- `IsTelegramEnabled`. -/
def TelegramConfig.isTelegramEnabled (c : TelegramConfig) : Bool :=
  if c.enabledSet then c.enabled
  else c.enabled || Strings.trimSpace c.token ≠ "" || Strings.trimSpace c.tokenEnv ≠ ""

/-- `SetEnabledExplicit` of the Telegram section. -/
def TelegramConfig.setEnabledExplicit (c : TelegramConfig) (value : Bool) : TelegramConfig :=
  { c with enabled := value, enabledSet := true }

namespace Config

/-- `DefaultDatabaseConfig`. -/
def defaultDatabaseConfig : Config where
  openILink :=
    { enabled := false
      baseURL := "http://127.0.0.1:9800"
      httpTimeoutSecond := 15
      enabledSet := true }
  telegram :=
    { enabled := false
      baseURL := "https://api.telegram.org"
      httpTimeoutSecond := 45
      pollTimeoutSecond := 30
      enabledSet := true }
  codex :=
    { binary := "codex"
      promptsFile := "prompts.txt"
      requestTimeoutSecond := 180
      retryMinSecond := 3
      retryMaxSecond := 8
      keepaliveMinSecond := 2700
      keepaliveMaxSecond := 3300
      maxParallel := 2
      successMessage := "开蹬"
      reasoningEffort := "low" }
  web :=
    { listenAddress := ":8080"
      adminUsername := "admin"
      cookieSecure := false
      activityLimit := 200
      cookieSecureSet := true }

/-- A number of seconds as a `time.Duration`. -/
def seconds (value : Int) : Int :=
  int64 (value * 1000000000)

/-- `RequestTimeout`. -/
def requestTimeout (c : Config) : Int :=
  seconds c.codex.requestTimeoutSecond

/-- `KeepaliveMin`. -/
def keepaliveMin (c : Config) : Int :=
  seconds c.codex.keepaliveMinSecond

/-- `KeepaliveMax`. -/
def keepaliveMax (c : Config) : Int :=
  seconds c.codex.keepaliveMaxSecond

/-- `HTTPTimeout`. -/
def httpTimeout (c : Config) : Int :=
  seconds c.openILink.httpTimeoutSecond

/-- `TelegramHTTPTimeout`. -/
def telegramHTTPTimeout (c : Config) : Int :=
  seconds c.telegram.httpTimeoutSecond

/-- `TelegramPollTimeout`. -/
def telegramPollTimeout (c : Config) : Int :=
  seconds c.telegram.pollTimeoutSecond

/-- `MinimumAdminPasswordLength`. -/
def minimumAdminPasswordLength : Nat := 5

/-- `minimumRetryIntervalSec`. -/
def minimumRetryIntervalSec : Int := 1

/-! ### Checks -/

/-- A check that fails with a text. -/
def check (violated : Prop) [Decidable violated] (message : Message) : Except Message Unit :=
  if violated then .error message else .ok ()

/-- `validateOverrides`, from an index on. -/
def validateOverrides (label : Message) : Nat → List String → Except Message Unit
  | _, [] => .ok ()
  | index, value :: values => do
    check (Strings.trimSpace value = "" ∨ '=' ∉ value.toList)
      (label ++ [.text "[", .number index,
        .text "] must be a non-empty key=value Codex override"])
    validateOverrides label (index + 1) values

/-- The punctuation that a target name must not contain. -/
def separators : List Char := [',', '，', ';', '；']

/-- The checks on the codex section that stand before those on the targets. -/
def validateIntervals (c : CodexConfig) : Except Message Unit := do
  check (Strings.trimSpace c.binary = "") [.text "codex.binary is required"]
  check (c.requestTimeoutSecond ≤ 0) [.text "codex.request_timeout_seconds must be positive"]
  check (c.retryMinSecond < minimumRetryIntervalSec ∨ c.retryMaxSecond < minimumRetryIntervalSec)
    [.text "codex retry interval must be at least ", .number minimumRetryIntervalSec,
      .text " second"]
  check (c.retryMaxSecond < c.retryMinSecond)
    [.text "codex.retry_min_seconds must be <= retry_max_seconds"]
  check (c.keepaliveMinSecond < minimumRetryIntervalSec ∨
      c.keepaliveMaxSecond < minimumRetryIntervalSec)
    [.text "codex keepalive interval must be at least ", .number minimumRetryIntervalSec,
      .text " second"]
  check (c.keepaliveMaxSecond < c.keepaliveMinSecond)
    [.text "codex.keepalive_min_seconds must be <= keepalive_max_seconds"]
  check (c.maxParallel ≤ 0) [.text "codex.max_parallel must be positive"]

section

variable [NetURL]

/-- `validateHTTPURL`. -/
def validateHTTPURL (label : Message) (raw : String) : Except Message Unit :=
  match NetURL.parse raw with
  | none => .error (label ++ [.text " must be an absolute http(s) URL"])
  | some url => do
    check (url.host = "" ∨ (url.scheme ≠ "http" ∧ url.scheme ≠ "https"))
      (label ++ [.text " must be an absolute http(s) URL"])
    check (url.hasUser = true) (label ++ [.text " must not contain URL userinfo"])
    check (url.fragment ≠ "") (label ++ [.text " must not contain a URL fragment"])
    check (url.rawQuery ≠ "") (label ++ [.text " must not contain a URL query"])

/-- The checks of `validate` on the OpenILink section. -/
def validateOpenILinkSection (c : OpenILinkConfig) : Except Message Unit :=
  if c.isOpenILinkEnabled then do
    validateHTTPURL [.text "openilink.base_url"] c.baseURL
    check (Strings.trimSpace c.token = "")
      [.text "openilink token is required (set token or token_env)"]
    check (c.httpTimeoutSecond ≤ 0) [.text "openilink.http_timeout_seconds must be positive"]
  else .ok ()

/-- The checks of `validate` on the Telegram section. -/
def validateTelegramSection (c : TelegramConfig) : Except Message Unit :=
  if c.isTelegramEnabled then do
    validateHTTPURL [.text "telegram.base_url"] c.baseURL
    check (Strings.trimSpace c.token = "")
      [.text "telegram token is required (set token or token_env)"]
    check (c.httpTimeoutSecond ≤ 0) [.text "telegram.http_timeout_seconds must be positive"]
    check (c.pollTimeoutSecond ≤ 0) [.text "telegram.poll_timeout_seconds must be positive"]
    check (c.httpTimeoutSecond ≤ c.pollTimeoutSecond)
      [.text "telegram.http_timeout_seconds must be greater than poll_timeout_seconds"]
  else .ok ()

/-- The body of the loop of `validate` over the targets, with the keys seen before. -/
def validateListed (index : Nat) (seen : List String) (t : Target) : Except Message Unit := do
  let label : Message := [.text "target ", .quoted t.name]
  let named : Message := [.text "target name ", .quoted t.name]
  let key := Strings.toLower t.name
  check (t.name = "") [.text "codex.targets[", .number index, .text "].name is required"]
  check (key = "all" ∨ key = "全部") (named ++ [.text " is reserved"])
  check (t.name.toList.any fun c ↦ Strings.isSpace c || separators.contains c)
    (named ++ [.text " must not contain spaces, commas, or semicolons"])
  check (key ∈ seen) [.text "duplicate target name ", .quoted t.name]
  validateHTTPURL (label ++ [.text " api_base_url"]) t.apiBaseURL
  check (t.apiKey = "") (label ++ [.text " API key is required (set api_key or api_key_env)"])
  check (t.model = "") (label ++ [.text " model is required"])
  check (t.wireAPI ≠ "responses")
    (label ++ [.text " wire_api ", .quoted t.wireAPI, .text " is unsupported; use responses"])
  validateOverrides (label ++ [.text " config_overrides"]) 0 t.configOverrides

/-- The loop of `validate` over the targets. -/
def validateTargets : Nat → List String → List Target → Except Message Unit
  | _, _, [] => .ok ()
  | index, seen, t :: targets => do
    validateListed index seen t
    validateTargets (index + 1) (Strings.toLower t.name :: seen) targets

/-- `validate`. -/
def validate (c : Config) (allowEmptyTargets : Bool) : Except Message Unit := do
  validateOpenILinkSection c.openILink
  validateTelegramSection c.telegram
  validateIntervals c.codex
  check (allowEmptyTargets = false ∧ c.codex.targets.length = 0)
    [.text "at least one codex target is required"]
  check (c.web.activityLimit < 0) [.text "web.activity_limit must not be negative"]
  validateOverrides [.text "codex.config_overrides"] 0 c.codex.configOverrides
  validateTargets 0 [] c.codex.targets

/-- `ValidateAllowEmptyTargets`. -/
def validateAllowEmptyTargets (c : Config) : Except Message Unit :=
  c.validate true

/-! ### Checks of one part -/

/-- `ValidateTarget`. -/
def validateTarget (target : Target) : Except Message Unit := do
  check (target.sortOrder < 0) [.text "target sort_order must not be negative"]
  let cfg := defaultDatabaseConfig
  { cfg with codex := { cfg.codex with targets := [target] } }.validateAllowEmptyTargets

omit [NetURL] in
/-- The loop of `ValidateCodex` over the prompts, from an index on. -/
def validatePrompts : Nat → List String → Except Message Unit
  | _, [] => .ok ()
  | index, prompt :: prompts => do
    check (Strings.trimSpace prompt = "")
      [.text "codex.prompts[", .number index, .text "] must not be empty"]
    validatePrompts (index + 1) prompts

/-- `ValidateCodex`. -/
def validateCodex (codexConfig : CodexConfig) : Except Message Unit := do
  check (Strings.trimSpace codexConfig.promptsFile = "") [.text "codex.prompts_file is required"]
  check (Strings.trimSpace codexConfig.successMessage = "")
    [.text "codex.success_message is required"]
  check (Strings.trimSpace codexConfig.reasoningEffort = "")
    [.text "codex.reasoning_effort is required"]
  check (codexConfig.promptsPersisted ∧ codexConfig.prompts.length = 0)
    [.text "codex.prompts must contain at least one prompt"]
  validatePrompts 0 codexConfig.prompts
  check (Strings.toLower (Strings.trimSpace codexConfig.reasoningEffort) ∉
      ["low", "medium", "high", "xhigh"])
    [.text "codex.reasoning_effort must be low, medium, high, or xhigh"]
  { defaultDatabaseConfig with codex := codexConfig }.validateAllowEmptyTargets

/-- `ValidateOpenILink`. -/
def validateOpenILink (openILink : OpenILinkConfig) : Except Message Unit := do
  validateHTTPURL [.text "openilink.base_url"]
    (Strings.trimRight (Strings.trimSpace openILink.baseURL) '/')
  check (openILink.httpTimeoutSecond ≤ 0) [.text "openilink.http_timeout_seconds must be positive"]
  { defaultDatabaseConfig with
    openILink := { openILink with enabledSet := true } }.validateAllowEmptyTargets

/-- `ValidateTelegram`. -/
def validateTelegram (telegram : TelegramConfig) : Except Message Unit := do
  validateHTTPURL [.text "telegram.base_url"]
    (Strings.trimRight (Strings.trimSpace telegram.baseURL) '/')
  check (telegram.httpTimeoutSecond ≤ 0) [.text "telegram.http_timeout_seconds must be positive"]
  check (telegram.pollTimeoutSecond ≤ 0) [.text "telegram.poll_timeout_seconds must be positive"]
  check (telegram.httpTimeoutSecond ≤ telegram.pollTimeoutSecond)
    [.text "telegram.http_timeout_seconds must be greater than poll_timeout_seconds"]
  { defaultDatabaseConfig with
    telegram := { telegram with enabledSet := true } }.validateAllowEmptyTargets

omit [NetURL] in
/-- `validateListenAddress`. -/
def validateListenAddress [Net] (raw : String) : Except Message Unit := do
  let raw := Strings.trimSpace raw
  check (raw = "") [.text "web.listen_address is required"]
  match Net.splitHostPort raw with
  | none => .error [.text "web.listen_address must be host:port"]
  | some (_, port) =>
    match atoi port with
    | none => .error [.text "web.listen_address port must be between 0 and 65535"]
    | some parsed =>
      check (parsed < 0 ∨ 65535 < parsed)
        [.text "web.listen_address port must be between 0 and 65535"]

omit [NetURL] in
/-- The loop of `ValidateWeb` over the trusted proxies, from an index on. -/
def validateTrustedProxies [Net] : Nat → List String → Except Message Unit
  | _, [] => .ok ()
  | index, proxy :: proxies => do
    let trimmed := Strings.trimSpace proxy
    check (¬ (trimmed = "*" ∨ Net.parseIP trimmed) ∧ ¬ Net.parseCIDR trimmed)
      [.text "web.trusted_proxies[", .number index, .text "] must be an IP address or CIDR"]
    validateTrustedProxies (index + 1) proxies

/-- `ValidateWeb`. -/
def validateWeb [Net] (web : WebConfig) : Except Message Unit := do
  check (Strings.trimSpace web.listenAddress = "") [.text "web.listen_address is required"]
  validateListenAddress web.listenAddress
  validateTrustedProxies 0 web.trustedProxies
  { defaultDatabaseConfig with web }.validateAllowEmptyTargets

end

/-- `NormalizeTarget`. -/
def normalizeTarget (target : Target) : Target :=
  let wireAPI := Strings.toLower (Strings.trimSpace target.wireAPI)
  { target with
    name := Strings.trimSpace target.name
    apiBaseURL := Strings.trimRight (Strings.trimSpace target.apiBaseURL) '/'
    apiKey := Strings.trimSpace target.apiKey
    apiKeyEnv := Strings.trimSpace target.apiKeyEnv
    model := Strings.trimSpace target.model
    wireAPI := if wireAPI = "" then "responses" else wireAPI
    configOverrides := target.configOverrides.map Strings.trimSpace }

end Config

end CodexQueueBot
