import CodexQueueBot.Jobs.System
import CodexQueueBot.Storage.Contracts

/-!
# The requests of the Web console

The bodies of the requests that the handlers of the console decode, and what the handlers compute
from them: the checks before `configWriteMu` is taken, and the values that are handed on to the
store. A body is `none` where `decodeJSON` rejects it. The texts of the answers are those of the
source; where an answer carries the text of an error, it keeps the error.

`Options.ConfigStore` is always given, as it is by `main`.
-/

set_option autoImplicit false
set_option relaxedAutoImplicit false

namespace CodexQueueBot.Web

open Go Storage

/-! ### Bodies -/

/-- `loginRequest`. -/
structure LoginRequest where
  username : String
  password : String
  deriving DecidableEq, Repr

/-- `setupRequest`. -/
structure SetupRequest where
  username : String
  password : String
  deriving DecidableEq, Repr

/-- `codexConfigRequest`. -/
structure CodexConfigRequest where
  binary : String
  promptsFile : String
  prompts : List String
  requestTimeoutSecond : Int
  retryMinSecond : Int
  retryMaxSecond : Int
  keepaliveMinSecond : Int
  keepaliveMaxSecond : Int
  maxParallel : Int
  successMessage : String
  reasoningEffort : String
  configOverrides : List String
  deriving DecidableEq, Repr

/-- `openILinkConfigRequest`. -/
structure OpenILinkConfigRequest where
  enabled : Bool
  baseURL : String
  token : String
  clearToken : Bool
  allowedUserIDs : List String
  httpTimeoutSecond : Int
  deriving DecidableEq, Repr

/-- `telegramConfigRequest`. -/
structure TelegramConfigRequest where
  enabled : Bool
  baseURL : String
  token : String
  clearToken : Bool
  allowedUserIDs : List String
  httpTimeoutSecond : Int
  pollTimeoutSecond : Int
  deriving DecidableEq, Repr

/-- `webConfigRequest`. -/
structure WebConfigRequest where
  listenAddress : String
  cookieSecure : Bool
  trustedProxies : List String
  activityLimit : Int
  deriving DecidableEq, Repr

/-- `accountUpdateRequest`. -/
structure AccountUpdateRequest where
  username : String
  password : String
  newPassword : String
  currentPassword : String
  deriving DecidableEq, Repr

/-- `targetConfigRequest`. -/
structure TargetConfigRequest where
  sortOrder : Option Int
  name : String
  apiBaseURL : String
  apiKey : String
  model : String
  wireAPI : String
  configOverrides : List String
  deriving DecidableEq, Repr

/-- The requests: those without a session, those that read or touch the sessions, and those that
change the configuration. `other` is a request that needs a session and touches neither sessions nor
configuration, such as `dashboard`, `getConfig` or `actions`. -/
inductive Request
  | setup (body : Option SetupRequest)
  | login (body : Option LoginRequest)
  | logout
  | events
  | other
  | updateCodexConfig (body : Option CodexConfigRequest)
  | updateOpenILinkConfig (body : Option OpenILinkConfigRequest)
  | updateTelegramConfig (body : Option TelegramConfigRequest)
  | updateWebConfig (body : Option WebConfigRequest)
  | updateAccount (body : Option AccountUpdateRequest)
  | createTarget (body : Option TargetConfigRequest)
  | updateTarget (id : String) (body : Option TargetConfigRequest)
  | deleteTarget (id : String)
  deriving DecidableEq, Repr

/-! ### Answers -/

/-- `session`. -/
structure Session where
  username : String
  expiresAt : Jobs.Time
  deriving DecidableEq, Repr

/-- What a handler answers to a request that it rejects or that fails: a status with a text, 400
with the text of an invalid value, or an error of the store that `writeConfigurationError`
classifies by its text. -/
inductive Rejection
  | error (status : ℕ) (message : String)
  | invalid (message : Message)
  | failed (error : StoreError)
  deriving DecidableEq, Repr

/-- What a handler answers: a rejection, or what a handler that succeeds writes. -/
inductive Reply
  | rejected (rejection : Rejection)
  | session (session : Session)
  | loggedOut
  | reauthenticate (revision : Int)
  | saved (snapshot : Snapshot)
  | other

/-- The error that a chain of wrapped errors ends in. -/
def cause : StoreError → StoreError
  | .wrapped _ error => cause error
  | error => error

/-- `writeConfigurationError`. -/
def writeConfigurationError (error : StoreError) : Rejection :=
  match cause error with
  | .notFound => .error 404 "配置不存在"
  | .conflict => .error 400 "配置与现有数据冲突"
  | _ => .failed error

/-- `writeTargetError` for an error of the store. -/
def writeTargetError (error : StoreError) : Rejection :=
  match cause error with
  | .notFound => .error 404 "target 不存在"
  | .conflict => .error 400 "target 名称必须保持大小写不敏感唯一"
  | _ => writeConfigurationError error

/-- `writeTargetError` for an error of the manager. -/
def writeManagerError : Jobs.Manager.Error → Rejection
  | .targetBusy => .error 409 "target 任务未能在 10 秒内停止，未保存修改"
  | .targetNotFound => .error 404 "target 不存在"
  | .targetConflict => .error 400 "target 名称必须保持大小写不敏感唯一"
  | _ => .error 500 "保存配置失败"

/-- What `setup` answers to an error of `SetupAdmin`. -/
def writeSetupError (error : StoreError) : Rejection :=
  match cause error with
  | .alreadySetup => .error 409 "管理员已经初始化"
  | _ => .error 500 "初始化失败"

/-- The answer to a body that `decodeJSON` rejects. -/
def malformed : Rejection :=
  .error 400 "请求格式不正确"

/-- The answer to a request without a session. -/
def unauthorized : Rejection :=
  .error 401 "未登录或会话已过期"

/-! ### Values -/

/-- `cleanStrings`. -/
def cleanStrings (values : List String) : List String :=
  (values.map Strings.trimSpace).filter (· ≠ "")

/-- The section that `updateCodexConfig` saves. -/
def CodexConfigRequest.value (request : CodexConfigRequest) : CodexConfig where
  binary := request.binary
  promptsFile := request.promptsFile
  prompts := cleanStrings request.prompts
  promptsPersisted := true
  requestTimeoutSecond := request.requestTimeoutSecond
  retryMinSecond := request.retryMinSecond
  retryMaxSecond := request.retryMaxSecond
  keepaliveMinSecond := request.keepaliveMinSecond
  keepaliveMaxSecond := request.keepaliveMaxSecond
  maxParallel := request.maxParallel
  successMessage := request.successMessage
  reasoningEffort := request.reasoningEffort
  configOverrides := cleanStrings request.configOverrides

/-- The section that `updateWebConfig` saves. -/
def WebConfigRequest.value (request : WebConfigRequest) : WebConfig where
  listenAddress := request.listenAddress
  cookieSecure := request.cookieSecure
  trustedProxies := cleanStrings request.trustedProxies
  activityLimit := request.activityLimit

/-- The token of a request: the given one, an empty one to clear the stored one, or none to keep
it. -/
def chosenToken (token : String) (clearToken : Bool) : Option String :=
  let trimmed := Strings.trimSpace token
  if trimmed ≠ "" then some trimmed
  else if clearToken then some ""
  else none

/-- The token that `updateOpenILinkConfig` hands on. -/
def OpenILinkConfigRequest.chosenToken (request : OpenILinkConfigRequest) : Option String :=
  Web.chosenToken request.token request.clearToken

/-- The section that `updateOpenILinkConfig` saves, given the current token. -/
def OpenILinkConfigRequest.value (request : OpenILinkConfigRequest) (current : String) :
    OpenILinkConfig :=
  let value : OpenILinkConfig :=
    { enabled := request.enabled
      baseURL := request.baseURL
      allowedUserIDs := cleanStrings request.allowedUserIDs
      httpTimeoutSecond := request.httpTimeoutSecond
      token := request.chosenToken.getD current }
  value.setEnabledExplicit request.enabled

/-- The token that `updateTelegramConfig` hands on. -/
def TelegramConfigRequest.chosenToken (request : TelegramConfigRequest) : Option String :=
  Web.chosenToken request.token request.clearToken

/-- The section that `updateTelegramConfig` saves, given the current token. -/
def TelegramConfigRequest.value (request : TelegramConfigRequest) (current : String) :
    TelegramConfig :=
  let value : TelegramConfig :=
    { enabled := request.enabled
      baseURL := request.baseURL
      allowedUserIDs := cleanStrings request.allowedUserIDs
      httpTimeoutSecond := request.httpTimeoutSecond
      pollTimeoutSecond := request.pollTimeoutSecond
      token := request.chosenToken.getD current }
  value.setEnabledExplicit request.enabled

/-- The user name that `updateAccount` saves, given the current one. -/
def AccountUpdateRequest.chosenUsername (request : AccountUpdateRequest) (current : String) :
    String :=
  let username := Strings.trimSpace request.username
  if username = "" then current else username

/-- The password that `updateAccount` saves; an empty one keeps the stored one. -/
def AccountUpdateRequest.chosenPassword (request : AccountUpdateRequest) : String :=
  if request.newPassword = "" then request.password else request.newPassword

/-- `targetFromRequest`. -/
def targetFromRequest (request : TargetConfigRequest) : Target where
  id := 0
  sortOrder := request.sortOrder.getD (-1)
  name := request.name
  apiBaseURL := request.apiBaseURL
  apiKey := request.apiKey
  apiKeyEnv := ""
  model := request.model
  wireAPI := request.wireAPI
  configOverrides := cleanStrings request.configOverrides

/-- The key that `updateTarget` hands on. -/
def TargetConfigRequest.chosenKey (request : TargetConfigRequest) : Option String :=
  let trimmed := Strings.trimSpace request.apiKey
  if trimmed ≠ "" then some trimmed else none

/-- The target that `updateTarget` saves in the place of the current one. -/
def TargetConfigRequest.edited (request : TargetConfigRequest) (id : Int) (current : Target) :
    Target :=
  { targetFromRequest request with
    id
    sortOrder := request.sortOrder.getD current.sortOrder
    apiKey := request.chosenKey.getD current.apiKey }

/-- `parseTargetID`. -/
def parseTargetID (text : String) : Except Rejection Int :=
  match atoi text with
  | none => .error (.error 400 "target ID 不正确")
  | some id => if id ≤ 0 then .error (.error 400 "target ID 不正确") else .ok id

/-! ### Checks -/

/-- A check that fails with a rejection. -/
def require (violated : Prop) [Decidable violated] (reply : Rejection) : Except Rejection Unit :=
  if violated then .error reply else .ok ()

/-- The checks of `setup`. -/
def SetupRequest.precheck (request : SetupRequest) : Except Rejection Unit :=
  require (Strings.trimSpace request.username = "" ∨
      Strings.runeCount request.password < Config.minimumAdminPasswordLength)
    (.error 400 ("用户名不能为空，密码至少需要 " ++ toString Config.minimumAdminPasswordLength ++
      " 个字符"))

/-- The checks of `updateAccount` on the passwords. -/
def AccountUpdateRequest.check (request : AccountUpdateRequest) : Except Rejection Unit := do
  require (request.newPassword ≠ "" ∧ request.password ≠ "" ∧
      request.newPassword ≠ request.password)
    (.error 400 "password 与 new_password 不一致")
  require (request.chosenPassword ≠ "" ∧
      Strings.runeCount request.chosenPassword < Config.minimumAdminPasswordLength)
    (.error 400 ("管理员密码至少需要 " ++ toString Config.minimumAdminPasswordLength ++
      " 个字符"))

/-- The checks of a section on its token, with its name in the console. -/
def tokenCheck (label : String) (enabled : Bool) (token : String) (clearToken : Bool) :
    Except Rejection Unit := do
  require (clearToken ∧ enabled) (.error 400 ("只能在 " ++ label ++ " 关闭时清除 Token"))
  require (clearToken ∧ Strings.trimSpace token ≠ "") (.error 400 "不能同时设置并清除 Token")

section

variable [NetURL] [Net]

omit [Net] in
/-- The checks of `createTarget`. -/
def TargetConfigRequest.precheck (request : TargetConfigRequest) : Except Rejection Unit := do
  let target := targetFromRequest request
  require (Strings.trimSpace target.apiKey = "") (.error 400 "创建 target 时必须提供 API Key")
  let normalized := Config.normalizeTarget target
  let validationTarget :=
    if request.sortOrder = none then { normalized with sortOrder := 0 } else normalized
  (Config.validateTarget validationTarget).mapError .invalid

/-- What a handler checks before it takes `configWriteMu`. -/
def Request.precheck : Request → Except Rejection Unit
  | .setup (some request) => request.precheck
  | .updateCodexConfig (some request) => (Config.validateCodex request.value).mapError .invalid
  | .updateOpenILinkConfig (some request) =>
    tokenCheck "OpenILink" request.enabled request.token request.clearToken
  | .updateTelegramConfig (some request) =>
    tokenCheck "Telegram" request.enabled request.token request.clearToken
  | .updateWebConfig (some request) => (Config.validateWeb request.value).mapError .invalid
  | .updateAccount (some _) => .ok ()
  | .createTarget (some request) => request.precheck
  | .updateTarget id (some _) => do
    let _ ← parseTargetID id
    return ()
  | .updateTarget id none => do
    let _ ← parseTargetID id
    .error malformed
  | .deleteTarget id => do
    let _ ← parseTargetID id
    return ()
  | _ => .error malformed

end

end CodexQueueBot.Web
