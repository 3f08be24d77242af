import CodexQueueBot.Storage.Tables

/-!
# The operations of the store

`Store.Load` and the nine operations that write, as programs over the one pooled connection. Every
early return of the source is a branch here: `orRollback` stands where the source rolls back and
returns the error, and `throw` alone where it returns without a rollback. A call that needs no
database, such as a draw of the random source or an encoding to JSON, may fail as well.

The context of a request may be cancelled at any time, and then the calls of the operation fail.
After a commit, `loadAfterCommit` reads in a context without cancellation.
-/

set_option autoImplicit false
set_option relaxedAutoImplicit false

namespace CodexQueueBot.Storage

open Go Lib

/-! ### Errors and results -/

/-- The errors of the store. -/
inductive StoreError
  | sql (error : SQLError)
  | failed
  | message (message : Message)
  | alreadySetup
  | notFound
  | conflict
  | wrapped (context : Message) (error : StoreError)
  deriving DecidableEq, Repr

/-- `isUniqueError`. -/
def isUniqueError : StoreError → Bool
  | .sql .unique => true
  | _ => false

/-- The rows of `config_sections`. -/
inductive SectionName
  | codex
  | openilink
  | telegram
  | web
  deriving DecidableEq, Repr

/-- `Snapshot`. -/
structure Snapshot where
  config : Config
  revision : Int
  sectionRevisions : SectionName → Int
  loadedStartupRevision : Int
  setupRequired : Bool
  suggestedUsername : String

/-- `Store`: the master key, and the lines of the prompt files, `none` for a file that cannot be
read. -/
structure Store where
  key : List UInt8
  promptLines : String → Option (List String)

/-! ### Calls -/

/-- A function of the store. -/
abbrev StoreM := ExceptT StoreError (Prog Tables SQLError)

/-- `BeginTx`. -/
def beginTx (ctx : Ctx) (readOnly : Bool) : StoreM Unit :=
  ExceptT.mk (.beginTx ctx readOnly fun
    | some error => .ret (.error (.sql error))
    | none => .ret (.ok ()))

/-- A statement of the transaction. -/
def exec {ρ : Type} (ctx : Ctx) (run : Tables → Except SQLError (ρ × Tables)) : StoreM ρ :=
  ExceptT.mk (.stmt ctx run fun
    | .error error => .ret (.error (.sql error))
    | .ok reply => .ret (.ok reply))

/-- A statement of the transaction that only reads. -/
def select {ρ : Type} (ctx : Ctx) (read : Tables → Except SQLError ρ) : StoreM ρ :=
  exec ctx fun tables ↦ (read tables).map (·, tables)

/-- A statement of the transaction that only writes. -/
def update (ctx : Ctx) (write : Tables → Except SQLError Tables) : StoreM Unit :=
  exec ctx fun tables ↦ (write tables).map ((), ·)

/-- A statement on the pool, outside a transaction. -/
def direct {ρ : Type} (ctx : Ctx) (run : Tables → Except SQLError (ρ × Tables)) : StoreM ρ :=
  ExceptT.mk (.direct ctx run fun
    | .error error => .ret (.error (.sql error))
    | .ok reply => .ret (.ok reply))

/-- `Commit`. -/
def commit (ctx : Ctx) : StoreM Unit :=
  ExceptT.mk (.commit ctx fun
    | some error => .ret (.error (.sql error))
    | none => .ret (.ok ()))

/-- `Rollback`, whose error the source ignores. -/
def rollback : StoreM Unit :=
  ExceptT.mk (.rollback (.ret (.ok ())))

/-- A draw of the random source, or another local call that may fail. -/
def draw : StoreM Nat :=
  ExceptT.mk (.draw fun
    | none => .ret (.error .failed)
    | some number => .ret (.ok number))

/-- The error as it is. -/
def unchanged (error : StoreError) : StoreError :=
  error

/-- After an error: the rollback, and the error as the caller gets it. -/
def orRollback {α : Type} (call : StoreM α) (translate : StoreError → StoreError) : StoreM α :=
  ExceptT.mk (call.run.bind fun
    | .error error => .rollback (.ret (.error (translate error)))
    | .ok value => .ret (.ok value))

/-- An error with its context. -/
def inContext {α : Type} (context : Message) (call : StoreM α) : StoreM α :=
  ExceptT.mk (call.run.bind fun
    | .error error => .ret (.error (.wrapped context error))
    | .ok value => .ret (.ok value))

/-- A result that is computed without the database. -/
def ofExcept {α : Type} (result : Except StoreError α) : StoreM α :=
  ExceptT.mk (.ret result)

/-- A check of the configuration. -/
def ofCheck (result : Except Message Unit) : StoreM Unit :=
  ofExcept (result.mapError .message)

/-- `json.Marshal`. -/
def marshal {α : Type} (value : α) : StoreM α := do
  let _ ← draw
  return value

/-! ### Reading -/

/-- `readPromptFile`: the lines that are neither blank nor comments, if there is one. -/
def Store.readPromptFile (store : Store) (path : String) : Option (List String) := do
  let lines ← store.promptLines (Strings.trimSpace path)
  let usable := lines.filter fun line ↦
    let trimmed := Strings.trimSpace line
    trimmed ≠ "" && trimmed.toList.head? ≠ some '#'
  if usable = [] then none else some usable

/-- The codex section as `loadFrom` decodes it: a list of prompts that was never saved is read from
the prompt file, if that can be read. -/
def Store.decodeCodex (store : Store) (data : PersistedCodex) : CodexConfig :=
  let config := fromPersistedCodex data
  match data.prompts with
  | some _ => config
  | none =>
    match store.readPromptFile config.promptsFile with
    | some prompts => { config with prompts }
    | none => config

section

variable [GCM String]

/-- The token of a section: empty if there is no secret. -/
def Store.decodeToken (store : Store) (secret : List UInt8) (aad : String) (context : Message) :
    Except StoreError String :=
  if secret = [] then .ok ""
  else match decrypt store.key secret aad with
  | none => .error (.wrapped context (.message [.text "encrypted value authentication failed"]))
  | some token => .ok token

/-- The OpenILink section as `loadFrom` decodes it. -/
def Store.decodeOpenILink (store : Store) (row : Section PersistedOpenILink) :
    Except StoreError OpenILinkConfig := do
  let token ← store.decodeToken row.secret "openilink:token" [.text "decrypt OpenILink token: "]
  return { (fromPersistedOpenILink row.data).setEnabledExplicit row.data.enabled with token }

/-- The Telegram section as `loadFrom` decodes it. -/
def Store.decodeTelegram (store : Store) (row : Section PersistedTelegram) :
    Except StoreError TelegramConfig := do
  let token ← store.decodeToken row.secret "telegram:token" [.text "decrypt Telegram token: "]
  return { (fromPersistedTelegram row.data).setEnabledExplicit row.data.enabled with token }

/-- A row of `targets` as `loadFrom` decodes it. -/
def Store.decodeTarget (store : Store) (row : TargetRow) : Except StoreError Target :=
  match decrypt store.key row.apiKey (targetAPIKeyAAD row.id) with
  | none => .error (.wrapped
      [.text "decrypt target ", .quoted row.name, .text " API key: "]
      (.message [.text "encrypted value authentication failed"]))
  | some apiKey => .ok
      { id := row.id, sortOrder := row.sortOrder, name := row.name, apiBaseURL := row.apiBaseURL,
        apiKey, apiKeyEnv := "", model := row.model, wireAPI := row.wireAPI,
        configOverrides := row.configOverrides }

variable [NetURL]

/-- `loadFrom`. -/
def Store.loadFrom (store : Store) (ctx : Ctx) : StoreM Snapshot := do
  let codexRow ← inContext [.text "read codex configuration: "]
    (select ctx fun tables ↦ .ok tables.codex)
  let openRow ← inContext [.text "read openilink configuration: "]
    (select ctx fun tables ↦ .ok tables.openILink)
  let telegramRow ← inContext [.text "read telegram configuration: "]
    (select ctx fun tables ↦ .ok tables.telegram)
  let webRow ← inContext [.text "read web configuration: "]
    (select ctx fun tables ↦ .ok tables.web)
  let openILink ← ofExcept (store.decodeOpenILink openRow)
  let telegram ← ofExcept (store.decodeTelegram telegramRow)
  let rows ← inContext [.text "read targets: "] (select ctx fun tables ↦ .ok tables.orderedTargets)
  let targets ← ofExcept (rows.mapM store.decodeTarget)
  let revision ← inContext [.text "read metadata config_revision: "]
    (select ctx fun tables ↦ .ok tables.configRevision)
  let loadedStartupRevision ← inContext [.text "read metadata loaded_startup_revision: "]
    (select ctx fun tables ↦ .ok tables.loadedStartupRevision)
  let suggestedUsername ← inContext [.text "read metadata suggested_username: "]
    (select ctx fun tables ↦ .ok tables.suggestedUsername)
  if suggestedUsername = "" then
    throw (.message [.text "metadata suggested_username is missing"])
  let administrator ← inContext [.text "read administrator: "]
    (select ctx fun tables ↦ .ok tables.administrator)
  let config : Config :=
    { codex := { store.decodeCodex codexRow.data with targets }
      openILink, telegram
      web := { fromPersistedWeb webRow.data with
        adminUsername := (administrator.map (·.username)).getD suggestedUsername } }
  inContext [.text "validate stored configuration: "] (ofCheck config.validateAllowEmptyTargets)
  return {
    config, revision, loadedStartupRevision, suggestedUsername
    sectionRevisions := fun
      | .codex => codexRow.revision
      | .openilink => openRow.revision
      | .telegram => telegramRow.revision
      | .web => webRow.revision
    setupRequired := administrator.isNone }

/-- `Load`. -/
def Store.load (store : Store) (ctx : Ctx) : StoreM Snapshot := do
  inContext [.text "begin configuration read transaction: "] (beginTx ctx true)
  let result ← orRollback (store.loadFrom ctx) unchanged
  inContext [.text "commit configuration read transaction: "] (commit ctx)
  return result

/-- `loadAfterCommit`. -/
def Store.loadAfterCommit (store : Store) : StoreM Snapshot :=
  store.load .detached

/-! ### Accounts -/

omit [GCM String] [NetURL] in
/-- `bumpRevisionTx`. -/
def bumpRevisionTx (ctx : Ctx) : StoreM Int := do
  let current ← inContext [.text "read configuration revision: "]
    (select ctx fun tables ↦ .ok tables.configRevision)
  inContext [.text "update configuration revision: "]
    (update ctx fun tables ↦ .ok { tables with configRevision := current + 1 })
  return current + 1

omit [GCM String] [NetURL] in
/-- The text for a password that is too short. -/
def passwordTooShort : StoreError :=
  .message [.text "administrator password must be at least ",
    .number Config.minimumAdminPasswordLength, .text " characters"]

/-- `SetupAdmin`. -/
def Store.setupAdmin [Argon2] (store : Store) (username password : String) : StoreM Snapshot := do
  let username := Strings.trimSpace username
  if username = "" then
    throw (.message [.text "administrator username is required"])
  if Strings.runeCount password < Config.minimumAdminPasswordLength then
    throw passwordTooShort
  let salt ← draw
  let hash := hashPassword (bytesOfDraw 16 salt) password
  beginTx .request false
  let existing ← orRollback
    (select .request fun tables ↦ .ok (if tables.administrator.isSome then 1 else 0))
    (.wrapped [.text "check administrator setup: "])
  if existing ≠ 0 then
    rollback
    throw .alreadySetup
  orRollback (update .request fun tables ↦ tables.insertAdministrator ⟨username, hash⟩)
    fun error ↦ if isUniqueError error then .alreadySetup
      else .wrapped [.text "create administrator: "] error
  orRollback (update .request fun tables ↦ .ok { tables
      with suggestedUsername := username }) unchanged
  let _ ← orRollback (bumpRevisionTx .request) unchanged
  commit .request
  store.loadAfterCommit

omit [GCM String] [NetURL] in
/-- `VerifyAdmin`: the stored user name, and whether the credentials are right. -/
def verifyAdmin [Argon2] (username password : String) : StoreM (String × Bool) := do
  let administrator ← inContext [.text "read administrator credentials: "]
    (direct .request fun tables ↦ .ok (tables.administrator, tables))
  match administrator with
  | none => return ("", false)
  | some stored =>
    let usernameOK := usernameKey (Strings.trimSpace username) = usernameKey stored.username
    let passwordOK ← inContext [.text "verify administrator password: "]
      (ofExcept ((verifyPassword password stored.passwordHash).mapError .message))
    return (stored.username, usernameOK ∧ passwordOK)

/-- `UpdateAccount`. -/
def Store.updateAccount [Argon2] (store : Store) (username newPassword : String) :
    StoreM Snapshot := do
  let username := Strings.trimSpace username
  if username = "" then
    throw (.message [.text "administrator username is required"])
  let newHash ← (if newPassword = "" then return none
    else if Strings.runeCount newPassword < Config.minimumAdminPasswordLength then
      throw passwordTooShort
    else do
      let salt ← draw
      return some (hashPassword (bytesOfDraw 16 salt) newPassword))
  beginTx .request false
  let currentHash ← orRollback
    (select .request fun tables ↦ match tables.administrator with
      | none => .error .noRows
      | some administrator => .ok administrator.passwordHash)
    fun error ↦ if error = .sql .noRows then .notFound else error
  orRollback
    (update .request fun tables ↦
      .ok (tables.updateAdministrator ⟨username, newHash.getD currentHash⟩))
    fun error ↦ if isUniqueError error then .conflict else error
  orRollback (update .request fun tables ↦ .ok { tables
      with suggestedUsername := username }) unchanged
  let _ ← orRollback (bumpRevisionTx .request) unchanged
  commit .request
  store.loadAfterCommit

/-! ### Sections -/

omit [GCM String] [NetURL] in
/-- `updateSection`, with the update of the row. -/
def updateSection (write : Tables → Tables) : StoreM Unit := do
  beginTx .request false
  let affected ← orRollback (exec .request fun tables ↦ .ok (1, write tables)) unchanged
  if affected = 0 then
    rollback
    throw .notFound
  let _ ← orRollback (bumpRevisionTx .request) unchanged
  commit .request

omit [GCM String] [NetURL] in
/-- A row of `config_sections` with new data. -/
def Section.withData {α : Type} (row : Section α) (data : α) : Section α :=
  { row with revision := row.revision + 1, data }

omit [GCM String] [NetURL] in
/-- A row of `config_sections` with new data and a new secret. -/
def Section.withSecret {α : Type} (row : Section α) (data : α) (secret : List UInt8) : Section α :=
  { revision := row.revision + 1, data, secret }

omit [GCM String] [NetURL] in
/-- The codex section as `UpdateCodex` normalises it. -/
def normalizeCodex (value : CodexConfig) : CodexConfig :=
  { value with
    binary := Strings.trimSpace value.binary
    promptsFile := Strings.trimSpace value.promptsFile
    successMessage := Strings.trimSpace value.successMessage
    reasoningEffort := Strings.trimSpace value.reasoningEffort
    configOverrides := value.configOverrides.map Strings.trimSpace
    prompts := value.prompts.map Strings.trimSpace
    promptsPersisted := true
    targets := [] }

/-- `UpdateCodex`. -/
def Store.updateCodex (store : Store) (value : CodexConfig) : StoreM Snapshot := do
  let value := normalizeCodex value
  ofCheck (Config.validateCodex value)
  let data ← marshal (toPersistedCodex value)
  updateSection fun tables ↦ { tables with codex := tables.codex.withData data }
  store.loadAfterCommit

omit [GCM String] [NetURL] in
/-- The Web section as `UpdateWeb` normalises it. -/
def normalizeWeb (value : WebConfig) : WebConfig :=
  { value with
    listenAddress := Strings.trimSpace value.listenAddress
    trustedProxies := value.trustedProxies.map Strings.trimSpace }

/-- `UpdateWeb`. -/
def Store.updateWeb [Net] (store : Store) (value : WebConfig) : StoreM Snapshot := do
  let value := normalizeWeb value
  ofCheck (Config.validateWeb value)
  let data ← marshal (toPersistedWeb value)
  updateSection fun tables ↦ { tables with web := tables.web.withData data }
  store.loadAfterCommit

/-- The secret of a token: NULL for an empty one. -/
def Store.encryptToken (store : Store) (token aad : String) : StoreM (List UInt8) :=
  if token = "" then return []
  else do
    let nonce ← draw
    return encrypt store.key nonce token aad

omit [GCM String] [NetURL] in
/-- The OpenILink section as `UpdateOpenILink` normalises it. -/
def normalizeOpenILink (value : OpenILinkConfig) : OpenILinkConfig :=
  { value.setEnabledExplicit value.enabled with
    baseURL := Strings.trimRight (Strings.trimSpace value.baseURL) '/'
    allowedUserIDs := value.allowedUserIDs.map Strings.trimSpace }

omit [GCM String] [NetURL] in
/-- The token after `UpdateOpenILink`: a blank one that is not empty keeps the current token. -/
def chooseOpenILinkToken (current : String) : Option String → String
  | none => current
  | some token =>
    let trimmed := Strings.trimSpace token
    if trimmed ≠ "" ∨ token = "" then trimmed else current

/-- `UpdateOpenILink`. -/
def Store.updateOpenILink (store : Store) (value : OpenILinkConfig) (token : Option String) :
    StoreM Snapshot := do
  let value := normalizeOpenILink value
  beginTx .request false
  let currentCipher ← orRollback (select .request fun tables ↦
      .ok tables.openILink.secret) unchanged
  let currentToken ← orRollback (ofExcept (store.decodeToken currentCipher "openilink:token"
      [])) unchanged
  let token := chooseOpenILinkToken currentToken token
  let value := { value with token, tokenEnv := "" }
  orRollback (ofCheck (Config.validateOpenILink value)) unchanged
  let data ← orRollback (marshal (toPersistedOpenILink value)) unchanged
  let cipherValue ← orRollback (store.encryptToken token "openilink:token") unchanged
  orRollback
    (update .request fun tables ↦
      .ok { tables with openILink := tables.openILink.withSecret data cipherValue }) unchanged
  let _ ← orRollback (bumpRevisionTx .request) unchanged
  commit .request
  store.loadAfterCommit

omit [GCM String] [NetURL] in
/-- The Telegram section as `UpdateTelegram` normalises it. -/
def normalizeTelegram (value : TelegramConfig) : TelegramConfig :=
  { value.setEnabledExplicit value.enabled with
    baseURL := Strings.trimRight (Strings.trimSpace value.baseURL) '/'
    allowedUserIDs := value.allowedUserIDs.map Strings.trimSpace }

omit [GCM String] [NetURL] in
/-- The token after `UpdateTelegram`: a blank one clears it. -/
def chooseTelegramToken (current : String) : Option String → String
  | none => current
  | some token => Strings.trimSpace token

/-- `UpdateTelegram`. -/
def Store.updateTelegram (store : Store) (value : TelegramConfig) (token : Option String) :
    StoreM Snapshot := do
  let value := normalizeTelegram value
  beginTx .request false
  let currentCipher ← orRollback (select .request fun tables ↦ .ok tables.telegram.secret) unchanged
  let currentToken ← orRollback (ofExcept (store.decodeToken currentCipher "telegram:token"
      [])) unchanged
  let token := chooseTelegramToken currentToken token
  let value := { value with token, tokenEnv := "" }
  orRollback (ofCheck (Config.validateTelegram value)) unchanged
  let data ← orRollback (marshal (toPersistedTelegram value)) unchanged
  let cipherValue ← orRollback (store.encryptToken token "telegram:token") unchanged
  orRollback
    (update .request fun tables ↦
      .ok { tables with telegram := tables.telegram.withSecret data cipherValue }) unchanged
  let _ ← orRollback (bumpRevisionTx .request) unchanged
  commit .request
  store.loadAfterCommit

/-! ### Targets -/

/-- `insertTargetTx`. -/
def Store.insertTargetTx (store : Store) (target : Target) : StoreM Target := do
  let overrides ← marshal target.configOverrides
  let id ← exec .request fun tables ↦
    tables.insertTarget { target with configOverrides := overrides }
  let nonce ← draw
  update .request fun tables ↦
    .ok (tables.setTargetKey id (encrypt store.key nonce target.apiKey (targetAPIKeyAAD id)))
  return { target with id }

omit [GCM String] [NetURL] in
/-- What callers get for an error of a statement on the names of targets. -/
def conflictOr (error : StoreError) : StoreError :=
  if isUniqueError error then .conflict else error

omit [GCM String] [NetURL] in
/-- The order of a target without one: after the last. -/
def appendedSortOrder : Option Int → Int
  | some maximum => int64 (maximum + 1)
  | none => 0

/-- `CreateTarget`. -/
def Store.createTarget (store : Store) (target : Target) : StoreM (Snapshot × Target) := do
  let target := Config.normalizeTarget target
  let sortOrder ← (if target.sortOrder < 0 then do
      let maximum ← direct .request fun tables ↦ .ok (tables.maximumSortOrder, tables)
      return appendedSortOrder maximum
    else return target.sortOrder)
  let target := { target with sortOrder }
  ofCheck (Config.validateTarget target)
  beginTx .request false
  let created ← orRollback (store.insertTargetTx target) conflictOr
  let _ ← orRollback (bumpRevisionTx .request) unchanged
  commit .request
  let snapshot ← store.loadAfterCommit
  return (snapshot, created)

omit [GCM String] [NetURL] in
/-- The target that `UpdateTarget` writes, given the order and the key of the row: a blank key keeps
the old one. -/
def editedTarget (id sortOrder : Int) (plain : String) (target : Target) (apiKey : Option String) :
    Target :=
  let target := Config.normalizeTarget target
  { target with
    id
    sortOrder := if target.sortOrder < 0 then sortOrder else target.sortOrder
    apiKey := match apiKey with
      | none => plain
      | some apiKey => if Strings.trimSpace apiKey ≠ "" then Strings.trimSpace apiKey else plain }

/-- `UpdateTarget`. -/
def Store.updateTarget (store : Store) (id : Int) (target : Target) (apiKey : Option String) :
    StoreM (Snapshot × Target) := do
  beginTx .request false
  let row ← orRollback
    (select .request fun tables ↦ match tables.target? id with
      | none => .error .noRows
      | some row => .ok row)
    fun error ↦ if error = .sql .noRows then .notFound else error
  let plain ← orRollback
    (ofExcept (match decrypt store.key row.apiKey (targetAPIKeyAAD id) with
      | none => .error (.message [.text "encrypted value authentication failed"])
      | some plain => .ok plain)) unchanged
  let target := editedTarget id row.sortOrder plain target apiKey
  orRollback (ofCheck (Config.validateTarget target)) unchanged
  let nonce ← orRollback draw unchanged
  let overrides ← orRollback (marshal target.configOverrides) unchanged
  orRollback
    (update .request fun tables ↦ tables.updateTarget id
      { target with configOverrides := overrides }
      (encrypt store.key nonce target.apiKey (targetAPIKeyAAD id)))
    conflictOr
  let _ ← orRollback (bumpRevisionTx .request) unchanged
  commit .request
  let snapshot ← store.loadAfterCommit
  return (snapshot, target)

/-- `DeleteTarget`. -/
def Store.deleteTarget (store : Store) (id : Int) : StoreM Snapshot := do
  beginTx .request false
  let affected ← orRollback (exec .request fun tables ↦ .ok (tables.deleteTarget id)) unchanged
  if affected = 0 then
    rollback
    throw .notFound
  let _ ← orRollback (bumpRevisionTx .request) unchanged
  commit .request
  store.loadAfterCommit

/-! ### The first start -/

omit [GCM String] [NetURL] in
/-- The configuration as `initialize` prepares it. -/
def preparedConfig (cfg : Config) : Config where
  openILink :=
    { cfg.openILink.setEnabledExplicit cfg.openILink.isOpenILinkEnabled with
      token := Strings.trimSpace cfg.openILink.token, tokenEnv := "" }
  telegram :=
    { cfg.telegram.setEnabledExplicit cfg.telegram.isTelegramEnabled with
      token := Strings.trimSpace cfg.telegram.token, tokenEnv := "" }
  web := { cfg.web with adminPasswordEnv := "" }
  codex := { cfg.codex with
    targets := cfg.codex.targets.zipIdx.map fun (target, index) ↦
      { Config.normalizeTarget target with apiKeyEnv := "", sortOrder := index } }

/-- The tables that `initialize` commits to an empty database, given the draws of its nonces. The
check of the master key is left out. -/
def Store.initialize (store : Store) (draws : Nat → Nat) (cfg : Config)
    (suggestedUsername : String) : Except StoreError Tables := do
  let cfg := preparedConfig cfg
  (cfg.validateAllowEmptyTargets.mapError .message).mapError
    (.wrapped [.text "validate initial database configuration: "])
  let secret (nonce : Nat) (token aad : String) :=
    if token = "" then [] else encrypt store.key nonce token aad
  let sections : Tables :=
    { configRevision := 1, loadedStartupRevision := 0, suggestedUsername, administrator := none
      -- Without prompts, `Load` falls back to the prompt file.
      codex := ⟨1, { toPersistedCodex cfg.codex with prompts := none }, []⟩
      openILink := ⟨1, toPersistedOpenILink cfg.openILink,
        secret (draws 0) cfg.openILink.token "openilink:token"⟩
      telegram := ⟨1, toPersistedTelegram cfg.telegram,
        secret (draws 1) cfg.telegram.token "telegram:token"⟩
      web := ⟨1, toPersistedWeb cfg.web, []⟩
      targets := [], sequence := 0 }
  cfg.codex.targets.zipIdx.foldlM (fun tables (target, index) ↦ do
    let (id, tables) ← (tables.insertTarget target).mapError fun error ↦
      .wrapped [.text "store initial target ", .quoted target.name, .text ": "] (.sql error)
    return tables.setTargetKey id
      (encrypt store.key (draws (index + 2)) target.apiKey (targetAPIKeyAAD id))) sections

/-- The tables of a database that `Open` has just initialised. -/
def Store.Fresh (store : Store) (tables : Tables) : Prop :=
  ∃ draws, store.initialize draws Config.defaultDatabaseConfig
    Config.defaultDatabaseConfig.web.adminUsername = .ok tables

omit [GCM String] [NetURL] in
/-- `MarkStartupLoaded`. -/
def markStartupLoaded (revision : Int) : StoreM Unit :=
  inContext [.text "record loaded startup revision: "]
    (direct .request fun tables ↦ .ok ((), { tables with loadedStartupRevision := revision }))

end

end CodexQueueBot.Storage
