import CodexQueueBot.Go.Base64
import CodexQueueBot.Lib.Recovery
import CodexQueueBot.Storage.Slots
import CodexQueueBot.Storage.Operations

/-!
# Opening the database

`storage.Open`: the master key is decoded, the file is made, the migrations that are missing are
applied, a database without a configuration gets the defaults, and one with a configuration has its
master key checked. Here the tables may be missing, in whole or in part; `Disk.tables` are the
tables of a database that has them all, on which `Load` and the other operations work.

Every call may fail, among them those of the operating system, which are told by their errors only.
Contexts play no part: `main` opens the database in one that is never cancelled. The map that
`initialize` ranges over is a list here, since its order makes no difference to a transaction.
-/

set_option autoImplicit false
set_option relaxedAutoImplicit false

namespace CodexQueueBot.Storage

open Go Lib

/-! ### The master key -/

/-- `DecodeMasterKey`. -/
def decodeMasterKey (raw : String) : Except StoreError (List UInt8) :=
  let raw := Strings.trimSpace raw
  if raw = "" then .error (.message
    [.text "CODEX_QUEUE_MASTER_KEY is required and must be Base64-encoded 32 bytes"])
  else
    match (Base64.decodeString true raw).or (Base64.decodeString false raw) with
    | none => .error (.message [.text "decode CODEX_QUEUE_MASTER_KEY: "])
    | some key =>
      if key.length ≠ 32 then .error (.message
        [.text "CODEX_QUEUE_MASTER_KEY must decode to exactly 32 bytes (got ",
          .number key.length, .text ")"])
      else .ok key

/-- A key is accepted in both spellings, with white space around it and line breaks within. -/
theorem decodeMasterKey_encode {key : List UInt8} (hlength : key.length = 32) (padded : Bool)
    {raw : String} (hraw : (Strings.trimSpace raw).toList.filter (!Base64.lineBreak ·) =
      Base64.encode padded (key.map UInt8.toNat)) : decodeMasterKey raw = .ok key := by
  have hbytes : ∀ byte ∈ key.map UInt8.toNat, byte < 256 := by
    intro byte hmem
    obtain ⟨byte, -, rfl⟩ := List.mem_map.mp hmem
    exact byte.toNat_lt
  have hdecode : Base64.decodeString padded (Strings.trimSpace raw) = some key := by
    simp [Base64.decodeString, hraw, Base64.decode_encode padded hbytes, Function.comp_def]
  have hor : (Base64.decodeString true (Strings.trimSpace raw)).or
      (Base64.decodeString false (Strings.trimSpace raw)) = some key := by
    cases padded with
    | true => rw [hdecode, Option.some_or]
    | false =>
      -- The 43 digits without padding are not in quanta of four.
      have hnone : Base64.decodeString true (Strings.trimSpace raw) = none := by
        rw [Base64.decodeString, Option.map_eq_none_iff, Option.eq_none_iff_forall_ne_some]
        intro bytes hsome
        have hquanta := Base64.length_of_decode_padded hsome
        rw [hraw, Base64.length_encode_unpadded, List.length_map, hlength] at hquanta
        exact absurd hquanta (by decide)
      rw [hnone, Option.none_or, hdecode]
  have hne : Strings.trimSpace raw ≠ "" := by
    intro hempty
    rw [hempty] at hdecode
    have hnil : key = [] := by
      cases padded <;> exact (Option.some.inj hdecode).symm
    rw [hnil] at hlength
    cases hlength
  unfold decodeMasterKey
  dsimp only
  rw [if_neg hne, hor]
  exact if_neg (not_not.mpr hlength)

/-! ### The file -/

/-- The rows of the tables that the first migration creates, as far as they are there. -/
structure Rows where
  masterKeyCheck : Option (List UInt8) := none
  initialized : Option String := none
  configRevision : Option Int := none
  loadedStartupRevision : Option Int := none
  suggestedUsername : Option String := none
  administrator : Option Administrator := none
  codex : Option (Section PersistedCodex) := none
  openILink : Option (Section PersistedOpenILink) := none
  telegram : Option (Section PersistedTelegram) := none
  web : Option (Section PersistedWeb) := none
  targets : List TargetRow := []
  sequence : Int := 0
  deriving DecidableEq, Repr

/-- The database file: the versions in `schema_migrations`, the tables of the first migration and
the index of the second. A table that is not there is `none`. -/
structure Disk where
  migrations : Option (List ℕ) := none
  rows : Option Rows := none
  sortOrderIndex : Bool := false
  deriving DecidableEq, Repr

/-- The tables of a database that has all rows. -/
def Rows.tables (rows : Rows) : Except SQLError Tables :=
  match rows.configRevision, rows.loadedStartupRevision, rows.suggestedUsername, rows.codex,
    rows.openILink, rows.telegram, rows.web with
  | some configRevision, some loadedStartupRevision, some suggestedUsername, some codex,
    some openILink, some telegram, some web =>
    .ok { configRevision, loadedStartupRevision, suggestedUsername,
          administrator := rows.administrator, codex, openILink, telegram, web,
          targets := rows.targets, sequence := rows.sequence }
  | _, _, _, _, _, _, _ => .error .noRows

/-- The rows with these tables. -/
def Rows.withTables (rows : Rows) (tables : Tables) : Rows :=
  { rows with
    configRevision := some tables.configRevision
    loadedStartupRevision := some tables.loadedStartupRevision
    suggestedUsername := some tables.suggestedUsername
    administrator := tables.administrator
    codex := some tables.codex
    openILink := some tables.openILink
    telegram := some tables.telegram
    web := some tables.web
    targets := tables.targets
    sequence := tables.sequence }

/-- The rows of a statement on the tables of the first migration. -/
def Disk.existing (disk : Disk) : Except SQLError Rows :=
  match disk.rows with
  | none => .error .failed
  | some rows => .ok rows

/-- The tables of a database that has them all. -/
def Disk.tables (disk : Disk) : Except SQLError Tables := do
  (← disk.existing).tables

/-- The database with these tables. -/
def Disk.withTables (tables : Tables) (disk : Disk) : Disk :=
  { disk with rows := disk.rows.map (·.withTables tables) }

/-- The rows of `targets` with an otherwise empty database, for a statement that reads no others. -/
def Disk.targetTables (disk : Disk) : Except SQLError Tables := do
  let rows ← disk.existing
  return {
    configRevision := 0, loadedStartupRevision := 0, suggestedUsername := "", administrator := none
    codex := ⟨0, toPersistedCodex Config.defaultDatabaseConfig.codex, []⟩
    openILink := ⟨0, toPersistedOpenILink Config.defaultDatabaseConfig.openILink, []⟩
    telegram := ⟨0, toPersistedTelegram Config.defaultDatabaseConfig.telegram, []⟩
    web := ⟨0, toPersistedWeb Config.defaultDatabaseConfig.web, []⟩
    targets := rows.targets, sequence := rows.sequence }

/-- The database with these rows of `targets`. -/
def Disk.withTargetTables (tables : Tables) (disk : Disk) : Disk :=
  { disk with rows := disk.rows.map fun rows ↦
      { rows with targets := tables.targets, sequence := tables.sequence } }

/-! ### Calls -/

/-- A function of the store on a database that may lack tables. -/
abbrev DiskM := ExceptT StoreError (Prog Disk SQLError)

namespace Opening

/-- `BeginTx`. -/
def beginTx : DiskM Unit :=
  ExceptT.mk (.beginTx .request false fun
    | some error => .ret (.error (.sql error))
    | none => .ret (.ok ()))

/-- A statement of the transaction that writes. -/
def update (write : Disk → Except SQLError Disk) : DiskM Unit :=
  ExceptT.mk (.stmt .request (fun disk ↦ (write disk).map ((), ·)) fun
    | .error error => .ret (.error (.sql error))
    | .ok reply => .ret (.ok reply))

/-- A statement outside a transaction that reads. -/
def query {ρ : Type} (read : Disk → Except SQLError ρ) : DiskM ρ :=
  ExceptT.mk (.direct .request (fun disk ↦ (read disk).map (·, disk)) fun
    | .error error => .ret (.error (.sql error))
    | .ok reply => .ret (.ok reply))

/-- A statement outside a transaction that writes. -/
def direct (write : Disk → Except SQLError Disk) : DiskM Unit :=
  ExceptT.mk (.direct .request (fun disk ↦ (write disk).map ((), ·)) fun
    | .error error => .ret (.error (.sql error))
    | .ok reply => .ret (.ok reply))

/-- `Commit`. -/
def commit : DiskM Unit :=
  ExceptT.mk (.commit .request fun
    | some error => .ret (.error (.sql error))
    | none => .ret (.ok ()))

/-- After an error: the rollback, and the error as the caller gets it. -/
def orRollback {α : Type} (call : DiskM α) (translate : StoreError → StoreError) : DiskM α :=
  ExceptT.mk (call.run.bind fun
    | .error error => .rollback (.ret (.error (translate error)))
    | .ok value => .ret (.ok value))

/-- An error with its context. -/
def inContext {α : Type} (context : Message) (call : DiskM α) : DiskM α :=
  ExceptT.mk (call.run.bind fun
    | .error error => .ret (.error (.wrapped context error))
    | .ok value => .ret (.ok value))

/-- A draw of the random source, or another local call that may fail. -/
def draw : DiskM ℕ :=
  ExceptT.mk (.draw fun
    | none => .ret (.error .failed)
    | some number => .ret (.ok number))

/-- A call of the operating system. -/
def osCall (context : Message) : DiskM Unit :=
  inContext context do
    let _ ← draw
    return ()

/-- A result that is computed without the database. -/
def ofExcept {α : Type} (result : Except StoreError α) : DiskM α :=
  ExceptT.mk (.ret result)

/-- `json.Marshal`. -/
def marshal {α : Type} (value : α) : DiskM α := do
  let _ ← draw
  return value

/-- A function of the store on a part of the database. -/
def zoom {α : Type} (view : Disk → Except SQLError Tables) (put : Tables → Disk → Disk)
    (call : StoreM α) : DiskM α :=
  ExceptT.mk (call.run.zoom view put)

/-! ### Migrations -/

/-- `migration`. -/
structure Migration where
  version : ℕ
  sql : Disk → Except SQLError Disk

/-- The Telegram section that the third migration adds. -/
def migratedTelegram : Section PersistedTelegram where
  revision := 1
  data :=
    { enabled := false
      baseURL := "https://api.telegram.org"
      allowedUserIDs := []
      httpTimeoutSecond := 45
      pollTimeoutSecond := 30 }
  secret := []

/-- The third migration, on the rows. -/
def withTelegram (rows : Rows) : Rows :=
  if rows.initialized.isSome ∧ rows.telegram = none then
    { rows with telegram := some migratedTelegram }
  else rows

/-- `migrations`. -/
def migrations : List Migration :=
  [{ version := 1
     sql := fun disk ↦
      if disk.rows.isSome then .error .failed else .ok { disk with rows := some {} } },
   { version := 2
     sql := fun disk ↦ do
      let _ ← disk.existing
      if disk.sortOrderIndex then .error .failed else .ok { disk with sortOrderIndex := true } },
   { version := 3
     sql := fun disk ↦ do
      let rows ← disk.existing
      return { disk with rows := some (withTelegram rows) } }]

/-- `INSERT INTO schema_migrations`. -/
def recordMigration (version : ℕ) (disk : Disk) : Except SQLError Disk :=
  match disk.migrations with
  | none => .error .failed
  | some applied =>
    if version ∈ applied then .error .unique
    else .ok { disk with migrations := some (applied ++ [version]) }

/-- The body of the loop of `migrate`, for a migration that is not applied. -/
def applyMigration (item : Migration) : DiskM Unit := do
  inContext [.text "begin migration ", .number item.version, .text ": "] beginTx
  orRollback (update item.sql)
    (.wrapped [.text "apply migration ", .number item.version, .text ": "])
  orRollback (update (recordMigration item.version))
    (.wrapped [.text "record migration ", .number item.version, .text ": "])
  inContext [.text "commit migration ", .number item.version, .text ": "] commit

/-- `migrate`. -/
def migrate : DiskM Unit := do
  inContext [.text "create migration table: "]
    (direct fun disk ↦ .ok { disk with migrations := some (disk.migrations.getD []) })
  let applied ← inContext [.text "read migrations: "]
    (query fun disk ↦ match disk.migrations with
      | none => .error .failed
      | some applied => .ok applied)
  migrations.forM fun item ↦
    if item.version ∈ applied then pure () else applyMigration item

/-! ### The check of the master key -/

/-- `masterKeyCheckPlaintext`. -/
def masterKeyCheckPlaintext : String :=
  "codex-queue-bot-master-key-check-v1"

/-- `ErrWrongMasterKey`. -/
def wrongMasterKey : StoreError :=
  .message [.text "CODEX_QUEUE_MASTER_KEY does not match this database"]

/-- `metaBool` of `app_initialized`. The letters of `true` have no other case than those of
ASCII. -/
def initialized : DiskM Bool := do
  let value ← inContext [.text "read metadata app_initialized: "]
    (query fun disk ↦ disk.existing.map (·.initialized))
  let value := value.getD ""
  return value = "1" ∨ asciiFold value = "true".toList

section

variable [GCM String] (key : List UInt8)

/-- `verifyMasterKey`. -/
def verifyMasterKey : DiskM Bool := do
  let encrypted ← inContext [.text "read master-key check: "]
    (query fun disk ↦ disk.existing.map (·.masterKeyCheck))
  match encrypted with
  | none => return false
  | some encrypted =>
    if decrypt key encrypted masterKeyCheckAAD = some masterKeyCheckPlaintext then return true
    else throw wrongMasterKey

/-- `INSERT INTO app_meta` of the check, which fails if there is one. -/
def insertMasterKeyCheck (value : List UInt8) (disk : Disk) : Except SQLError Disk := do
  let rows ← disk.existing
  if rows.masterKeyCheck.isSome then .error .unique
  else return { disk with rows := some { rows with masterKeyCheck := some value } }

/-- `ensureMasterKey`. -/
def ensureMasterKey : DiskM Unit := do
  if ← verifyMasterKey key then return ()
  else do
    let nonce ← draw
    inContext [.text "store master-key check: "] (direct (insertMasterKeyCheck
      (encrypt key nonce masterKeyCheckPlaintext masterKeyCheckAAD)))

/-! ### The first configuration -/

omit [GCM String] in
/-- A statement that inserts a row, whose key must be free. -/
def insertRow {α : Type} (read : Rows → Option α) (write : Rows → Rows) (disk : Disk) :
    Except SQLError Disk := do
  let rows ← disk.existing
  if (read rows).isSome then .error .unique else return { disk with rows := some (write rows) }

variable [NetURL]

/-- `initialize`. -/
def initializeDatabase (store : Store) (cfg : Config) (suggestedUsername : String) :
    DiskM Unit := do
  let cfg := preparedConfig cfg
  ofExcept ((cfg.validateAllowEmptyTargets.mapError .message).mapError
    (.wrapped [.text "validate initial database configuration: "]))
  -- Without prompts, `Load` falls back to the prompt file.
  let codex ← marshal { toPersistedCodex cfg.codex with prompts := none }
  let openILink ← marshal (toPersistedOpenILink cfg.openILink)
  let telegram ← marshal (toPersistedTelegram cfg.telegram)
  let web ← marshal (toPersistedWeb cfg.web)
  let secret (token aad : String) : DiskM (List UInt8) :=
    if token = "" then return [] else do return encrypt store.key (← draw) token aad
  let tokenCipher ← secret cfg.openILink.token "openilink:token"
  let telegramTokenCipher ← secret cfg.telegram.token "telegram:token"
  let nonce ← draw
  let check := encrypt store.key nonce masterKeyCheckPlaintext masterKeyCheckAAD
  inContext [.text "begin initial configuration transaction: "] beginTx
  orRollback (update fun disk ↦ do
      let rows ← disk.existing
      let check := rows.masterKeyCheck.getD check
      return { disk with rows := some { rows with masterKeyCheck := some check } })
    (.wrapped [.text "store master-key check: "])
  let section_ (name : String) (insert : Disk → Except SQLError Disk) : DiskM Unit :=
    orRollback (update insert)
      (.wrapped [.text "store initial ", .text name, .text " configuration: "])
  section_ "codex" (insertRow (·.codex) fun rows ↦ { rows with codex := some ⟨1, codex, []⟩ })
  section_ "openilink" (insertRow (·.openILink) fun rows ↦
    { rows with openILink := some ⟨1, openILink, tokenCipher⟩ })
  section_ "telegram" (insertRow (·.telegram) fun rows ↦
    { rows with telegram := some ⟨1, telegram, telegramTokenCipher⟩ })
  section_ "web" (insertRow (·.web) fun rows ↦ { rows with web := some ⟨1, web, []⟩ })
  cfg.codex.targets.forM fun target ↦ do
    let _ ← orRollback (zoom Disk.targetTables Disk.withTargetTables (store.insertTargetTx target))
      (.wrapped [.text "store initial target ", .quoted target.name, .text ": "])
  let meta_ (name : String) (insert : Disk → Except SQLError Disk) : DiskM Unit :=
    orRollback (update insert) (.wrapped [.text "store initial metadata ", .text name, .text ": "])
  meta_ "app_initialized" (insertRow (·.initialized) fun rows ↦
    { rows with initialized := some "1" })
  meta_ "config_revision" (insertRow (·.configRevision) fun rows ↦
    { rows with configRevision := some 1 })
  meta_ "loaded_startup_revision" (insertRow (·.loadedStartupRevision) fun rows ↦
    { rows with loadedStartupRevision := some 0 })
  meta_ "suggested_username" (insertRow (·.suggestedUsername) fun rows ↦
    { rows with suggestedUsername := some suggestedUsername })
  inContext [.text "commit initial configuration: "] commit

/-! ### Open -/

/-- `Options`, with what `protectedDirectory` says of the directory of the file. -/
structure Options where
  path : String
  masterKeyBase64 : String
  protectedDirectory : Bool
  deriving DecidableEq, Repr

/-- `Options.path` is the name of a database in memory, which has no file. -/
def memoryPath : String :=
  ":memory:"

/-- The calls of `Open` that make the file. -/
def prepareFile (options : Options) : DiskM Unit := do
  osCall [.text "create database directory: "]
  if ¬ options.protectedDirectory then osCall [.text "set database directory permissions: "]
  osCall [.text "create database file: "]
  osCall [.text "set database permissions: "]
  osCall [.text "close database file: "]

/-- A `PRAGMA` statement of `Open`. -/
def pragma : DiskM Unit :=
  inContext [.text "configure SQLite: "] (direct .ok)

/-- What `Open` does when the migrations are applied. -/
def settle (store : Store) (path : String) : DiskM Store := do
  if ← initialized then ensureMasterKey store.key
  else do
    let _ ← verifyMasterKey store.key
    let cfg := Config.defaultDatabaseConfig
    initializeDatabase store cfg
      (if cfg.web.adminUsername = "" then "admin" else cfg.web.adminUsername)
  if path ≠ memoryPath then osCall [.text "set database permissions: "]
  let _ ← zoom Disk.tables Disk.withTables (store.load .request)
  return store

/-- `Open`, with the lines of the prompt files. -/
def openStore (promptLines : String → Option (List String)) (options : Options) : DiskM Store := do
  let key ← ofExcept (decodeMasterKey options.masterKeyBase64)
  let path := Strings.trimSpace options.path
  if path = "" then throw (.message [.text "database path is required"])
  if path ≠ memoryPath then prepareFile options
  osCall [.text "open SQLite database: "]
  pragma
  pragma
  pragma
  migrate
  settle ⟨key, promptLines⟩ path

end

end Opening

end CodexQueueBot.Storage
