import CodexQueueBot.Config.Settings
import CodexQueueBot.Storage.Secrets
import CodexQueueBot.Lib.Transaction
import Mathlib.Data.List.Sort
import Mathlib.Data.Prod.Lex

/-!
# The tables of the store

The rows of the SQLite database and its statements, as functions on the tables. A column that holds
a JSON text holds the record that the text encodes, and the rows of `app_meta` hold what their texts
mean. The four rows of `config_sections` are there from `initialize` on, as are those of `app_meta`;
`administrators` has one row at most, by its check on the key.

Names of targets are unique under `COLLATE NOCASE`, which folds the letters of ASCII only and stops
at a NUL. An `AUTOINCREMENT` key is larger than every key that was ever there.
-/

set_option autoImplicit false
set_option relaxedAutoImplicit false

namespace CodexQueueBot.Storage

open Go

/-! ### Rows -/

/-- `persistedCodex`; a missing list of prompts is `none`. -/
structure PersistedCodex where
  binary : String
  promptsFile : String
  prompts : Option (List String)
  requestTimeoutSecond : Int
  retryMinSecond : Int
  retryMaxSecond : Int
  keepaliveMinSecond : Int
  keepaliveMaxSecond : Int
  maxParallel : Int
  successMessage : String
  reasoningEffort : String
  configOverrides : List String
  deriving DecidableEq, Repr

/-- `persistedOpenILink`. -/
structure PersistedOpenILink where
  enabled : Bool
  baseURL : String
  allowedUserIDs : List String
  httpTimeoutSecond : Int
  deriving DecidableEq, Repr

/-- `persistedTelegram`. -/
structure PersistedTelegram where
  enabled : Bool
  baseURL : String
  allowedUserIDs : List String
  httpTimeoutSecond : Int
  pollTimeoutSecond : Int
  deriving DecidableEq, Repr

/-- `persistedWeb`. -/
structure PersistedWeb where
  listenAddress : String
  cookieSecure : Bool
  trustedProxies : List String
  activityLimit : Int
  deriving DecidableEq, Repr

/-- A row of `config_sections`; a NULL secret is empty. -/
structure Section (α : Type) where
  revision : Int
  data : α
  secret : List UInt8
  deriving DecidableEq, Repr

/-- A row of `targets`. -/
structure TargetRow where
  id : Int
  sortOrder : Int
  revision : Int
  name : String
  apiBaseURL : String
  apiKey : List UInt8
  model : String
  wireAPI : String
  configOverrides : List String
  deriving DecidableEq, Repr

/-- A row of `administrators`. -/
structure Administrator where
  username : String
  passwordHash : PasswordHash
  deriving DecidableEq, Repr

/-- The tables. `sequence` is the largest key that `targets` has had. -/
structure Tables where
  configRevision : Int
  loadedStartupRevision : Int
  suggestedUsername : String
  administrator : Option Administrator
  codex : Section PersistedCodex
  openILink : Section PersistedOpenILink
  telegram : Section PersistedTelegram
  web : Section PersistedWeb
  targets : List TargetRow
  sequence : Int
  deriving DecidableEq, Repr

/-- What a statement fails with on its own, and what an outside failure is told by. -/
inductive SQLError
  | noRows
  | unique
  | txDone
  | failed
  deriving DecidableEq, Repr

/-! ### Conversions -/

/-- `toPersistedCodex`. -/
def toPersistedCodex (value : CodexConfig) : PersistedCodex where
  binary := value.binary
  promptsFile := value.promptsFile
  prompts := some value.prompts
  requestTimeoutSecond := value.requestTimeoutSecond
  retryMinSecond := value.retryMinSecond
  retryMaxSecond := value.retryMaxSecond
  keepaliveMinSecond := value.keepaliveMinSecond
  keepaliveMaxSecond := value.keepaliveMaxSecond
  maxParallel := value.maxParallel
  successMessage := value.successMessage
  reasoningEffort := value.reasoningEffort
  configOverrides := value.configOverrides

/-- `fromPersistedCodex`. -/
def fromPersistedCodex (value : PersistedCodex) : CodexConfig where
  binary := value.binary
  promptsFile := value.promptsFile
  prompts := value.prompts.getD []
  promptsPersisted := value.prompts.isSome
  requestTimeoutSecond := value.requestTimeoutSecond
  retryMinSecond := value.retryMinSecond
  retryMaxSecond := value.retryMaxSecond
  keepaliveMinSecond := value.keepaliveMinSecond
  keepaliveMaxSecond := value.keepaliveMaxSecond
  maxParallel := value.maxParallel
  successMessage := value.successMessage
  reasoningEffort := value.reasoningEffort
  configOverrides := value.configOverrides
  targets := []

/-- `toPersistedOpenILink`. -/
def toPersistedOpenILink (value : OpenILinkConfig) : PersistedOpenILink where
  enabled := value.enabled
  baseURL := value.baseURL
  allowedUserIDs := value.allowedUserIDs
  httpTimeoutSecond := value.httpTimeoutSecond

/-- `fromPersistedOpenILink`. -/
def fromPersistedOpenILink (value : PersistedOpenILink) : OpenILinkConfig :=
  { enabled := value.enabled
    baseURL := value.baseURL
    allowedUserIDs := value.allowedUserIDs
    httpTimeoutSecond := value.httpTimeoutSecond }

/-- `toPersistedTelegram`. -/
def toPersistedTelegram (value : TelegramConfig) : PersistedTelegram where
  enabled := value.enabled
  baseURL := value.baseURL
  allowedUserIDs := value.allowedUserIDs
  httpTimeoutSecond := value.httpTimeoutSecond
  pollTimeoutSecond := value.pollTimeoutSecond

/-- `fromPersistedTelegram`. -/
def fromPersistedTelegram (value : PersistedTelegram) : TelegramConfig :=
  { enabled := value.enabled
    baseURL := value.baseURL
    allowedUserIDs := value.allowedUserIDs
    httpTimeoutSecond := value.httpTimeoutSecond
    pollTimeoutSecond := value.pollTimeoutSecond }

/-- `toPersistedWeb`. -/
def toPersistedWeb (value : WebConfig) : PersistedWeb where
  listenAddress := value.listenAddress
  cookieSecure := value.cookieSecure
  trustedProxies := value.trustedProxies
  activityLimit := value.activityLimit

/-- `fromPersistedWeb`. -/
def fromPersistedWeb (value : PersistedWeb) : WebConfig :=
  { listenAddress := value.listenAddress
    cookieSecure := value.cookieSecure
    trustedProxies := value.trustedProxies
    activityLimit := value.activityLimit }

/-! ### Statements -/

/-- A text with the letters of ASCII folded. -/
def asciiFold (text : String) : List Char :=
  text.toList.map Char.toLower

/-- What `COLLATE NOCASE` compares: the folded text up to the first NUL, and the number of bytes. -/
def nocase (name : String) : List Char × ℕ :=
  ((asciiFold name).takeWhile (·.toNat ≠ 0), name.utf8ByteSize)

namespace Tables

/-- `INSERT INTO administrators`. -/
def insertAdministrator (tables : Tables) (administrator : Administrator) :
    Except SQLError Tables :=
  if tables.administrator.isSome then .error .unique
  else .ok { tables with administrator := some administrator }

/-- `UPDATE administrators` of the only row. -/
def updateAdministrator (tables : Tables) (administrator : Administrator) : Tables :=
  { tables with administrator := tables.administrator.map fun _ ↦ administrator }

/-- `SELECT MAX(sort_order) FROM targets`. -/
def maximumSortOrder (tables : Tables) : Option Int :=
  (tables.targets.map (·.sortOrder)).max?

/-- The key of the next row of `targets`. -/
def nextTargetID (tables : Tables) : Int :=
  (tables.targets.map (·.id)).foldl max tables.sequence + 1

/-- The row of a target. -/
def rowOf (id revision : Int) (target : Target) (apiKey : List UInt8) : TargetRow where
  id := id
  sortOrder := target.sortOrder
  revision := revision
  name := target.name
  apiBaseURL := target.apiBaseURL
  apiKey := apiKey
  model := target.model
  wireAPI := target.wireAPI
  configOverrides := target.configOverrides

/-- `INSERT INTO targets`, with an empty key: the identifier of the new row. -/
def insertTarget (tables : Tables) (target : Target) : Except SQLError (Int × Tables) :=
  if tables.targets.any fun row ↦ nocase row.name = nocase target.name then .error .unique
  else
    let id := tables.nextTargetID
    .ok (id, { tables with
      sequence := id
      targets := tables.targets ++ [rowOf id 1 target []] })

/-- An update of the rows of `targets` with an identifier. -/
def mapTarget (tables : Tables) (id : Int) (update : TargetRow → TargetRow) : Tables :=
  { tables with targets := tables.targets.map fun row ↦ if row.id = id then update row else row }

/-- `UPDATE targets SET api_key = ? WHERE id = ?`. -/
def setTargetKey (tables : Tables) (id : Int) (apiKey : List UInt8) : Tables :=
  tables.mapTarget id fun row ↦ { row with apiKey }

/-- `SELECT ... FROM targets WHERE id = ?`. -/
def target? (tables : Tables) (id : Int) : Option TargetRow :=
  tables.targets.find? fun row ↦ row.id = id

/-- `UPDATE targets SET ... WHERE id = ?`. -/
def updateTarget (tables : Tables) (id : Int) (target : Target) (apiKey : List UInt8) :
    Except SQLError Tables :=
  if tables.targets.any fun row ↦ row.id ≠ id ∧ nocase row.name = nocase target.name then
    .error .unique
  else .ok (tables.mapTarget id fun row ↦ rowOf row.id (row.revision + 1) target apiKey)

/-- `DELETE FROM targets WHERE id = ?`: the number of rows, and the tables without them. -/
def deleteTarget (tables : Tables) (id : Int) : Nat × Tables :=
  (tables.targets.countP fun row ↦ row.id = id,
    { tables with targets := tables.targets.filter fun row ↦ row.id ≠ id })

/-- What the rows of `targets` are ordered by. -/
def rowPlace (row : TargetRow) : ℤ ×ₗ ℤ :=
  toLex (row.sortOrder, row.id)

/-- `SELECT ... FROM targets ORDER BY sort_order, id`. -/
def orderedTargets (tables : Tables) : List TargetRow :=
  tables.targets.insertionSort fun left right ↦ rowPlace left ≤ rowPlace right

/-! ### What the statements on targets do -/

variable {tables new : Tables} {target : Target} {id : Int} {apiKey : List UInt8}

/-- An insertion asks for a name that no row has, and appends a row. -/
theorem insertTarget_eq_ok : tables.insertTarget target = .ok (id, new) ↔
    (∀ row ∈ tables.targets, nocase row.name ≠ nocase target.name) ∧ id = tables.nextTargetID ∧
      new = { tables with
        sequence := tables.nextTargetID
        targets := tables.targets ++ [rowOf tables.nextTargetID 1 target []] } := by
  unfold insertTarget
  by_cases hclash : tables.targets.any fun row ↦ nocase row.name = nocase target.name
  · rw [if_pos hclash]
    obtain ⟨row, hmem, hname⟩ := List.any_eq_true.mp hclash
    simp only [reduceCtorEq, false_iff, not_and]
    exact fun hfree ↦ absurd (of_decide_eq_true hname) (hfree row hmem)
  · rw [if_neg hclash]
    have hfree : ∀ row ∈ tables.targets, nocase row.name ≠ nocase target.name := by
      simpa using hclash
    simp only [Except.ok.injEq, Prod.mk.injEq, iff_true_intro hfree, true_and]
    exact and_congr eq_comm eq_comm

/-- An update asks for a name that no other row has, and replaces the row. -/
theorem updateTarget_eq_ok : tables.updateTarget id target apiKey = .ok new ↔
    (∀ row ∈ tables.targets, row.id ≠ id → nocase row.name ≠ nocase target.name) ∧
      new = tables.mapTarget id fun row ↦ rowOf row.id (row.revision + 1) target apiKey := by
  unfold updateTarget
  by_cases hclash : tables.targets.any fun row ↦ row.id ≠ id ∧ nocase row.name = nocase target.name
  · rw [if_pos hclash]
    obtain ⟨row, hmem, hrow⟩ := List.any_eq_true.mp hclash
    obtain ⟨hid, hname⟩ := of_decide_eq_true hrow
    simp only [reduceCtorEq, false_iff, not_and]
    exact fun hfree ↦ absurd hname (hfree row hmem hid)
  · rw [if_neg hclash]
    have hfree : ∀ row ∈ tables.targets, row.id ≠ id → nocase row.name ≠ nocase target.name := by
      simpa using hclash
    simp only [Except.ok.injEq, iff_true_intro hfree, true_and]
    exact eq_comm

end Tables

end CodexQueueBot.Storage
