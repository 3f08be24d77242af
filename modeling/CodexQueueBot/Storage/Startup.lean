import CodexQueueBot.Storage.Opening
import CodexQueueBot.Storage.Sequences

/-!
# What a start does to the file

`cwp` is the precondition of a function of `storage.Open` under a crash condition on the file, with
one rule for each call. `migrate_spec` says that a file is moved from one migration to the next,
`openStore_spec` that a start comes to the migrated file, and `settle_blank` and
`settle_initialized` what it does there without and with a configuration.
-/

set_option autoImplicit false
set_option relaxedAutoImplicit false

namespace CodexQueueBot.Storage.Opening

open Go Lib Lib.Prog

/-! ### Calls -/

section

variable {α β : Type} (faulty : Prop) (crash : Disk → Prop)
  (fail : StoreError → Disk → Option (Tx Disk) → Prop)

/-- What holds after a function of the store. -/
def after (ok : α → Disk → Option (Tx Disk) → Prop) :
    Except StoreError α → Disk → Option (Tx Disk) → Prop
  | .error error => fail error
  | .ok value => ok value

/-- The weakest precondition of a function of the store on the file. -/
def cwp (call : DiskM α) (ok : α → Disk → Option (Tx Disk) → Prop) (disk : Disk)
    (tx : Option (Tx Disk)) : Prop :=
  call.run.cwp faulty crash (after fail ok) disk tx

end

section

variable {α β : Type} {faulty : Prop} {crash : Disk → Prop}
  {fail : StoreError → Disk → Option (Tx Disk) → Prop} {disk : Disk} {tx : Option (Tx Disk)}

/-- A value that is returned. -/
theorem cwp_pure (value : α) (ok : α → Disk → Option (Tx Disk) → Prop) :
    cwp faulty crash fail (pure value) ok disk tx ↔ ok value disk tx :=
  Iff.rfl

/-- An error that is returned. -/
theorem cwp_throw (error : StoreError) (ok : α → Disk → Option (Tx Disk) → Prop) :
    cwp faulty crash fail (throw error) ok disk tx ↔ fail error disk tx :=
  Iff.rfl

/-- A result that is computed without the database. -/
theorem cwp_ofExcept (result : Except StoreError α) (ok : α → Disk → Option (Tx Disk) → Prop) :
    cwp faulty crash fail (ofExcept result) ok disk tx ↔ after fail ok result disk tx :=
  Iff.rfl

/-- A sequence ends with the first error. -/
theorem cwp_bind (call : DiskM α) (next : α → DiskM β)
    (ok : β → Disk → Option (Tx Disk) → Prop) :
    cwp faulty crash fail (call >>= next) ok disk tx ↔
      cwp faulty crash fail call (fun value ↦ cwp faulty crash fail (next value) ok) disk tx := by
  unfold cwp
  refine (Prog.cwp_bind call.run _ _ disk tx).trans (iff_of_eq ?_)
  congr 1
  funext result disk tx
  cases result <;> rfl

/-- A rollback needs the transaction open. -/
theorem cwp_orRollback (call : DiskM α) (translate : StoreError → StoreError)
    (ok : α → Disk → Option (Tx Disk) → Prop) :
    cwp faulty crash fail (orRollback call translate) ok disk tx ↔
      cwp faulty crash (fun error disk tx ↦ tx.isSome ∧ fail (translate error) disk none) call ok
        disk tx := by
  unfold cwp
  refine (Prog.cwp_bind call.run _ _ disk tx).trans (iff_of_eq ?_)
  congr 1
  funext result disk tx
  cases result <;> rfl

/-- The context stands around the error. -/
theorem cwp_inContext (context : Message) (call : DiskM α)
    (ok : α → Disk → Option (Tx Disk) → Prop) :
    cwp faulty crash fail (inContext context call) ok disk tx ↔
      cwp faulty crash (fun error ↦ fail (.wrapped context error)) call ok disk tx := by
  unfold cwp
  refine (Prog.cwp_bind call.run _ _ disk tx).trans (iff_of_eq ?_)
  congr 1
  funext result disk tx
  cases result <;> rfl

/-- A draw gives any number, or fails from outside. -/
theorem cwp_draw {ok : ℕ → Disk → Option (Tx Disk) → Prop}
    (hfault : faulty → ∀ error, fail error disk tx) (hok : ∀ number, ok number disk tx) :
    cwp faulty crash fail draw ok disk tx :=
  ⟨fun hfaulty ↦ hfault hfaulty _, hok⟩

/-- An encoding keeps the value, or fails from outside. -/
theorem cwp_marshal {value : α} {ok : α → Disk → Option (Tx Disk) → Prop}
    (hfault : faulty → ∀ error, fail error disk tx) (hok : ok value disk tx) :
    cwp faulty crash fail (marshal value) ok disk tx := by
  rw [marshal, cwp_bind]
  exact cwp_draw hfault fun _ ↦ (cwp_pure value ok).mpr hok

/-- A call of the operating system goes through, or fails from outside. -/
theorem cwp_osCall {context : Message} {ok : Unit → Disk → Option (Tx Disk) → Prop}
    (hfault : faulty → ∀ error, fail error disk tx) (hok : ok () disk tx) :
    cwp faulty crash fail (osCall context) ok disk tx := by
  rw [osCall, cwp_inContext, cwp_bind]
  exact cwp_draw (fun hfaulty _ ↦ hfault hfaulty _) fun _ ↦ (cwp_pure () ok).mpr hok

/-- A transaction begins with the file as it is. -/
theorem cwp_beginTx {ok : Unit → Disk → Option (Tx Disk) → Prop}
    (hfault : faulty → ∀ error, fail error disk none)
    (hok : ok () disk (some ⟨false, disk⟩)) :
    cwp faulty crash fail beginTx ok disk none :=
  ⟨rfl, fun hfaulty _ ↦ hfault hfaulty _, hok⟩

/-- A statement of the transaction. -/
theorem cwp_update {write : Disk → Except SQLError Disk} {own new : Disk}
    {ok : Unit → Disk → Option (Tx Disk) → Prop}
    (hfault : faulty → ∀ error, fail error disk (some ⟨false, own⟩))
    (hwrite : write own = .ok new) (hok : ok () disk (some ⟨false, new⟩)) :
    cwp faulty crash fail (update write) ok disk (some ⟨false, own⟩) := by
  unfold cwp update
  rw [ExceptT.run_mk, Prog.cwp]
  refine ⟨_, rfl, fun hfaulty error ↦ hfault hfaulty _, ?_⟩
  rw [hwrite]
  exact hok

/-- A read outside a transaction. -/
theorem cwp_query {read : Disk → Except SQLError α} (reply : α)
    {ok : α → Disk → Option (Tx Disk) → Prop} (hcrash : crash disk)
    (hfault : faulty → ∀ error, fail error disk none)
    (hread : read disk = .ok reply) (hok : ok reply disk none) :
    cwp faulty crash fail (query read) ok disk none := by
  unfold cwp query
  rw [ExceptT.run_mk, Prog.cwp]
  refine ⟨rfl, fun hfaulty error ↦ hfault hfaulty _, ?_⟩
  rw [hread]
  exact ⟨hcrash, hok⟩

/-- A write outside a transaction. -/
theorem cwp_direct {write : Disk → Except SQLError Disk} {new : Disk}
    {ok : Unit → Disk → Option (Tx Disk) → Prop} (hcrash : crash new)
    (hfault : faulty → ∀ error, fail error disk none)
    (hwrite : write disk = .ok new) (hok : ok () new none) :
    cwp faulty crash fail (direct write) ok disk none := by
  unfold cwp direct
  rw [ExceptT.run_mk, Prog.cwp]
  refine ⟨rfl, fun hfaulty error ↦ hfault hfaulty _, ?_⟩
  rw [hwrite]
  exact ⟨hcrash, hok⟩

/-- The commit of a transaction. -/
theorem cwp_commit {new : Disk} {ok : Unit → Disk → Option (Tx Disk) → Prop} (hcrash : crash new)
    (hfault : faulty → ∀ error, fail error disk none) (hok : ok () new none) :
    cwp faulty crash fail commit ok disk (some ⟨false, new⟩) :=
  ⟨_, rfl, fun hfaulty _ ↦ hfault hfaulty _, hcrash, hok⟩

/-- The precondition for what a function returns, an error or a value. -/
theorem run_cwp {call : DiskM α} {post : Except StoreError α → Disk → Option (Tx Disk) → Prop}
    (h : cwp faulty crash (fun error ↦ post (.error error)) call (fun value ↦ post (.ok value))
      disk tx) : call.run.cwp faulty crash post disk tx := by
  refine Prog.cwp_mono ?_ h
  intro result disk tx hafter
  cases result <;> exact hafter

/-- A statement whose error is rolled back, and what follows it. -/
theorem cwp_guarded {write : Disk → Except SQLError Disk} {own new : Disk}
    {translate : StoreError → StoreError} {next : Unit → DiskM β}
    {ok : β → Disk → Option (Tx Disk) → Prop}
    (hfault : faulty → ∀ error, fail error disk none) (hwrite : write own = .ok new)
    (hnext : cwp faulty crash fail (next ()) ok disk (some ⟨false, new⟩)) :
    cwp faulty crash fail (orRollback (update write) translate >>= next) ok disk
      (some ⟨false, own⟩) := by
  rw [cwp_bind, cwp_orRollback]
  exact cwp_update (fun hfaulty _ ↦ ⟨rfl, hfault hfaulty _⟩) hwrite hnext

end

attribute [irreducible] cwp

/-! ### Migrations -/

/-- The file after the migrations up to a version, with these rows. -/
def migrated (rows : Rows) (version : ℕ) : Disk where
  migrations := some (List.range' 1 version)
  rows := if version = 0 then none else some (if 3 ≤ version then withTelegram rows else rows)
  sortOrderIndex := decide (2 ≤ version)

section

variable {faulty : Prop} {crash : Disk → Prop}
  {fail : StoreError → Disk → Option (Tx Disk) → Prop} {rows : Rows}

/-- A migration that is missing is applied and recorded in one transaction. -/
theorem applyMigration_spec {item : Migration} {version : ℕ} (hblank : version = 0 → rows = {})
    (hitem : migrations[version]? = some item) {ok : Unit → Disk → Option (Tx Disk) → Prop}
    (hcrash : crash (migrated rows (version + 1)))
    (hfault : faulty → ∀ error, fail error (migrated rows version) none)
    (hok : ok () (migrated rows (version + 1)) none) :
    cwp faulty crash fail (applyMigration item) ok (migrated rows version) none := by
  have hwrites : ∃ staged, item.sql (migrated rows version) = .ok staged ∧
      recordMigration item.version staged = .ok (migrated rows (version + 1)) := by
    match version, hitem with
    | 0, rfl =>
      obtain rfl := hblank rfl
      exact ⟨_, rfl, rfl⟩
    | 1, rfl => exact ⟨_, rfl, rfl⟩
    | 2, rfl => exact ⟨_, rfl, rfl⟩
  obtain ⟨staged, hsql, hrecord⟩ := hwrites
  unfold applyMigration
  rw [cwp_bind, cwp_inContext]
  refine cwp_beginTx (fun hfaulty error ↦ hfault hfaulty _) ?_
  refine cwp_guarded hfault hsql (cwp_guarded hfault hrecord ?_)
  rw [cwp_inContext]
  exact cwp_commit hcrash (fun hfaulty error ↦ hfault hfaulty _) hok

/-- The migrations are numbered from one on. -/
theorem version_of_migrations {index : ℕ} {item : Migration}
    (h : migrations[index]? = some item) : item.version = index + 1 := by
  match index, h with
  | 0, rfl => rfl
  | 1, rfl => rfl
  | 2, rfl => rfl

variable (hfault : faulty → ∀ error disk, crash disk → fail error disk none)

include hfault

/-- The loop of `migrate` goes on with the migrations from `index` on. -/
theorem migrations_spec {version : ℕ} (hversion : version ≤ 3) (hblank : version = 0 → rows = {})
    {ok : Unit → Disk → Option (Tx Disk) → Prop}
    (hcrash : ∀ reached ≤ 3, version ≤ reached → crash (migrated rows reached))
    (hok : ok () (migrated rows 3) none) {items : List Migration} {index : ℕ}
    (hitems : migrations.drop index = items) (hlength : index + items.length = 3) :
    cwp faulty crash fail
      (items.forM fun item ↦
        if item.version ∈ List.range' 1 version then pure () else applyMigration item)
      ok (migrated rows (max version index)) none := by
  induction items generalizing index with
  | nil =>
    obtain rfl : index = 3 := hlength
    rw [max_eq_right hversion]
    exact (cwp_pure () ok).mpr hok
  | cons item items ih =>
    have hitem : migrations[index]? = some item := by
      rw [← List.head?_drop, hitems, List.head?_cons]
    have htail : migrations.drop (index + 1) = items := by
      rw [← List.tail_drop, hitems, List.tail_cons]
    rw [List.length_cons] at hlength
    have hrest := ih htail (by omega)
    rw [List.forM, cwp_bind, version_of_migrations hitem]
    by_cases happlied : index + 1 ≤ version
    · rw [if_pos (List.mem_range'_1.mpr ⟨by omega, by omega⟩), cwp_pure,
        max_eq_left (by omega : index ≤ version)]
      rwa [max_eq_left happlied] at hrest
    · rw [if_neg fun hmem ↦ happlied (by have := List.mem_range'_1.mp hmem; omega),
        max_eq_right (by omega : version ≤ index)]
      rw [max_eq_right (by omega : version ≤ index + 1)] at hrest
      refine applyMigration_spec (fun hzero ↦ hblank (by omega)) hitem
        (hcrash _ (by omega) (by omega)) (fun hfaulty error ↦ ?_) hrest
      exact hfault hfaulty error _ (hcrash index (by omega) (by omega))

/-- `migrate` moves the file to the last version, from one migration to the next. -/
theorem migrate_spec {disk : Disk} {version : ℕ}
    (hdisk : disk = migrated rows version ∨ (disk = {} ∧ version = 0)) (hversion : version ≤ 3)
    (hblank : version = 0 → rows = {}) {ok : Unit → Disk → Option (Tx Disk) → Prop}
    (hstart : crash disk)
    (hcrash : ∀ reached ≤ 3, version ≤ reached → crash (migrated rows reached))
    (hok : ok () (migrated rows 3) none) :
    cwp faulty crash fail migrate ok disk none := by
  unfold migrate
  rw [cwp_bind, cwp_inContext]
  have hcreate : ({ disk with migrations := some (disk.migrations.getD []) } : Disk) =
      migrated rows version := by
    rcases hdisk with rfl | ⟨rfl, rfl⟩
    · rfl
    · rfl
  have hcreated := hcrash _ hversion le_rfl
  refine cwp_direct hcreated (fun hfaulty error ↦ hfault hfaulty _ _ hstart) (by rw [hcreate]) ?_
  rw [cwp_bind, cwp_inContext]
  refine cwp_query _ hcreated (fun hfaulty error ↦ hfault hfaulty _ _ hcreated) rfl ?_
  have hitems : migrations.drop 0 = migrations := rfl
  have hloop := migrations_spec hfault hversion hblank hcrash hok hitems rfl
  rwa [max_eq_left (Nat.zero_le version)] at hloop

end

/-! ### The check of the master key -/

section

variable [GCM String]

/-- A key that the check of the master key, if there is one, was made with. -/
def Fits (key : List UInt8) (check : Option (List UInt8)) : Prop :=
  ∀ value ∈ check, decrypt key value masterKeyCheckAAD = some masterKeyCheckPlaintext

/-- The check that a start writes. -/
def checkOf (key : List UInt8) (nonce : ℕ) : List UInt8 :=
  encrypt key nonce masterKeyCheckPlaintext masterKeyCheckAAD

variable {faulty : Prop} {crash : Disk → Prop}
  {fail : StoreError → Disk → Option (Tx Disk) → Prop} {disk : Disk} {rows : Rows}
  {key : List UInt8}

/-- A new check fits. -/
theorem fits_checkOf (key : List UInt8) (nonce : ℕ) : Fits key (some (checkOf key nonce)) := by
  rintro _ ⟨⟩
  exact decrypt_encrypt key nonce _ _

variable (hfault : faulty → ∀ error disk, crash disk → fail error disk none)
  (hrows : disk.rows = some rows) (hcrash : crash disk)

include hfault hrows hcrash

omit [GCM String] in
/-- `metaBool` reads the flag. -/
theorem initialized_spec {ok : Bool → Disk → Option (Tx Disk) → Prop}
    (hok : ok (decide (rows.initialized.getD "" = "1" ∨
      asciiFold (rows.initialized.getD "") = "true".toList)) disk none) :
    cwp faulty crash fail initialized ok disk none := by
  unfold initialized
  rw [cwp_bind, cwp_inContext]
  refine cwp_query rows.initialized hcrash
    (fun hfaulty error ↦ hfault hfaulty _ _ hcrash) ?_ ?_
  · rw [Disk.existing, hrows]
    rfl
  · exact (cwp_pure _ ok).mpr hok

/-- `verifyMasterKey` rejects every key but the one that the check was made with. -/
theorem verifyMasterKey_spec {ok : Bool → Disk → Option (Tx Disk) → Prop}
    (hwrong : ¬ Fits key rows.masterKeyCheck → fail wrongMasterKey disk none)
    (hok : Fits key rows.masterKeyCheck → ok rows.masterKeyCheck.isSome disk none) :
    cwp faulty crash fail (verifyMasterKey key) ok disk none := by
  unfold verifyMasterKey
  rw [cwp_bind, cwp_inContext]
  refine cwp_query rows.masterKeyCheck hcrash
    (fun hfaulty error ↦ hfault hfaulty _ _ hcrash) ?_ ?_
  · rw [Disk.existing, hrows]
    rfl
  cases hcheck : rows.masterKeyCheck with
  | none =>
    rw [hcheck] at hok
    exact (cwp_pure false ok).mpr (hok fun value hvalue ↦ by cases hvalue)
  | some value =>
    rw [hcheck] at hwrong hok
    dsimp only
    split_ifs with hopens
    · rw [cwp_pure]
      refine hok ?_
      rintro _ ⟨⟩
      exact hopens
    · rw [cwp_throw]
      exact hwrong fun hfits ↦ hopens (hfits value rfl)

/-- `ensureMasterKey` leaves a check that the key fits. -/
theorem ensureMasterKey_spec {ok : Unit → Disk → Option (Tx Disk) → Prop}
    (hwrong : ¬ Fits key rows.masterKeyCheck → fail wrongMasterKey disk none)
    (hok : Fits key rows.masterKeyCheck → rows.masterKeyCheck.isSome → ok () disk none)
    (hnew : rows.masterKeyCheck = none → ∀ nonce,
      crash { disk with rows := some { rows with masterKeyCheck := some (checkOf key nonce) } } ∧
      ok () { disk with rows := some { rows with masterKeyCheck := some (checkOf key nonce) } }
        none) :
    cwp faulty crash fail (ensureMasterKey key) ok disk none := by
  unfold ensureMasterKey
  rw [cwp_bind]
  refine verifyMasterKey_spec hfault hrows hcrash hwrong fun hfits ↦ ?_
  cases hcheck : rows.masterKeyCheck with
  | some value =>
    rw [hcheck] at hfits hok
    exact (cwp_pure () ok).mpr (hok hfits rfl)
  | none =>
    change cwp _ _ _ (draw >>= _) _ _ _
    rw [cwp_bind]
    refine cwp_draw (fun hfaulty error ↦ hfault hfaulty _ _ hcrash) fun nonce ↦ ?_
    obtain ⟨hcrash', hok'⟩ := hnew hcheck nonce
    rw [cwp_inContext]
    refine cwp_direct hcrash' (fun hfaulty error ↦ hfault hfaulty _ _ hcrash) ?_ hok'
    unfold insertMasterKeyCheck
    rw [Disk.existing, hrows]
    exact if_neg (by rw [hcheck]; simp)

end

/-! ### The first configuration -/

section

variable [GCM String] [NetURL] {faulty : Prop} {crash : Disk → Prop}
  {fail : StoreError → Disk → Option (Tx Disk) → Prop}

/-- The file of a database with these tables. -/
def configured (check : List UInt8) (tables : Tables) : Disk where
  migrations := some [1, 2, 3]
  rows := some
    (({ masterKeyCheck := some check, initialized := some "1" } : Rows).withTables tables)
  sortOrderIndex := true

/-- The file of a database without a configuration, in which an older version of the program may
have left a check of the master key. -/
def blank (check : Option (List UInt8)) : Disk where
  migrations := some [1, 2, 3]
  rows := some { masterKeyCheck := check }
  sortOrderIndex := true

/-- `initialize` stores the defaults in one transaction. -/
theorem initializeDatabase_spec {store : Store} {check : Option (List UInt8)}
    (hfault : faulty → ∀ error, fail error (blank check) none)
    {ok : Unit → Disk → Option (Tx Disk) → Prop}
    (hcrash : ∀ nonce, crash (configured (check.getD (checkOf store.key nonce)) freshTables))
    (hok : ∀ nonce, ok () (configured (check.getD (checkOf store.key nonce)) freshTables) none) :
    cwp faulty crash fail
      (initializeDatabase store Config.defaultDatabaseConfig "admin") ok (blank check) none := by
  have hprepared : preparedConfig Config.defaultDatabaseConfig = Config.defaultDatabaseConfig := rfl
  have hvalid := Config.validateAllowEmptyTargets_eq_ok.mpr Config.accepted_defaultDatabaseConfig
  have hopenILink : Config.defaultDatabaseConfig.openILink.token = "" := rfl
  have htelegram : Config.defaultDatabaseConfig.telegram.token = "" := rfl
  unfold initializeDatabase
  rw [hprepared]
  dsimp only
  rw [hvalid, cwp_bind, cwp_ofExcept]
  change cwp _ _ _ _ _ _ _
  iterate 4
    rw [cwp_bind]
    refine cwp_marshal hfault ?_
  -- The defaults have no tokens.
  rw [cwp_bind, if_pos hopenILink, cwp_pure, cwp_bind, if_pos htelegram, cwp_pure]
  rw [cwp_bind]
  refine cwp_draw hfault fun nonce ↦ ?_
  rw [cwp_bind, cwp_inContext]
  refine cwp_beginTx (fun hfaulty error ↦ hfault hfaulty _) ?_
  refine cwp_guarded hfault rfl ?_
  refine cwp_guarded hfault rfl (cwp_guarded hfault rfl ?_)
  refine cwp_guarded hfault rfl (cwp_guarded hfault rfl ?_)
  rw [cwp_bind]
  change cwp _ _ _ (pure ()) _ _ _
  rw [cwp_pure]
  refine cwp_guarded hfault rfl (cwp_guarded hfault rfl ?_)
  refine cwp_guarded hfault rfl (cwp_guarded hfault rfl ?_)
  rw [cwp_inContext]
  exact cwp_commit (hcrash nonce) (fun hfaulty error ↦ hfault hfaulty _) (hok nonce)

omit [GCM String] [NetURL] in
/-- The tables are a part of a file that has them. -/
theorem part_tables {disk : Disk} {rows : Rows} (hrows : disk.rows = some rows) :
    Part Disk.tables Disk.withTables disk := by
  constructor
  · intro tables
    simp only [Disk.tables, Disk.withTables, Disk.existing, hrows, Option.map_some]
    rfl
  · intro tables new
    simp only [Disk.withTables, hrows, Option.map_some]
    rfl

omit [GCM String] [NetURL] in
/-- The tables that are there are put where they are. -/
theorem withTables_eq_self {disk : Disk} {tables : Tables} (h : disk.tables = .ok tables) :
    disk.withTables tables = disk := by
  obtain ⟨migrations, _ | rows, sortOrderIndex⟩ := disk
  · cases h
  · change rows.tables = .ok tables at h
    unfold Rows.tables at h
    split at h
    · obtain rfl := Except.ok.inj h
      obtain ⟨⟩ := rows
      simp_all [Disk.withTables, Rows.withTables]
    · cases h

/-- `Load` returns the snapshot of the tables, and leaves the file as it is. -/
theorem load_spec {store : Store} {disk : Disk} {tables : Tables}
    (hfault : faulty → ∀ error disk, crash disk → fail error disk none)
    (htables : disk.tables = .ok tables) (hcrash : crash disk)
    {ok : Snapshot → Disk → Option (Tx Disk) → Prop}
    (hresult : after fail ok (store.snapshot tables) disk none) :
    cwp faulty crash fail (zoom Disk.tables Disk.withTables (store.load .request)) ok disk
      none := by
  have hrows : ∃ rows, disk.rows = some rows := by
    cases hrows : disk.rows with
    | none =>
      rw [Disk.tables, Disk.existing, hrows] at htables
      cases htables
    | some rows => exact ⟨rows, rfl⟩
  obtain ⟨rows, hrows⟩ := hrows
  have hsame : disk.withTables tables = disk := withTables_eq_self htables
  let terms : Terms Tables := ⟨fun _ ↦ faulty, Eq, fun _ _ ↦ False, Eq⟩
  have hload : (store.load .request).run.wp terms (fun result phase ↦ phase.tables = tables ∧
      phase.tx = none ∧ ((faulty ∧ ∃ error, result = .error error) ∨
        result = store.snapshot tables)) ⟨false, tables, none⟩ := by
    refine run_wp (wp_load store ?_ ?_)
    · rintro hfaulty error _ rfl
      exact ⟨rfl, rfl, .inl ⟨hfaulty, error, rfl⟩⟩
    · rintro _ rfl
      cases store.snapshot tables with
      | error error => exact ⟨rfl, rfl, .inr rfl⟩
      | ok snapshot => exact ⟨rfl, rfl, .inr rfl⟩
  have hterms : faulty → ∀ ctx, terms.faulty ctx := fun hfaulty _ ↦ hfaulty
  have hkeep : ∀ base new, terms.effect base new ∨ terms.touch base new →
      crash (disk.withTables base) → crash (disk.withTables new) := by
    rintro base new (heffect | rfl) hbase
    · exact heffect.elim
    · exact hbase
  have hzoom := Prog.cwp_zoom (part_tables hrows) (fun tables ↦ (rfl : tables = tables)) hterms
    hkeep (by rwa [hsame]) hload
  rw [hsame] at hzoom
  unfold cwp zoom
  refine Prog.cwp_mono ?_ hzoom
  rintro result whole own ⟨hwhole, phase, rfl, rfl, hpost⟩
  obtain ⟨htables', htx, hcases⟩ := hpost
  rw [htables', htx, hsame] at *
  rcases hcases with ⟨hfaulty, error, rfl⟩ | rfl
  · exact hfault hfaulty error disk hcrash
  · exact hresult

/-! ### Open -/

omit [GCM String] [NetURL] in
/-- `prepareFile` leaves the database alone. -/
theorem prepareFile_spec {options : Options} {disk : Disk}
    {ok : Unit → Disk → Option (Tx Disk) → Prop}
    (hfault : faulty → ∀ error, fail error disk none) (hok : ok () disk none) :
    cwp faulty crash fail (prepareFile options) ok disk none := by
  unfold prepareFile
  rw [cwp_bind]
  refine cwp_osCall hfault ?_
  have hrest : cwp faulty crash fail (do
      osCall [.text "create database file: "]
      osCall [.text "set database permissions: "]
      osCall [.text "close database file: "]) ok disk none := by
    rw [cwp_bind]
    refine cwp_osCall hfault ?_
    rw [cwp_bind]
    exact cwp_osCall hfault (cwp_osCall hfault hok)
  by_cases hprotected : options.protectedDirectory
  · rw [if_neg (not_not.mpr hprotected)]
    exact hrest
  · rw [if_pos hprotected, cwp_bind]
    exact cwp_osCall hfault hrest

/-- With a well-formed key and a path, `Open` comes to the migrated file. -/
theorem openStore_spec {promptLines : String → Option (List String)} {options : Options}
    {key : List UInt8} (hkey : decodeMasterKey options.masterKeyBase64 = .ok key)
    (hpath : Strings.trimSpace options.path ≠ "") {disk : Disk} {rows : Rows} {version : ℕ}
    (hfault : faulty → ∀ error disk, crash disk → fail error disk none)
    (hdisk : disk = migrated rows version ∨ (disk = {} ∧ version = 0)) (hversion : version ≤ 3)
    (hblank : version = 0 → rows = {}) (hstart : crash disk)
    (hcrash : ∀ reached ≤ 3, version ≤ reached → crash (migrated rows reached))
    {ok : Store → Disk → Option (Tx Disk) → Prop}
    (hsettle : cwp faulty crash fail (settle ⟨key, promptLines⟩ (Strings.trimSpace options.path)) ok
      (migrated rows 3) none) :
    cwp faulty crash fail (openStore promptLines options) ok disk none := by
  have hfault' : faulty → ∀ error, fail error disk none :=
    fun hfaulty error ↦ hfault hfaulty error disk hstart
  have hpragma : ∀ {ok : Unit → Disk → Option (Tx Disk) → Prop}, ok () disk none →
      cwp faulty crash fail pragma ok disk none := by
    intro ok hok
    unfold pragma
    rw [cwp_inContext]
    exact cwp_direct hstart (fun hfaulty error ↦ hfault' hfaulty _) rfl hok
  unfold openStore
  rw [hkey, cwp_bind, cwp_ofExcept]
  change cwp _ _ _ _ _ _ _
  rw [if_neg hpath]
  have hrest : cwp faulty crash fail (do
      osCall [.text "open SQLite database: "]
      pragma
      pragma
      pragma
      migrate
      settle ⟨key, promptLines⟩ (Strings.trimSpace options.path)) ok disk none := by
    rw [cwp_bind]
    refine cwp_osCall hfault' ?_
    iterate 3
      rw [cwp_bind]
      refine hpragma ?_
    rw [cwp_bind]
    exact migrate_spec hfault hdisk hversion hblank hstart hcrash hsettle
  by_cases hmemory : Strings.trimSpace options.path = memoryPath
  · rw [if_neg (not_not.mpr hmemory)]
    exact hrest
  · rw [if_pos hmemory, cwp_bind]
    exact prepareFile_spec hfault' hrest

/-- The second half of `Open` ends with a load of what is there. -/
theorem loaded_spec {store : Store} {path : String} {disk : Disk} {tables : Tables}
    (hfault : faulty → ∀ error disk, crash disk → fail error disk none)
    (htables : disk.tables = .ok tables) (hcrash : crash disk)
    {ok : Store → Disk → Option (Tx Disk) → Prop}
    (hresult : after fail (fun _ ↦ ok store) (store.snapshot tables) disk none) :
    cwp faulty crash fail
      (do
        if path ≠ memoryPath then osCall [.text "set database permissions: "]
        let _ ← zoom Disk.tables Disk.withTables (store.load .request)
        return store) ok disk none := by
  have hload : cwp faulty crash fail
      (do
        let _ ← zoom Disk.tables Disk.withTables (store.load .request)
        return store) ok disk none := by
    rw [cwp_bind]
    refine load_spec hfault htables hcrash ?_
    cases hsnapshot : store.snapshot tables with
    | error error =>
      rw [hsnapshot] at hresult
      exact hresult
    | ok snapshot =>
      rw [hsnapshot] at hresult
      exact (cwp_pure store ok).mpr hresult
  by_cases hmemory : path = memoryPath
  · rw [if_neg (not_not.mpr hmemory)]
    exact hload
  · rw [if_pos hmemory, cwp_bind]
    exact cwp_osCall (fun hfaulty error ↦ hfault hfaulty error disk hcrash) hload

/-- On a file without a configuration the second half of `Open` stores the defaults, unless there is
a check that the key does not fit. -/
theorem settle_blank {store : Store} {path : String} {check : Option (List UInt8)}
    (hfault : faulty → ∀ error disk, crash disk → fail error disk none)
    (hstart : crash (blank check))
    (hcrash : ∀ value, (∀ old ∈ check, value = old) → Fits store.key (some value) →
      crash (configured value freshTables))
    (hwrong : ¬ Fits store.key check → fail wrongMasterKey (blank check) none)
    {ok : Store → Disk → Option (Tx Disk) → Prop}
    (hok : ∀ value, (∀ old ∈ check, value = old) → Fits store.key (some value) →
      ok store (configured value freshTables) none) :
    cwp faulty crash fail (settle store path) ok (blank check) none := by
  unfold settle
  rw [cwp_bind]
  refine initialized_spec hfault rfl hstart ?_
  rw [if_neg (by simp [asciiFold]), cwp_bind]
  refine verifyMasterKey_spec hfault rfl hstart hwrong fun hfits ↦ ?_
  change cwp _ _ _ (initializeDatabase store Config.defaultDatabaseConfig "admin" >>= _) _ _ _
  rw [cwp_bind]
  have hcheck : ∀ nonce, (∀ old ∈ check, check.getD (checkOf store.key nonce) = old) ∧
      Fits store.key (some (check.getD (checkOf store.key nonce))) := by
    intro nonce
    cases check with
    | none => exact ⟨fun old hold ↦ (by cases hold), fits_checkOf _ _⟩
    | some value => exact ⟨fun old hold ↦ Option.some.inj hold, hfits⟩
  refine initializeDatabase_spec (fun hfaulty error ↦ hfault hfaulty error _ hstart)
    (fun nonce ↦ hcrash _ (hcheck nonce).1 (hcheck nonce).2) fun nonce ↦ ?_
  obtain ⟨hold, hnew⟩ := hcheck nonce
  refine loaded_spec hfault (show _ = Except.ok freshTables from rfl) (hcrash _ hold hnew) ?_
  have hintact : store.Intact freshTables := intact_freshTables
  obtain ⟨config, hholds⟩ := (intact_iff.mp hintact).1
  rw [snapshot_eq_ok.mpr ⟨config, hholds, rfl⟩]
  exact hok _ hold hnew

omit [GCM String] [NetURL] in
/-- The third migration has nothing to do with the check of the master key. -/
theorem withTelegram_check (rows : Rows) (check : Option (List UInt8)) :
    withTelegram { rows with masterKeyCheck := check } =
      { withTelegram rows with masterKeyCheck := check } := by
  unfold withTelegram
  dsimp only
  split_ifs <;> rfl

/-- The flag of a database with a configuration. -/
def Initialized (rows : Rows) : Prop :=
  ∃ value, rows.initialized = some value ∧ (value = "1" ∨ asciiFold value = "true".toList)

omit [GCM String] [NetURL] in
/-- The third migration leaves the flag alone. -/
theorem Initialized.withTelegram {rows : Rows} (h : Initialized rows) :
    Initialized (withTelegram rows) := by
  unfold Opening.withTelegram
  split_ifs
  · exact h
  · exact h

/-- On a file with a configuration the second half of `Open` adds the check of the master key if it
is missing, rejects another key, and loads. -/
theorem settle_initialized {store : Store} {path : String} {disk : Disk} {rows : Rows}
    {tables : Tables} (hfault : faulty → ∀ error disk, crash disk → fail error disk none)
    (hrows : disk.rows = some rows) (hinit : Initialized rows) (htables : rows.tables = .ok tables)
    (hstart : crash disk)
    (hnew : rows.masterKeyCheck = none → ∀ nonce, crash { disk with
      rows := some { rows with masterKeyCheck := some (checkOf store.key nonce) } })
    (hwrong : ¬ Fits store.key rows.masterKeyCheck → fail wrongMasterKey disk none)
    {ok : Store → Disk → Option (Tx Disk) → Prop}
    (hresult : ∀ value, Fits store.key (some value) →
      (∀ old ∈ rows.masterKeyCheck, value = old) →
      crash { disk with rows := some { rows with masterKeyCheck := some value } } →
      after fail (fun _ ↦ ok store) (store.snapshot tables)
        { disk with rows := some { rows with masterKeyCheck := some value } } none) :
    cwp faulty crash fail (settle store path) ok disk none := by
  have hloads : ∀ value, Fits store.key (some value) → (∀ old ∈ rows.masterKeyCheck, value = old) →
      crash { disk with rows := some { rows with masterKeyCheck := some value } } →
      cwp faulty crash fail
        (do
          if path ≠ memoryPath then osCall [.text "set database permissions: "]
          let _ ← zoom Disk.tables Disk.withTables (store.load .request)
          return store) ok
        { disk with rows := some { rows with masterKeyCheck := some value } } none := by
    intro value hfits hold hcrash
    have hrows : Disk.tables { disk with rows := some { rows with masterKeyCheck := some value } } =
        .ok tables := htables
    exact loaded_spec hfault hrows hcrash (hresult value hfits hold hcrash)
  obtain ⟨flag, hflag, hvalue⟩ := hinit
  unfold settle
  rw [cwp_bind]
  refine initialized_spec hfault hrows hstart ?_
  rw [hflag, Option.getD_some, decide_eq_true hvalue, if_pos rfl, cwp_bind]
  refine ensureMasterKey_spec hfault hrows hstart hwrong ?_ ?_
  · intro hfits hsome
    obtain ⟨value, hcheck⟩ := Option.isSome_iff_exists.mp hsome
    have hsame : ({ disk with rows := some { rows with masterKeyCheck := some value } } : Disk) =
        disk := by
      obtain ⟨migrations, _, sortOrderIndex⟩ := disk
      obtain rfl : _ = some rows := hrows
      rw [← hcheck]
    rw [hcheck] at hfits
    have hload := hloads value hfits (fun old hold ↦ Option.some.inj (hcheck.symm.trans hold))
      (by rwa [hsame])
    rwa [hsame] at hload
  · intro hnone nonce
    refine ⟨hnew hnone nonce, hloads _ (fits_checkOf _ _) ?_ (hnew hnone nonce)⟩
    rintro old hold
    rw [hnone] at hold
    cases hold

end

end CodexQueueBot.Storage.Opening
