import CodexQueueBot.Storage.Appending
import CodexQueueBot.Storage.Startup

/-!
# Starts that are cut off

The program may be killed at any moment, also while it opens the database, and started again with
another master key. `History` is what becomes of the file: a start that is cut off anywhere, or one
that comes to its end and is followed by calls of the store, which may interleave and fail as they
like until the program is killed.

`starts_unconfigured` and `starts_configured` say what one start does, with and without failures
from outside, and `history_cases` and `older_database` follow by induction.
-/

set_option autoImplicit false
set_option relaxedAutoImplicit false

namespace CodexQueueBot.Storage.Opening

open Go Lib Lib.Prog

/-! ### Starts -/

/-- A start of the program on the file. -/
structure Start where
  promptLines : String → Option (List String)
  options : Options
  onFile : Strings.trimSpace options.path ≠ memoryPath

/-- The options are accepted, with this master key. -/
structure Start.Uses (start : Start) (key : List UInt8) : Prop where
  key : decodeMasterKey start.options.masterKeyBase64 = .ok key
  path : Strings.trimSpace start.options.path ≠ ""

section

variable [GCM String] [NetURL]

/-- The program of a start. -/
def Start.program (start : Start) : Prog Disk SQLError (Except StoreError Store) :=
  (openStore start.promptLines start.options).run

/-- A start, none of whose calls fails from outside, ends with a result and leaves a file. -/
def Start.Ends (start : Start) (disk : Disk) (result : Except StoreError Store) (disk' : Disk) :
    Prop :=
  ∃ tx, Steps (Process.step .txDone) (Process.Allowed False) ⟨start.program, disk, none⟩
    ⟨.ret result, disk', tx⟩

variable {start : Start} {key : List UInt8} {faulty : Prop}

/-- The store that a start with a key opens. -/
def Start.store (start : Start) (key : List UInt8) : Store :=
  ⟨key, start.promptLines⟩

/-- A start whose options are not accepted leaves the file alone. -/
theorem starts_rejected {crash : Disk → Prop} {disk : Disk} (h : ¬ ∃ key, start.Uses key) :
    start.program.cwp faulty crash
      (fun result disk' tx ↦ disk' = disk ∧ tx = none ∧ ∃ error, result = .error error)
      disk none := by
  refine run_cwp ?_
  unfold openStore
  rw [cwp_bind, cwp_ofExcept]
  cases hkey : decodeMasterKey start.options.masterKeyBase64 with
  | error error => exact ⟨rfl, rfl, error, rfl⟩
  | ok key =>
    have hpath : Strings.trimSpace start.options.path = "" := by
      by_contra hpath
      exact h ⟨key, hkey, hpath⟩
    change cwp _ _ _ _ _ _ _
    rw [if_pos hpath, cwp_bind, cwp_throw]
    exact ⟨rfl, rfl, _, rfl⟩

/-! ### A file without a configuration -/

/-- The file of a database without a configuration: empty, or with some migrations and what an older
version of the program may have left, a check of the master key. -/
def Unconfigured (check : Option (List UInt8)) (disk : Disk) : Prop :=
  disk = {} ∧ check = none ∨
    ∃ version ≤ 3, (version = 0 → check = none) ∧
      disk = migrated { masterKeyCheck := check } version

/-- The defaults are stored, with a check that the key fits: the old one if there was one. -/
def HoldsDefaults (key : List UInt8) (check : Option (List UInt8)) (disk : Disk) : Prop :=
  ∃ value, (∀ old ∈ check, value = old) ∧ Fits key (some value) ∧
    disk = configured value freshTables

/-- A start either leaves the file without a configuration, or stores the defaults. It opens the
database exactly if it has stored them, and without failures from outside it does so unless there is
a check that its key does not fit. -/
theorem starts_unconfigured {check : Option (List UInt8)} {disk : Disk} (huses : start.Uses key)
    (hdisk : Unconfigured check disk) :
    start.program.cwp faulty (fun disk ↦ Unconfigured check disk ∨ HoldsDefaults key check disk)
      (fun result disk' tx ↦ tx = none ∧
        (∀ store, result = .ok store → store = start.store key ∧ HoldsDefaults key check disk') ∧
        (¬ faulty →
          (Fits key check → result = .ok (start.store key) ∧ HoldsDefaults key check disk') ∧
          (¬ Fits key check → result = .error wrongMasterKey ∧ Unconfigured check disk')))
      disk none := by
  have hstart : ∃ version, (disk = migrated { masterKeyCheck := check } version ∨
      (disk = {} ∧ version = 0)) ∧ version ≤ 3 ∧ (version = 0 → check = none) := by
    rcases hdisk with ⟨rfl, hcheck⟩ | ⟨version, hle, hcheck, rfl⟩
    · exact ⟨0, .inr ⟨rfl, rfl⟩, by omega, fun _ ↦ hcheck⟩
    · exact ⟨version, .inl rfl, hle, hcheck⟩
  obtain ⟨version, hmigrated, hversion, hcheck⟩ := hstart
  have hblank : migrated { masterKeyCheck := check } 3 = blank check := rfl
  have hunconfigured : ∀ reached ≤ 3, version ≤ reached →
      Unconfigured check (migrated { masterKeyCheck := check } reached) :=
    fun reached hreached hle ↦ .inr ⟨reached, hreached, fun hzero ↦ hcheck (by omega), rfl⟩
  have hlast : Unconfigured check (blank check) := hunconfigured 3 le_rfl hversion
  refine run_cwp ?_
  refine openStore_spec huses.key huses.path (fun hfaulty error disk hcrash ↦ ?_) hmigrated hversion
    (fun hzero ↦ by rw [hcheck hzero]) (.inl hdisk)
    (fun reached hreached hle ↦ .inl (hunconfigured reached hreached hle)) ?_
  · exact ⟨rfl, fun store hstore ↦ (by cases hstore), fun hfine ↦ absurd hfaulty hfine⟩
  rw [hblank]
  refine settle_blank (fun hfaulty error disk hcrash ↦ ?_) (.inl hlast)
    (fun value hold hfits ↦ .inr ⟨value, hold, hfits, rfl⟩) (fun hwrong ↦ ?_)
    fun value hold hfits ↦ ?_
  · exact ⟨rfl, fun store hstore ↦ (by cases hstore), fun hfine ↦ absurd hfaulty hfine⟩
  · exact ⟨rfl, fun store hstore ↦ (by cases hstore), fun _ ↦
      ⟨fun hfits ↦ absurd hfits hwrong, fun _ ↦ ⟨rfl, hlast⟩⟩⟩
  · have hholds : HoldsDefaults key check (configured value freshTables) :=
      ⟨value, hold, hfits, rfl⟩
    refine ⟨rfl, fun store hstore ↦ ⟨(Except.ok.inj hstore).symm, hholds⟩, fun _ ↦
      ⟨fun _ ↦ ⟨rfl, hholds⟩, fun hwrong ↦ absurd (fun old hmem ↦ ?_) hwrong⟩⟩
    obtain rfl := hold old hmem
    exact hfits value rfl

/-! ### A file with a configuration -/

/-- What starts with a key may make of a file with a configuration: the missing migrations are
applied, and after them a missing check of the master key is added. -/
def Completes (key : List UInt8) (rows : Rows) (version : ℕ) (disk : Disk) : Prop :=
  (∃ reached ≤ 3, version ≤ reached ∧ disk = migrated rows reached) ∨
    rows.masterKeyCheck = none ∧
      ∃ nonce, disk = migrated { rows with masterKeyCheck := some (checkOf key nonce) } 3

/-- The file is complete, with a check that the key fits: the old one if there was one. -/
def Complete (key : List UInt8) (rows : Rows) (disk : Disk) : Prop :=
  ∃ value, (∀ old ∈ rows.masterKeyCheck, value = old) ∧ Fits key (some value) ∧
    disk = migrated { rows with masterKeyCheck := some value } 3

/-- A start changes nothing in a configuration but for what was missing. Without failures from
outside it rejects a key that the check does not fit, and else opens the database if the
configuration can be loaded. -/
theorem starts_configured (faulty : Prop) {rows : Rows} {version : ℕ} {tables : Tables}
    (huses : start.Uses key)
    (hversion : 1 ≤ version ∧ version ≤ 3) (hinit : Initialized rows)
    (htables : (withTelegram rows).tables = .ok tables) {disk : Disk}
    (hdisk : disk = migrated rows version) :
    start.program.cwp faulty (Completes key rows version)
      (fun result disk' tx ↦ tx = none ∧
        (∀ store, result = .ok store → store = start.store key ∧ Complete key rows disk') ∧
        (¬ faulty →
          (Fits key rows.masterKeyCheck →
            Complete key rows disk' ∧
              result = ((start.store key).snapshot tables).map fun _ ↦ start.store key) ∧
          (¬ Fits key rows.masterKeyCheck →
            result = .error wrongMasterKey ∧ disk' = migrated rows 3)))
      disk none := by
  subst hdisk
  have hreached : ∀ reached ≤ 3, version ≤ reached →
      Completes key rows version (migrated rows reached) :=
    fun reached hreached hle ↦ .inl ⟨reached, hreached, hle, rfl⟩
  have hchecked : ∀ value, ({ migrated rows 3 with
      rows := some { withTelegram rows with masterKeyCheck := some value } } : Disk) =
        migrated { rows with masterKeyCheck := some value } 3 := by
    intro value
    change ({ migrated rows 3 with rows := some _ } : Disk) =
      { migrated rows 3 with
        rows := some (withTelegram { rows with masterKeyCheck := some value }) }
    rw [withTelegram_check rows (some value)]
  have hcheck : (withTelegram rows).masterKeyCheck = rows.masterKeyCheck := by
    unfold withTelegram
    split_ifs <;> rfl
  refine run_cwp ?_
  refine openStore_spec huses.key huses.path (fun hfaulty error disk hcrash ↦ ?_) (.inl rfl)
    hversion.2 (fun hzero ↦ by omega) (hreached version hversion.2 le_rfl) hreached ?_
  · exact ⟨rfl, fun store hstore ↦ (by cases hstore), fun hfine ↦ absurd hfaulty hfine⟩
  refine settle_initialized (fun hfaulty error disk hcrash ↦ ?_)
    (show _ = some (withTelegram rows) from rfl) hinit.withTelegram htables
    (hreached 3 le_rfl hversion.2) ?_ ?_ ?_
  · exact ⟨rfl, fun store hstore ↦ (by cases hstore), fun hfine ↦ absurd hfaulty hfine⟩
  · intro hnone nonce
    rw [hchecked]
    rw [hcheck] at hnone
    exact .inr ⟨hnone, nonce, rfl⟩
  · rw [hcheck]
    exact fun hwrong ↦ ⟨rfl, fun store hstore ↦ (by cases hstore), fun _ ↦
      ⟨fun hfits ↦ absurd hfits hwrong, fun _ ↦ ⟨rfl, rfl⟩⟩⟩
  · rw [hcheck]
    intro value hfits hold _
    rw [hchecked]
    have hcomplete : Complete key rows (migrated { rows with masterKeyCheck := some value } 3) :=
      ⟨value, hold, hfits, rfl⟩
    have hfits' : Fits key rows.masterKeyCheck := by
      rintro old hmem
      obtain rfl := hold old hmem
      exact hfits value rfl
    change after _ _ ((start.store key).snapshot tables) _ _
    cases (start.store key).snapshot tables with
    | error error =>
      exact ⟨rfl, fun store hstore ↦ (by cases hstore), fun _ ↦
        ⟨fun _ ↦ ⟨hcomplete, rfl⟩, fun hwrong ↦ absurd hfits' hwrong⟩⟩
    | ok snapshot =>
      exact ⟨rfl, fun store hstore ↦ ⟨(Except.ok.inj hstore).symm, hcomplete⟩, fun _ ↦
        ⟨fun _ ↦ ⟨hcomplete, rfl⟩, fun hwrong ↦ absurd hfits' hwrong⟩⟩

/-! ### Lives of the program -/

/-- A file with sound tables, and a check that the key fits. -/
def Configured (key : List UInt8) (disk : Disk) : Prop :=
  ∃ value tables, Fits key (some value) ∧
    (∀ promptLines, (⟨key, promptLines⟩ : Store).Sound tables) ∧ disk = configured value tables

omit [NetURL] in
/-- With an ideal cipher, only one key fits a check. -/
theorem Fits.unique (hideal : GCM.Ideal String) {key' value : List UInt8}
    (h : Fits key (some value)) (h' : Fits key' (some value)) : key = key' := by
  obtain ⟨draw, hvalue⟩ := (decrypt_eq_some_iff hideal).mp (h value rfl)
  obtain ⟨draw', hvalue'⟩ := (decrypt_eq_some_iff hideal).mp (h' value rfl)
  obtain ⟨hnonce, hsealed⟩ := List.append_inj (List.cons.inj (hvalue.symm.trans hvalue')).2
    (by rw [length_nonceOfDraw, length_nonceOfDraw])
  by_contra hne
  have hnone : GCM.gcmOpen key (nonceOfDraw draw') (GCM.gcmSeal key' (nonceOfDraw draw')
      masterKeyCheckPlaintext masterKeyCheckAAD) masterKeyCheckAAD = none :=
    hideal.gcmOpen_gcmSeal_of_ne fun hsame ↦ hne (Prod.mk.inj hsame).1
  rw [← hsealed, hnonce, GCM.gcmOpen_gcmSeal] at hnone
  cases hnone

/-- The defaults make a configured file. -/
theorem HoldsDefaults.configured {check : Option (List UInt8)} {disk : Disk}
    (h : HoldsDefaults key check disk) : Configured key disk := by
  obtain ⟨value, -, hfits, rfl⟩ := h
  exact ⟨value, freshTables, hfits, fun _ ↦ (intact_iff_sound.mp intact_freshTables).1, rfl⟩

/-- The rows of a configured file. -/
def rowsOf (value : List UInt8) (tables : Tables) : Rows :=
  ({ masterKeyCheck := some value, initialized := some "1" } : Rows).withTables tables

omit [GCM String] [NetURL] in
/-- A configured file is one to which all migrations are applied. -/
theorem configured_eq_migrated (value : List UInt8) (tables : Tables) :
    configured value tables = migrated (rowsOf value tables) 3 := by
  unfold migrated withTelegram rowsOf
  rw [if_neg (by decide), if_pos (by decide), if_neg fun h ↦ by cases h.2]
  rfl

/-- A start leaves a configured file as it is. It opens the database only with the key of the check;
without failures from outside it does so if the configuration can be loaded. -/
theorem starts_complete {value : List UInt8} {tables : Tables} (huses : start.Uses key) :
    start.program.cwp faulty (· = configured value tables)
      (fun result _ tx ↦ tx = none ∧
        (∀ store, result = .ok store → store = start.store key ∧ Fits key (some value)) ∧
        (¬ faulty →
          (Fits key (some value) →
            result = ((start.store key).snapshot tables).map fun _ ↦ start.store key) ∧
          (¬ Fits key (some value) → result = .error wrongMasterKey)))
      (configured value tables) none := by
  have htables : (withTelegram (rowsOf value tables)).tables = .ok tables := by
    rw [withTelegram, if_neg fun h ↦ by cases h.2]
    rfl
  have hspec := starts_configured faulty huses ⟨by decide, le_rfl⟩ ⟨"1", rfl, .inl rfl⟩ htables
    (configured_eq_migrated _ _)
  have hcompletes : Completes key (rowsOf value tables) 3 = (· = configured value tables) := by
    funext disk
    refine propext ⟨?_, fun hdisk ↦ .inl ⟨3, le_rfl, le_rfl, ?_⟩⟩
    · rintro (⟨reached, hle, hge, rfl⟩ | ⟨hnone, -⟩)
      · rw [le_antisymm hle hge, configured_eq_migrated]
      · cases hnone
    · exact hdisk.trans (configured_eq_migrated _ _)
  have hcomplete : ∀ {disk : Disk}, Complete key (rowsOf value tables) disk →
      disk = configured value tables ∧ Fits key (some value) := by
    rintro disk ⟨old, hold, hfits, rfl⟩
    obtain rfl := hold value rfl
    exact ⟨(configured_eq_migrated _ _).symm, hfits⟩
  rw [hcompletes] at hspec
  refine Prog.cwp_mono ?_ hspec
  rintro result disk' tx ⟨htx, hok, hfine⟩
  refine ⟨htx, fun store hstore ↦ ?_, fun hnot ↦ ⟨fun hfits ↦ ?_, fun hwrong ↦ ?_⟩⟩
  · obtain ⟨rfl, hdisk⟩ := hok store hstore
    exact ⟨rfl, (hcomplete hdisk).2⟩
  · exact ((hfine hnot).1 hfits).2
  · exact ((hfine hnot).2 hwrong).1

variable [Argon2] [Net]

/-- What becomes of a file: starts are cut off anywhere, or open the database for calls that go on
until the program is killed. -/
inductive History {ι : Type} (starts : ι → Start) (initial : Disk) : Disk → Prop
  | refl : History starts initial initial
  | cutOff {disk : Disk} (choice : ι) (process : Process Disk SQLError (Except StoreError Store))
      (hbefore : History starts initial disk)
      (hrun : Steps (Process.step .txDone) (Process.Allowed True)
        ⟨(starts choice).program, disk, none⟩ process) :
      History starts initial process.committed
  | served {disk disk' : Disk} (choice : ι) (store : Store) (tx : Option (Tx Disk))
      (tables : Tables) (calls : Calls) (hbefore : History starts initial disk)
      (hrun : Steps (Process.step .txDone) (Process.Allowed True)
        ⟨(starts choice).program, disk, none⟩ ⟨.ret (.ok store), disk', tx⟩)
      (htables : disk'.tables = .ok tables)
      (hcalls : Steps (Database.step .txDone fun op ↦ (store.program op).run)
        (Database.Permitted fun _ ↦ True) { committed := tables } calls) :
      History starts initial (disk'.withTables calls.committed)

/-- The calls of a store keep its tables sound. -/
theorem sound_of_calls {store : Store} {tables : Tables} {calls : Calls}
    (h : store.Sound tables)
    (hcalls : Steps (Database.step .txDone fun op ↦ (store.program op).run)
      (Database.Permitted fun _ ↦ True) { committed := tables } calls) :
    store.Sound calls.committed := by
  have hcompatible : Database.Compatible store.terms fun _ tables ↦ store.Sound tables := by
    refine ⟨fun _ ↦ ⟨fun _ ↦ trivial⟩, fun _ ↦ ⟨fun _ _ _ _ _ ↦ trivial⟩, fun _ _ _ _ _ ↦ trivial,
      fun _ _ _ _ _ ↦ trivial, ?_, ?_⟩
    · rintro ops op tables new hsound ⟨write, created, rfl, hcommits⟩
      exact hsound.commits hcommits
    · rintro ops op tables _ hsound ⟨revision, rfl⟩
      exact ⟨hsound.openILink, hsound.telegram, hsound.intervals, hsound.overrides,
        hsound.activityLimit, hsound.named, hsound.opens, hsound.valid, hsound.ids⟩
  exact (Database.sound_of_steps hcompatible wp_program (fun _ ↦ rfl) h hcalls).history

omit [Argon2] [Net] in
/-- Prompt files have no part in what is stored. -/
theorem sound_promptLines {promptLines promptLines' : String → Option (List String)}
    {tables : Tables} (h : (⟨key, promptLines⟩ : Store).Sound tables) :
    (⟨key, promptLines'⟩ : Store).Sound tables :=
  ⟨h.openILink, h.telegram, h.intervals, h.overrides, h.activityLimit, h.named, h.opens, h.valid,
    h.ids⟩

/-- The file is without a configuration, or it is configured with the key of one of the starts. -/
def Known {ι : Type} (starts : ι → Start) (disk : Disk) : Prop :=
  Unconfigured none disk ∨ ∃ choice key, (starts choice).Uses key ∧ Configured key disk

section

variable {ι : Type} {starts : ι → Start} {choice : ι} {disk : Disk}

omit [Argon2] [Net] in
/-- A start that is cut off leaves a file that is known. -/
theorem Known.cutOff {process : Process Disk SQLError (Except StoreError Store)}
    (h : Known starts disk)
    (hrun : Steps (Process.step .txDone) (Process.Allowed True)
      ⟨(starts choice).program, disk, none⟩ process) : Known starts process.committed := by
  by_cases huses : ∃ key, (starts choice).Uses key
  · obtain ⟨key, huses⟩ := huses
    rcases h with hblank | ⟨other, key', huses', value, tables, hfits, hsound, rfl⟩
    · have hcases := (cwp_steps hrun (starts_unconfigured huses hblank) (.inl hblank)).1
      rcases hcases with hblank' | hholds
      · exact .inl hblank'
      · exact .inr ⟨choice, key, huses, hholds.configured⟩
    · have hsame := (cwp_steps hrun (starts_complete huses) rfl).1
      exact .inr ⟨other, key', huses', value, tables, hfits, hsound, hsame⟩
  · have hrejected : (starts choice).program.cwp True (· = disk) _ disk none :=
      starts_rejected huses
    have hsame := (cwp_steps hrun hrejected rfl).1
    rwa [hsame]

omit [Argon2] [Net] in
/-- A start that opens the database has the key of a configured file. -/
theorem Known.opened (hideal : GCM.Ideal String) (h : Known starts disk) {disk' : Disk}
    {store : Store} {tx : Option (Tx Disk)}
    (hrun : Steps (Process.step .txDone) (Process.Allowed True)
      ⟨(starts choice).program, disk, none⟩ ⟨.ret (.ok store), disk', tx⟩) :
    ∃ key, (starts choice).Uses key ∧ store = (starts choice).store key ∧ Configured key disk' := by
  by_cases huses : ∃ key, (starts choice).Uses key
  · obtain ⟨key, huses⟩ := huses
    refine ⟨key, huses, ?_⟩
    rcases h with hblank | ⟨other, key', huses', value, tables, hfits, hsound, rfl⟩
    · obtain ⟨-, -, hok, -⟩ := cwp_steps hrun (starts_unconfigured huses hblank) (.inl hblank)
      obtain ⟨hstore, hholds⟩ := hok store rfl
      exact ⟨hstore, hholds.configured⟩
    · obtain ⟨hsame, -, hok, -⟩ := cwp_steps hrun (starts_complete huses) rfl
      obtain ⟨hstore, hfits'⟩ := hok store rfl
      obtain rfl := hfits.unique hideal hfits'
      exact ⟨hstore, value, tables, hfits, hsound, hsame⟩
  · have hrejected : (starts choice).program.cwp True (· = disk) _ disk none :=
      starts_rejected huses
    obtain ⟨-, -, -, error, herror⟩ := cwp_steps hrun hrejected rfl
    cases herror

/-- From an empty file on, the file is known. -/
theorem History.known (hideal : GCM.Ideal String) (h : History starts {} disk) :
    Known starts disk := by
  induction h with
  | refl => exact .inl (.inl ⟨rfl, rfl⟩)
  | cutOff choice process _ hrun ih => exact ih.cutOff hrun
  | served choice store tx tables calls _ hrun htables hcalls ih =>
    obtain ⟨key, huses, rfl, value, base, hfits, hsound, rfl⟩ := ih.opened hideal hrun
    obtain rfl : base = tables := Except.ok.inj htables
    refine .inr ⟨choice, key, huses, value, calls.committed, hfits, fun promptLines ↦ ?_, rfl⟩
    exact sound_promptLines (sound_of_calls (hsound _) hcalls)

omit [Argon2] [Net] in
/-- Sound tables can be loaded when the names of their targets are distinct. -/
theorem snapshot_of_sound {store : Store} {tables : Tables} (h : store.Sound tables) :
    (∃ snapshot, store.snapshot tables = .ok snapshot) ↔
      (tables.targets.map fun row ↦ Strings.toLower row.name).Nodup := by
  constructor
  · rintro ⟨snapshot, hsnapshot⟩
    obtain ⟨config, hholds, -⟩ := snapshot_eq_ok.mp hsnapshot
    exact (intact_iff.mpr ⟨⟨config, hholds⟩, h.ids⟩).names
  · intro hnames
    obtain ⟨config, hholds⟩ := (intact_iff.mp (intact_iff_sound.mpr ⟨h, hnames⟩)).1
    exact ⟨_, snapshot_eq_ok.mpr ⟨config, hholds, rfl⟩⟩

/-- From an empty file on, whenever and however often the program was killed before, in the middle
of a start or of any calls, and whichever master keys the starts had: the next start that is left
alone comes to its end. If nothing is configured yet it stores the defaults under its key. Otherwise
it changes nothing, and it opens the database with the key that has configured it and with no other,
unless `Load` takes two names of targets for the same. -/
theorem start_after_history (hideal : GCM.Ideal String) (h : History starts {} disk) {next : Start}
    (huses : next.Uses key) :
    Known starts disk ∧ (∃ result disk', next.Ends disk result disk') ∧
      ∀ result disk', next.Ends disk result disk' →
        (Unconfigured none disk → result = .ok (next.store key) ∧ Configured key disk' ∧
          disk'.tables = .ok freshTables) ∧
        ∀ key', Configured key' disk → disk' = disk ∧
          (key ≠ key' → result = .error wrongMasterKey) ∧
          (key = key' → (result = .ok (next.store key) ↔ ∀ tables, disk.tables = .ok tables →
            (tables.targets.map fun row ↦ Strings.toLower row.name).Nodup)) := by
  have hknown := h.known hideal
  refine ⟨hknown, ?_, ?_⟩
  · have hcwp : ∃ crash post, next.program.cwp False crash post disk none := by
      rcases hknown with hblank | ⟨other, key', -, value, tables, -, -, rfl⟩
      · exact ⟨_, _, starts_unconfigured huses hblank⟩
      · exact ⟨_, _, starts_complete huses⟩
    obtain ⟨crash, post, hcwp⟩ := hcwp
    obtain ⟨result, disk', tx, hrun⟩ := exists_finish .txDone hcwp
    exact ⟨result, disk', tx, hrun⟩
  · rintro result disk' ⟨tx, hrun⟩
    refine ⟨fun hblank ↦ ?_, ?_⟩
    · obtain ⟨-, -, -, hfine⟩ := cwp_steps hrun (starts_unconfigured huses hblank) (.inl hblank)
      obtain ⟨hresult, hholds⟩ := (hfine id).1 fun old hold ↦ by cases hold
      refine ⟨hresult, hholds.configured, ?_⟩
      obtain ⟨value, -, -, rfl⟩ := hholds
      rfl
    · rintro key' ⟨value, tables, hfits, hsound, rfl⟩
      obtain ⟨hsame, -, -, hfine⟩ := cwp_steps hrun (starts_complete huses) rfl
      obtain ⟨hright, hwrong⟩ := hfine id
      refine ⟨hsame, fun hne ↦ hwrong fun hfits' ↦ hne (hfits'.unique hideal hfits), ?_⟩
      rintro rfl
      rw [hright hfits]
      have hsnapshot := snapshot_of_sound (hsound next.promptLines)
      constructor
      · intro hok tables' htables'
        obtain rfl : tables = tables' := Except.ok.inj htables'
        refine hsnapshot.mp ?_
        change ((next.store key).snapshot tables).map _ = _ at hok
        change ∃ snapshot, (next.store key).snapshot tables = _
        cases hload : (next.store key).snapshot tables with
        | error error =>
          rw [hload] at hok
          cases hok
        | ok snapshot => exact ⟨snapshot, rfl⟩
      · intro hnames
        obtain ⟨snapshot, hload⟩ := hsnapshot.mpr (hnames tables rfl)
        change (next.store key).snapshot tables = _ at hload
        rw [hload]
        rfl

end

end

/-- A cipher that puts a label before the bytes of a text. -/
@[reducible]
def GCM.labelledText : GCM String where
  gcmSeal key nonce plain aad := label key nonce aad ++ plain.toList.flatMap bytesOfChar
  gcmOpen key nonce sealed aad :=
    let plain := String.ofList (charsOfBytes (sealed.drop (label key nonce aad).length))
    if sealed = label key nonce aad ++ plain.toList.flatMap bytesOfChar then some plain else none
  gcmOpen_gcmSeal key nonce plain aad := by
    simp [charsOfBytes_flatMap]
  overhead_le_length key nonce plain aad := by
    simp only [label, List.length_append, List.length_replicate]
    omega

/-- The labelled cipher for texts is ideal. -/
theorem GCM.ideal_labelledText : @GCM.Ideal String GCM.labelledText := by
  let _ := GCM.labelledText
  refine ⟨fun hne ↦ if_neg fun heq ↦ hne (label_append_inj heq).symm, ?_⟩
  intro key nonce sealed aad plain hopen
  refine ⟨key, nonce, plain, aad, ?_⟩
  by_cases hsealed : sealed = label key nonce aad ++ (String.ofList (charsOfBytes
      (sealed.drop (label key nonce aad).length))).toList.flatMap bytesOfChar
  · have hplain : some (String.ofList (charsOfBytes (sealed.drop (label key nonce aad).length))) =
        some plain := (if_pos hsealed).symm.trans hopen
    rw [Option.some.inj hplain] at hsealed
    exact hsealed
  · exact absurd ((if_neg hsealed).symm.trans hopen) (by simp)

/-- A start with a key of zeros and no prompt file. -/
def sampleStart : Start where
  promptLines := fun _ ↦ none
  options :=
    { path := "queue.db"
      masterKeyBase64 := String.ofList (List.replicate 43 'A')
      protectedDirectory := true }
  onFile := by decide

/-- The options of the sample start are accepted. -/
theorem uses_sampleStart : sampleStart.Uses (List.replicate 32 0) :=
  ⟨by decide +kernel, by decide⟩

/-- After a start that was cut off between two migrations, the next one opens the database. -/
theorem start_after_history_sample :
    letI := GCM.labelledText
    letI := Config.hostOnly
    ∃ result disk', sampleStart.Ends (migrated {} 2) result disk' ∧
      result = .ok sampleStore ∧ disk'.tables = .ok freshTables := by
  let _ := GCM.labelledText
  let _ := Config.hostOnly
  have heval : (runLabels (Process.step .txDone) (fun _ _ ↦ true)
      (⟨sampleStart.program, {}, none⟩ : Process Disk SQLError (Except StoreError Store))
      (List.replicate 19 (.fine 0))).any (·.committed = migrated {} 2) = true := by
    decide +kernel
  obtain ⟨process, hrun, htest⟩ := Steps.exists_of_runLabels (fun process answer _ ↦
    process.allowed_true answer) heval
  have hhistory : @History _ _ Argon2.transparent Net.portOnly _ (fun _ : Unit ↦ sampleStart) {}
      process.committed :=
    @History.cutOff _ _ Argon2.transparent Net.portOnly _ _ _ _ () process
      (@History.refl _ _ Argon2.transparent Net.portOnly _ _ _) hrun
  rw [of_decide_eq_true htest] at hhistory
  obtain ⟨-, ⟨result, disk', hends⟩, hall⟩ := @start_after_history _ _ _ Argon2.transparent
    Net.portOnly _ _ _ GCM.ideal_labelledText hhistory _ uses_sampleStart
  obtain ⟨hresult, -, htables⟩ := (hall result disk' hends).1
    (.inr ⟨2, by decide, fun _ ↦ rfl, rfl⟩)
  exact ⟨result, disk', hends, hresult, htables⟩

/-! ### An older database -/

section

variable [GCM String] [NetURL] {ι : Type} {starts : ι → Start} {choice : ι} {disk : Disk}

omit [NetURL] in
/-- What starts may make of a database with a configuration: the missing migrations are applied in
their order, and after them a missing check of the master key is added. -/
def Kept (starts : ι → Start) (rows : Rows) (version : ℕ) (check : Option (List UInt8))
    (disk : Disk) : Prop :=
  ∃ reached ≤ 3, version ≤ reached ∧ disk = migrated { rows with masterKeyCheck := check } reached ∧
    (check = rows.masterKeyCheck ∨ rows.masterKeyCheck = none ∧ reached = 3 ∧
      ∃ choice key nonce, (starts choice).Uses key ∧ check = some (checkOf key nonce))

section

variable {rows : Rows} {version : ℕ} {tables : Tables} {check : Option (List UInt8)}

omit [GCM String] [NetURL] in
/-- The check has no part in the tables. -/
theorem tables_withTelegram_check (htables : (withTelegram rows).tables = .ok tables)
    (check : Option (List UInt8)) :
    (withTelegram { rows with masterKeyCheck := check }).tables = .ok tables := by
  rw [withTelegram_check]
  exact htables

omit [GCM String] [NetURL] in
/-- The tables of a database to which all migrations are applied. -/
theorem tables_migrated (htables : (withTelegram rows).tables = .ok tables)
    (check : Option (List UInt8)) :
    (migrated { rows with masterKeyCheck := check } 3).tables = .ok tables :=
  tables_withTelegram_check htables check

/-- A start that is cut off keeps a database with a configuration. -/
theorem Kept.cutOff (hversion : 1 ≤ version) (hinit : Initialized rows)
    (htables : (withTelegram rows).tables = .ok tables)
    (h : Kept starts rows version check disk) :
    ∃ crash post, crash disk ∧
      (∀ new, crash new → ∃ check, Kept starts rows version check new) ∧
      (starts choice).program.cwp True crash post disk none := by
  by_cases huses : ∃ key, (starts choice).Uses key
  · obtain ⟨key, huses⟩ := huses
    obtain ⟨reached, hle, hge, rfl, hcheck⟩ := h
    have hinit' : Initialized { rows with masterKeyCheck := check } := hinit
    refine ⟨_, _, .inl ⟨reached, hle, le_rfl, rfl⟩, ?_, starts_configured True huses
      ⟨by omega, hle⟩ hinit' (tables_withTelegram_check htables check) rfl⟩
    rintro new (⟨reached', hle', hge', rfl⟩ | ⟨hnone, nonce, rfl⟩)
    · refine ⟨check, reached', hle', by omega, rfl, hcheck.imp_right ?_⟩
      rintro ⟨hold, rfl, hchoice⟩
      exact ⟨hold, by omega, hchoice⟩
    · obtain rfl : check = none := hnone
      have hold : rows.masterKeyCheck = none := by
        rcases hcheck with hold | ⟨hold, -⟩
        · exact hold.symm
        · exact hold
      exact ⟨_, 3, le_rfl, by omega, rfl, .inr ⟨hold, rfl, choice, key, nonce, huses, rfl⟩⟩
  · exact ⟨(· = disk), _, rfl, fun new hnew ↦ ⟨check, hnew ▸ h⟩, starts_rejected huses⟩

/-- Starts of the program, whichever master keys they have and wherever they are cut off, do nothing
to a database with a configuration, of whatever version, but apply the missing migrations in their
order, after which a missing check of the master key is added. The next start that is left alone
finds the tables as they were, with a disabled Telegram section if there was none, and opens the
database if its key fits and these tables can be loaded. -/
theorem older_database (hversion : 1 ≤ version ∧ version ≤ 3) (hinit : Initialized rows)
    (htables : (withTelegram rows).tables = .ok tables)
    (h : Lives (fun choice ↦ (starts choice).program) .txDone (migrated rows version) disk) :
    ∃ check, Kept starts rows version check disk ∧
      ∀ (next : Start) (key : List UInt8), next.Uses key →
        (∃ result disk', next.Ends disk result disk') ∧
        ∀ result disk', next.Ends disk result disk' → disk'.tables = .ok tables ∧
          (¬ Fits key check → result = .error wrongMasterKey) ∧
          (Fits key check →
            result = ((next.store key).snapshot tables).map fun _ ↦ next.store key) := by
  have hkept : ∃ check, Kept starts rows version check disk := by
    refine h.invariant (P := fun disk ↦ ∃ check, Kept starts rows version check disk) ?_
      ⟨_, version, hversion.2, le_rfl, rfl, .inl rfl⟩
    rintro choice committed ⟨check, hkept⟩
    exact hkept.cutOff hversion.1 hinit htables
  obtain ⟨check, hkept⟩ := hkept
  refine ⟨check, hkept, fun next key huses ↦ ?_⟩
  obtain ⟨reached, hle, hge, rfl, -⟩ := hkept
  have hinit' : Initialized { rows with masterKeyCheck := check } := hinit
  have hspec := starts_configured False huses ⟨by omega, hle⟩ hinit'
    (tables_withTelegram_check htables check) rfl
  constructor
  · obtain ⟨result, disk', tx, hrun⟩ := exists_finish .txDone hspec
    exact ⟨result, disk', tx, hrun⟩
  · rintro result disk' ⟨tx, hrun⟩
    obtain ⟨-, -, -, hfine⟩ := cwp_steps hrun hspec (.inl ⟨reached, hle, le_rfl, rfl⟩)
    obtain ⟨hright, hwrong⟩ := hfine id
    refine ⟨?_, fun hfits ↦ (hwrong hfits).1, fun hfits ↦ (hright hfits).2⟩
    by_cases hfits : Fits key check
    · obtain ⟨value, -, -, rfl⟩ := (hright hfits).1
      exact tables_migrated htables (some value)
    · have hsame : disk' = migrated { rows with masterKeyCheck := check } 3 := (hwrong hfits).2
      rw [hsame]
      exact tables_migrated htables check

end

end

/-- The rows of a database of the second version, without a check of the master key. -/
def olderRows : Rows :=
  { ({ initialized := some "true" } : Rows).withTables freshTables with telegram := none }

/-- A start of a database of the second version that was cut off, and the next one. -/
theorem older_database_sample :
    letI := GCM.labelledText
    letI := Config.hostOnly
    ∃ disk, Lives (fun _ : Unit ↦ sampleStart.program) .txDone (migrated olderRows 2) disk ∧
      ∃ result disk', sampleStart.Ends disk result disk' ∧
        disk'.tables = .ok { freshTables with telegram := migratedTelegram } := by
  let _ := GCM.labelledText
  let _ := Config.hostOnly
  have heval : (runLabels (Process.step .txDone) (fun _ _ ↦ true)
      (⟨sampleStart.program, migrated olderRows 2, none⟩ :
        Process Disk SQLError (Except StoreError Store))
      (List.replicate 13 (.fine 0))).any (·.committed = migrated olderRows 2) = true := by
    decide +kernel
  obtain ⟨process, hrun, htest⟩ := Steps.exists_of_runLabels (fun process answer _ ↦
    process.allowed_true answer) heval
  have hlives : Lives (fun _ : Unit ↦ sampleStart.program) .txDone (migrated olderRows 2)
      process.committed := .restart () process .refl hrun
  have htables : (withTelegram olderRows).tables =
      .ok { freshTables with telegram := migratedTelegram } := rfl
  obtain ⟨check, -, hnext⟩ :=
    older_database ⟨by decide, by decide⟩ ⟨"true", rfl, by decide⟩ htables hlives
  obtain ⟨⟨result, disk', hends⟩, hall⟩ := hnext sampleStart _ uses_sampleStart
  exact ⟨_, hlives, result, disk', hends, (hall result disk' hends).1⟩

end CodexQueueBot.Storage.Opening
