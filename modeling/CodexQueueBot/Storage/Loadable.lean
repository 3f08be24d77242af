import CodexQueueBot.Storage.Contracts

/-!
# Tables that load

Tables load when their secrets open, every row of `targets` is a valid target, the names of the
targets are distinct under `strings.ToLower`, and every section passes its checks: `Intact` lists
this part by part. A committed operation keeps intact tables intact, with one exception: the
database keeps names apart by `COLLATE NOCASE` only, so a name that `strings.ToLower` identifies
with another one gets in. `MissesClash` says that this is about to happen.
-/

set_option autoImplicit false
set_option relaxedAutoImplicit false

namespace CodexQueueBot.Storage

open Go

/-- A sequence returns a value when both parts do. -/
theorem bind_eq_ok {ε α β : Type} {first : Except ε α} {next : α → Except ε β} {value : β} :
    (first >>= next) = .ok value ↔ ∃ result, first = .ok result ∧ next result = .ok value := by
  cases first with
  | error error => simp [bind, Except.bind]
  | ok result => simp [bind, Except.bind]

/-- Another error is still an error. -/
theorem mapError_eq_ok {ε ε' α : Type} {result : Except ε α} {translate : ε → ε'} {value : α} :
    result.mapError translate = .ok value ↔ result = .ok value := by
  cases result <;> simp [Except.mapError]

section

variable [GCM String] (store : Store)

/-! ### Rows of targets -/

/-- The key of a row is encrypted for its identifier. -/
def Store.Opens (row : TargetRow) : Prop :=
  (decrypt store.key row.apiKey (targetAPIKeyAAD row.id)).isSome

/-- The target of a row whose key opens. -/
def Store.targetOf (row : TargetRow) : Target where
  id := row.id
  sortOrder := row.sortOrder
  name := row.name
  apiBaseURL := row.apiBaseURL
  apiKey := (decrypt store.key row.apiKey (targetAPIKeyAAD row.id)).getD ""
  apiKeyEnv := ""
  model := row.model
  wireAPI := row.wireAPI
  configOverrides := row.configOverrides

variable {store}

/-- A row whose key opens is decoded. -/
theorem decodeTarget_eq_ok {row : TargetRow} {target : Target} :
    store.decodeTarget row = .ok target ↔ store.Opens row ∧ target = store.targetOf row := by
  unfold Store.decodeTarget Store.Opens Store.targetOf
  cases decrypt store.key row.apiKey (targetAPIKeyAAD row.id) with
  | none => simp
  | some apiKey => simp [eq_comm]

/-- Rows are decoded one by one. -/
theorem mapM_decodeTarget {rows : List TargetRow} {targets : List Target} :
    rows.mapM store.decodeTarget = .ok targets ↔
      (∀ row ∈ rows, store.Opens row) ∧ targets = rows.map store.targetOf := by
  induction rows generalizing targets with
  | nil => simp [pure, Except.pure, eq_comm]
  | cons row rows ih =>
    rw [List.mapM_cons]
    cases hrow : store.decodeTarget row with
    | error error =>
      have hclosed : ¬ store.Opens row := fun hopens ↦ by
        rw [decodeTarget_eq_ok.mpr ⟨hopens, rfl⟩] at hrow
        cases hrow
      simp [bind, Except.bind, hclosed]
    | ok target =>
      obtain ⟨hopens, rfl⟩ := decodeTarget_eq_ok.mp hrow
      cases hrows : rows.mapM store.decodeTarget with
      | error error =>
        have hclosed : ¬ ∀ row ∈ rows, store.Opens row := fun hall ↦ by
          rw [ih.mpr ⟨hall, rfl⟩] at hrows
          cases hrows
        simp [bind, Except.bind, hopens, hclosed]
      | ok decoded =>
        obtain ⟨hall, rfl⟩ := ih.mp hrows
        have hrows : ∀ stored ∈ row :: rows, store.Opens stored :=
          List.forall_mem_cons.mpr ⟨hopens, hall⟩
        simp only [bind, Except.bind, pure, Except.pure, Except.ok.injEq, iff_true_intro hrows,
          true_and, List.map_cons]
        exact eq_comm

variable [NetURL] (store)

/-! ### Snapshots -/

/-- Tables that hold a configuration which is accepted. -/
structure Store.Holds (tables : Tables) (config : Config) : Prop where
  openILink : store.decodeOpenILink tables.openILink = .ok config.openILink
  telegram : store.decodeTelegram tables.telegram = .ok config.telegram
  opens : ∀ row ∈ tables.targets, store.Opens row
  assembled : config = store.assemble tables config.openILink config.telegram
    (tables.orderedTargets.map store.targetOf)
  named : tables.suggestedUsername ≠ ""
  accepted : config.Accepted

variable {store} {tables : Tables}

omit [GCM String] [NetURL] in
/-- The order of the rows does not change which there are. -/
theorem perm_orderedTargets : tables.orderedTargets.Perm tables.targets :=
  List.perm_insertionSort _ _

/-- `loadFrom` returns the snapshot of the configuration that the tables hold. -/
theorem snapshot_eq_ok {snapshot : Snapshot} : store.snapshot tables = .ok snapshot ↔
    ∃ config, store.Holds tables config ∧ snapshot = tables.snapshotOf config := by
  have hopens : (∀ row ∈ tables.orderedTargets, store.Opens row) ↔
      ∀ row ∈ tables.targets, store.Opens row :=
    forall_congr' fun row ↦ imp_congr_left perm_orderedTargets.mem_iff
  unfold Store.snapshot
  simp only [bind_eq_ok, mapM_decodeTarget, hopens]
  constructor
  · rintro ⟨openILink, hopen, telegram, htelegram, targets, ⟨hrows, rfl⟩, hrest⟩
    by_cases hmissing : tables.suggestedUsername = ""
    · rw [if_pos hmissing] at hrest
      cases hrest
    · rw [if_neg hmissing] at hrest
      obtain ⟨_, hvalid, hsnapshot⟩ := bind_eq_ok.mp hrest
      rw [mapError_eq_ok, mapError_eq_ok, Config.validateAllowEmptyTargets_eq_ok] at hvalid
      exact ⟨_, ⟨hopen, htelegram, hrows, rfl, hmissing, hvalid⟩, (Except.ok.inj hsnapshot).symm⟩
  · rintro ⟨config, hholds, rfl⟩
    refine ⟨_, hholds.openILink, _, hholds.telegram, _, ⟨hholds.opens, rfl⟩, ?_⟩
    rw [if_neg hholds.named, ← hholds.assembled,
      Config.validateAllowEmptyTargets_eq_ok.mpr hholds.accepted]
    rfl

variable (store) in
/-- Tables that load, part by part; the identifiers of targets are a key. -/
structure Store.Intact (tables : Tables) : Prop where
  openILink : ∃ config, store.decodeOpenILink tables.openILink = .ok config ∧
    Config.validateOpenILinkSection config = .ok ()
  telegram : ∃ config, store.decodeTelegram tables.telegram = .ok config ∧
    Config.validateTelegramSection config = .ok ()
  intervals : Config.validateIntervals (fromPersistedCodex tables.codex.data) = .ok ()
  overrides : Config.Overrides tables.codex.data.configOverrides
  activityLimit : 0 ≤ tables.web.data.activityLimit
  named : tables.suggestedUsername ≠ ""
  opens : ∀ row ∈ tables.targets, store.Opens row
  valid : ∀ row ∈ tables.targets, Config.Valid (store.targetOf row)
  names : (tables.targets.map fun row ↦ Strings.toLower row.name).Nodup
  ids : (tables.targets.map (·.id)).Nodup

variable (store) in
/-- Tables that are intact but for the names of their targets. -/
structure Store.Sound (tables : Tables) : Prop where
  openILink : ∃ config, store.decodeOpenILink tables.openILink = .ok config ∧
    Config.validateOpenILinkSection config = .ok ()
  telegram : ∃ config, store.decodeTelegram tables.telegram = .ok config ∧
    Config.validateTelegramSection config = .ok ()
  intervals : Config.validateIntervals (fromPersistedCodex tables.codex.data) = .ok ()
  overrides : Config.Overrides tables.codex.data.configOverrides
  activityLimit : 0 ≤ tables.web.data.activityLimit
  named : tables.suggestedUsername ≠ ""
  opens : ∀ row ∈ tables.targets, store.Opens row
  valid : ∀ row ∈ tables.targets, Config.Valid (store.targetOf row)
  ids : (tables.targets.map (·.id)).Nodup

/-- Sound tables are intact when the names of their targets are distinct. -/
theorem intact_iff_sound : store.Intact tables ↔ store.Sound tables ∧
    (tables.targets.map fun row ↦ Strings.toLower row.name).Nodup := by
  constructor
  · intro h
    exact ⟨⟨h.openILink, h.telegram, h.intervals, h.overrides, h.activityLimit, h.named, h.opens,
      h.valid, h.ids⟩, h.names⟩
  · rintro ⟨h, hnames⟩
    exact ⟨h.openILink, h.telegram, h.intervals, h.overrides, h.activityLimit, h.named, h.opens,
      h.valid, hnames, h.ids⟩

omit [GCM String] [NetURL] in
/-- The prompt file supplies prompts at most. -/
theorem decodeCodex_eq (data : PersistedCodex) :
    ∃ prompts, store.decodeCodex data = { fromPersistedCodex data with prompts } := by
  unfold Store.decodeCodex
  dsimp only
  cases data.prompts with
  | some prompts => exact ⟨_, rfl⟩
  | none =>
    dsimp only
    cases store.readPromptFile (fromPersistedCodex data).promptsFile with
    | some prompts => exact ⟨prompts, rfl⟩
    | none => exact ⟨_, rfl⟩

omit [GCM String] [NetURL] in
/-- The prompts have no part in the checks of the codex section. -/
theorem validateIntervals_decodeCodex {data : PersistedCodex} {targets : List Target} :
    Config.validateIntervals { store.decodeCodex data with targets } =
      Config.validateIntervals (fromPersistedCodex data) := by
  obtain ⟨prompts, hdecode⟩ := decodeCodex_eq data
  rw [hdecode]
  rfl

omit [GCM String] [NetURL] in
/-- The prompts have no part in the overrides of the codex section. -/
theorem configOverrides_decodeCodex {data : PersistedCodex} :
    (store.decodeCodex data).configOverrides = data.configOverrides := by
  obtain ⟨prompts, hdecode⟩ := decodeCodex_eq data
  rw [hdecode]
  rfl

/-- The targets are accepted in any order. -/
theorem validTargets_orderedTargets :
    Config.ValidTargets (tables.orderedTargets.map store.targetOf) ↔
      (∀ row ∈ tables.targets, Config.Valid (store.targetOf row)) ∧
        (tables.targets.map fun row ↦ Strings.toLower row.name).Nodup := by
  have hnames : ((tables.orderedTargets.map store.targetOf).map
      fun target ↦ Strings.toLower target.name).Perm
        (tables.targets.map fun row ↦ Strings.toLower row.name) := by
    rw [List.map_map]
    exact perm_orderedTargets.map _
  constructor
  · intro h
    refine ⟨fun row hmem ↦ ?_, hnames.nodup_iff.mp h.distinct⟩
    exact h.valid _ (List.mem_map_of_mem (perm_orderedTargets.mem_iff.mpr hmem))
  · rintro ⟨hvalid, hdistinct⟩
    refine ⟨fun target hmem ↦ ?_, hnames.nodup_iff.mpr hdistinct⟩
    obtain ⟨row, hrow, rfl⟩ := List.mem_map.mp hmem
    exact hvalid row (perm_orderedTargets.mem_iff.mp hrow)

/-- Intact tables are those that hold an accepted configuration, with distinct identifiers. -/
theorem intact_iff : store.Intact tables ↔
    (∃ config, store.Holds tables config) ∧ (tables.targets.map (·.id)).Nodup := by
  constructor
  · intro h
    obtain ⟨openILink, hopen, hopenOK⟩ := h.openILink
    obtain ⟨telegram, htelegram, htelegramOK⟩ := h.telegram
    refine ⟨⟨store.assemble tables openILink telegram (tables.orderedTargets.map store.targetOf),
      hopen, htelegram, h.opens, rfl, h.named, ?_⟩, h.ids⟩
    refine ⟨hopenOK, htelegramOK, ?_, h.activityLimit, ?_,
      validTargets_orderedTargets.mpr ⟨h.valid, h.names⟩⟩
    · exact validateIntervals_decodeCodex.trans h.intervals
    · change Config.Overrides (store.decodeCodex tables.codex.data).configOverrides
      rw [configOverrides_decodeCodex]
      exact h.overrides
  · rintro ⟨⟨config, h⟩, hids⟩
    have haccepted := h.accepted
    rw [h.assembled] at haccepted
    obtain ⟨hvalid, hnames⟩ := validTargets_orderedTargets.mp haccepted.targets
    refine ⟨⟨_, h.openILink, h.accepted.openILink⟩, ⟨_, h.telegram, h.accepted.telegram⟩,
      validateIntervals_decodeCodex.symm.trans haccepted.intervals, ?_, haccepted.activityLimit,
      h.named, h.opens, hvalid, hnames, hids⟩
    have hoverrides := haccepted.overrides
    change Config.Overrides (store.decodeCodex tables.codex.data).configOverrides at hoverrides
    rwa [configOverrides_decodeCodex] at hoverrides

/-! ### Sections after an update -/

omit [NetURL] in
/-- A stored token is read back. -/
theorem decodeToken_of_isSecret {token aad : String} {secret : List UInt8} {context : Message}
    (h : store.IsSecret token aad secret) : store.decodeToken secret aad context = .ok token := by
  unfold Store.decodeToken
  rcases h with ⟨rfl, rfl⟩ | ⟨-, nonce, rfl⟩
  · rfl
  · rw [if_neg (encrypt_ne_nil _ _ _ _), decrypt_encrypt]

omit [NetURL] in
/-- A stored OpenILink section is read back. -/
theorem decodeOpenILink_withSecret {row : Section PersistedOpenILink} {config : OpenILinkConfig}
    {secret : List UInt8} (henv : config.tokenEnv = "")
    (hsecret : store.IsSecret config.token "openilink:token" secret) :
    store.decodeOpenILink (row.withSecret (toPersistedOpenILink config) secret) =
      .ok { config with enabledSet := true } := by
  unfold Store.decodeOpenILink Section.withSecret
  rw [decodeToken_of_isSecret hsecret]
  cases config
  cases henv
  rfl

omit [NetURL] in
/-- A stored Telegram section is read back. -/
theorem decodeTelegram_withSecret {row : Section PersistedTelegram} {config : TelegramConfig}
    {secret : List UInt8} (henv : config.tokenEnv = "")
    (hsecret : store.IsSecret config.token "telegram:token" secret) :
    store.decodeTelegram (row.withSecret (toPersistedTelegram config) secret) =
      .ok { config with enabledSet := true } := by
  unfold Store.decodeTelegram Section.withSecret
  rw [decodeToken_of_isSecret hsecret]
  cases config
  cases henv
  rfl

/-! ### Rows after an update -/

omit [GCM String] [NetURL] in
/-- The key of the next row is larger than every key. -/
theorem lt_nextTargetID {row : TargetRow} (hmem : row ∈ tables.targets) :
    row.id < tables.nextTargetID := by
  have hle : ∀ (ids : List Int) (start : Int), start ≤ ids.foldl max start ∧
      ∀ id ∈ ids, id ≤ ids.foldl max start := by
    intro ids
    induction ids with
    | nil => simp
    | cons id ids ih =>
      intro start
      obtain ⟨hstart, hids⟩ := ih (max start id)
      refine ⟨by simp only [List.foldl_cons]; omega, fun other hother ↦ ?_⟩
      rcases List.mem_cons.mp hother with rfl | hother
      · simp only [List.foldl_cons]
        omega
      · exact hids other hother
  have hrow := (hle (tables.targets.map (·.id)) tables.sequence).2 row.id
    (List.mem_map_of_mem hmem)
  unfold Tables.nextTargetID
  omega

omit [GCM String] [NetURL] in
/-- A new row gets its key, and the other rows keep theirs. -/
theorem setTargetKey_insertTarget {target : Target} {id : Int} {new : Tables} {apiKey : List UInt8}
    (h : tables.insertTarget target = .ok (id, new)) :
    new.setTargetKey id apiKey = { tables with
      sequence := id, targets := tables.targets ++ [Tables.rowOf id 1 target apiKey] } := by
  obtain ⟨-, rfl, rfl⟩ := Tables.insertTarget_eq_ok.mp h
  have hkeep : (tables.targets.map fun row ↦
      if row.id = tables.nextTargetID then { row with apiKey } else row) = tables.targets := by
    conv_rhs => rw [← List.map_id tables.targets]
    refine List.map_congr_left fun row hmem ↦ ?_
    exact if_neg (Int.ne_of_lt (lt_nextTargetID hmem))
  unfold Tables.setTargetKey Tables.mapTarget
  simp only [List.map_append, hkeep, List.map_cons, List.map_nil]
  simp [Tables.rowOf]

variable {target : Target} {id revision : Int} {nonce : ℕ}

omit [NetURL] in
/-- The row of a target opens. -/
theorem opens_rowOf : store.Opens (Tables.rowOf id revision target
    (encrypt store.key nonce target.apiKey (targetAPIKeyAAD id))) := by
  simp [Store.Opens, Tables.rowOf]

omit [NetURL] in
/-- The row of a target is read back. -/
theorem targetOf_rowOf : store.targetOf (Tables.rowOf id revision target
    (encrypt store.key nonce target.apiKey (targetAPIKeyAAD id))) =
      { target with id, apiKeyEnv := "" } := by
  simp [Store.targetOf, Tables.rowOf]

/-- The row of a valid target is valid. -/
theorem valid_rowOf (h : Config.Valid target) : Config.Valid (store.targetOf (Tables.rowOf id
    revision target (encrypt store.key nonce target.apiKey (targetAPIKeyAAD id)))) := by
  rw [targetOf_rowOf]
  exact ⟨h.named, h.unreserved, h.plain, h.url, h.key, h.model, h.wireAPI, h.overrides⟩

omit [GCM String] [NetURL] in
/-- Names stay distinct when one row gets a name that no other row has. -/
theorem nodup_names_mapTarget {update : TargetRow → TargetRow} {name : String}
    (hids : (tables.targets.map (·.id)).Nodup)
    (hnames : (tables.targets.map fun row ↦ Strings.toLower row.name).Nodup)
    (hupdate : ∀ row, (update row).name = name)
    (hfresh : ∀ row ∈ tables.targets, row.id ≠ id →
      Strings.toLower row.name ≠ Strings.toLower name) :
    ((tables.mapTarget id update).targets.map fun row ↦ Strings.toLower row.name).Nodup := by
  unfold Tables.mapTarget
  rw [List.map_map]
  refine (List.Nodup.of_map _ hids).map_on ?_
  intro left hleft right hright heq
  have hinjective := List.inj_on_of_nodup_map hids
  simp only [Function.comp_apply] at heq
  by_cases hl : left.id = id <;> by_cases hr : right.id = id
  · exact hinjective hleft hright (hl.trans hr.symm)
  · rw [if_pos hl, if_neg hr, hupdate] at heq
    exact absurd heq.symm (hfresh right hright hr)
  · rw [if_neg hl, if_pos hr, hupdate] at heq
    exact absurd heq (hfresh left hleft hl)
  · rw [if_neg hl, if_neg hr] at heq
    exact List.inj_on_of_nodup_map hnames hleft hright heq

omit [GCM String] [NetURL] in
/-- Identifiers stay as they are when rows are updated. -/
theorem map_id_mapTarget {update : TargetRow → TargetRow}
    (hupdate : ∀ row, (update row).id = row.id) :
    (tables.mapTarget id update).targets.map (·.id) = tables.targets.map (·.id) := by
  unfold Tables.mapTarget
  rw [List.map_map]
  refine List.map_congr_left fun row _ ↦ ?_
  by_cases hrow : row.id = id
  · simp [hrow, hupdate]
  · simp [hrow]

/-! ### What commits keep -/

/-- A new target leaves the tables sound. -/
theorem Store.Sound.createTarget {sortOrder : Int} {new : Tables}
    (h : store.Sound tables)
    (hvalid : Config.Valid { target with sortOrder })
    (hinsert : tables.insertTarget { target with sortOrder } = .ok (id, new)) :
    store.Sound (new.setTargetKey id (encrypt store.key nonce target.apiKey
      (targetAPIKeyAAD id))).bumped := by
  rw [setTargetKey_insertTarget hinsert]
  obtain ⟨-, rfl, -⟩ := Tables.insertTarget_eq_ok.mp hinsert
  refine ⟨h.openILink, h.telegram, h.intervals, h.overrides, h.activityLimit, h.named, ?_, ?_, ?_⟩
  · refine List.forall_mem_append.mpr ⟨h.opens, ?_⟩
    rw [List.forall_mem_singleton]
    exact @opens_rowOf _ _ { target with sortOrder } _ _ _
  · refine List.forall_mem_append.mpr ⟨h.valid, ?_⟩
    rw [List.forall_mem_singleton]
    exact @valid_rowOf _ _ _ { target with sortOrder } _ _ _ hvalid
  · change ((tables.targets ++ [_]).map _).Nodup
    rw [List.map_append]
    refine h.ids.append (List.nodup_singleton _) ?_
    rintro key hkey hnew
    obtain ⟨row, hmem, rfl⟩ := List.mem_map.mp hkey
    exact Int.ne_of_lt (lt_nextTargetID hmem) (List.mem_singleton.mp hnew)

omit [GCM String] [NetURL] in
/-- After an insertion, the names are those from before and the new one. -/
theorem names_insertTarget {new : Tables} {apiKey : List UInt8}
    (hinsert : tables.insertTarget target = .ok (id, new)) :
    ((new.setTargetKey id apiKey).bumped.targets.map fun row ↦ Strings.toLower row.name) =
      (tables.targets.map fun row ↦ Strings.toLower row.name) ++ [Strings.toLower target.name] := by
  rw [setTargetKey_insertTarget hinsert]
  exact List.map_append

/-- A written target leaves the tables sound. -/
theorem Store.Sound.updateTarget {new : Tables} (h : store.Sound tables)
    (hvalid : Config.Valid target)
    (hupdate : tables.updateTarget id target (encrypt store.key nonce target.apiKey
      (targetAPIKeyAAD id)) = .ok new) : store.Sound new.bumped := by
  obtain ⟨-, rfl⟩ := Tables.updateTarget_eq_ok.mp hupdate
  have hrows : ∀ {P : TargetRow → Prop}, (∀ row ∈ tables.targets, P row) →
      (∀ revision, P (Tables.rowOf id revision target (encrypt store.key nonce target.apiKey
        (targetAPIKeyAAD id)))) →
      ∀ row ∈ (tables.mapTarget id fun row ↦ Tables.rowOf row.id (row.revision + 1) target
        (encrypt store.key nonce target.apiKey (targetAPIKeyAAD id))).targets, P row := by
    intro P hold hnew row hmem
    obtain ⟨stored, hstored, rfl⟩ := List.mem_map.mp hmem
    by_cases hid : stored.id = id
    · rw [if_pos hid]
      beta_reduce
      rw [hid]
      exact hnew _
    · rw [if_neg hid]
      exact hold stored hstored
  refine ⟨h.openILink, h.telegram, h.intervals, h.overrides, h.activityLimit, h.named,
    hrows h.opens fun _ ↦ opens_rowOf, hrows h.valid fun _ ↦ valid_rowOf hvalid, ?_⟩
  change ((tables.mapTarget id _).targets.map _).Nodup
  rw [map_id_mapTarget]
  · exact h.ids
  · exact fun _ ↦ rfl

/-- Rows that are deleted leave the tables sound. -/
theorem Store.Sound.deleteTarget (h : store.Sound tables) :
    store.Sound (tables.deleteTarget id).2.bumped := by
  have hsublist : ((tables.deleteTarget id).2.targets).Sublist tables.targets :=
    List.filter_sublist
  exact ⟨h.openILink, h.telegram, h.intervals, h.overrides, h.activityLimit, h.named,
    fun row hmem ↦ h.opens row (hsublist.subset hmem),
    fun row hmem ↦ h.valid row (hsublist.subset hmem), h.ids.sublist (hsublist.map _)⟩

/-- A committed operation leaves sound tables sound. -/
theorem Store.Sound.commits [Argon2] [Net] {op : Write} {new : Tables} {result : Option Target}
    (h : store.Sound tables) (hcommits : Commits store tables op new result) :
    store.Sound new := by
  cases hcommits with
  | setupAdmin username password salt hname hlength hfree =>
    exact ⟨h.openILink, h.telegram, h.intervals, h.overrides, h.activityLimit, hname, h.opens,
      h.valid, h.ids⟩
  | updateAccount username newPassword administrator passwordHash hname hstored hhash =>
    exact ⟨h.openILink, h.telegram, h.intervals, h.overrides, h.activityLimit, hname, h.opens,
      h.valid, h.ids⟩
  | updateCodex value hvalid =>
    have haccepted := Config.accepted_of_validateCodex hvalid
    exact ⟨h.openILink, h.telegram, haccepted.intervals, haccepted.overrides, h.activityLimit,
      h.named, h.opens, h.valid, h.ids⟩
  | updateWeb value hvalid =>
    exact ⟨h.openILink, h.telegram, h.intervals, h.overrides,
      Config.accepted_of_validateWeb hvalid, h.named, h.opens, h.valid, h.ids⟩
  | updateOpenILink value token current config secret hcurrent hconfig hvalid hsecret =>
    have henv : config.tokenEnv = "" := by rw [hconfig]
    exact ⟨⟨_, decodeOpenILink_withSecret henv hsecret,
      Config.accepted_of_validateOpenILink hvalid⟩, h.telegram, h.intervals, h.overrides,
      h.activityLimit, h.named, h.opens, h.valid, h.ids⟩
  | updateTelegram value token current config secret hcurrent hconfig hvalid hsecret =>
    have henv : config.tokenEnv = "" := by rw [hconfig]
    exact ⟨h.openILink, ⟨_, decodeTelegram_withSecret henv hsecret,
      Config.accepted_of_validateTelegram hvalid⟩, h.intervals, h.overrides,
      h.activityLimit, h.named, h.opens, h.valid, h.ids⟩
  | createTarget target sortOrder id inserted nonce hvalid horder hinsert =>
    exact h.createTarget (Config.validateTarget_eq_ok.mp hvalid).2 hinsert
  | updateTarget id target apiKey row plain edited written nonce hrow hplain hedited hvalid
      hupdate =>
    exact h.updateTarget (Config.validateTarget_eq_ok.mp hvalid).2 hupdate
  | deleteTarget id hfound => exact h.deleteTarget

omit [GCM String] in
/-- A valid target gets into the database next to the other rows, although `strings.ToLower`
identifies its name with that of one of them. -/
def Clashes (tables : Tables) (other : TargetRow → Prop) (target : Target) : Prop :=
  Config.Valid target ∧
    (∀ row ∈ tables.targets, other row → nocase row.name ≠ nocase target.name) ∧
    ∃ row ∈ tables.targets, other row ∧ Strings.toLower row.name = Strings.toLower target.name

variable (store) in
/-- The operation writes a name that the database does not recognise as taken. -/
def Store.MissesClash (tables : Tables) : Write → Prop
  | .createTarget target => Clashes tables (fun _ ↦ True) (Config.normalizeTarget target)
  | .updateTarget id target apiKey => ∃ row plain, tables.target? id = some row ∧
      decrypt store.key row.apiKey (targetAPIKeyAAD id) = some plain ∧
        Clashes tables (fun other ↦ other.id ≠ id)
          (editedTarget id row.sortOrder plain target apiKey)
  | _ => False

/-- A committed operation leaves intact tables intact, unless it misses a clash of names. -/
theorem Store.Intact.commits [Argon2] [Net] {op : Write} {new : Tables} {result : Option Target}
    (h : store.Intact tables) (hcommits : Commits store tables op new result)
    (hclash : ¬ store.MissesClash tables op) : store.Intact new := by
  obtain ⟨hsound, hnames⟩ := intact_iff_sound.mp h
  refine intact_iff_sound.mpr ⟨hsound.commits hcommits, ?_⟩
  cases hcommits with
  | createTarget target sortOrder id inserted nonce hvalid horder hinsert =>
    generalize hnormalized : Config.normalizeTarget target = normalized at *
    have hvalid := (Config.validateTarget_eq_ok.mp hvalid).2
    rw [names_insertTarget hinsert]
    refine hnames.append (List.nodup_singleton _) ?_
    rintro name hname hnew
    obtain ⟨row, hmem, rfl⟩ := List.mem_map.mp hname
    refine hclash ?_
    rw [Store.MissesClash, hnormalized]
    refine ⟨⟨hvalid.named, hvalid.unreserved, hvalid.plain, hvalid.url, hvalid.key, hvalid.model,
      hvalid.wireAPI, hvalid.overrides⟩, fun row hmem _ ↦ ?_, row, hmem, trivial,
      List.mem_singleton.mp hnew⟩
    exact (Tables.insertTarget_eq_ok.mp hinsert).1 row hmem
  | updateTarget id target apiKey row plain edited written nonce hrow hplain hedited hvalid
      hupdate =>
    have hvalid := (Config.validateTarget_eq_ok.mp hvalid).2
    obtain ⟨hfree, rfl⟩ := Tables.updateTarget_eq_ok.mp hupdate
    refine nodup_names_mapTarget h.ids hnames (fun _ ↦ rfl) fun other hmem hother hname ↦ hclash ?_
    subst hedited
    exact ⟨row, plain, hrow, hplain, hvalid, hfree, other, hmem, hother, hname⟩
  | deleteTarget id hfound =>
    exact hnames.sublist (List.filter_sublist.map _)
  | _ => exact hnames

/-- The defaults are intact. -/
theorem intact_freshTables : store.Intact freshTables := by
  have hdefault := Config.accepted_defaultDatabaseConfig
  refine ⟨⟨_, rfl, hdefault.openILink⟩, ⟨_, rfl, hdefault.telegram⟩, hdefault.intervals,
    hdefault.overrides, hdefault.activityLimit, by decide, ?_, ?_, List.nodup_nil, List.nodup_nil⟩
  · exact fun row hmem ↦ by cases hmem
  · exact fun row hmem ↦ by cases hmem

end

end CodexQueueBot.Storage
