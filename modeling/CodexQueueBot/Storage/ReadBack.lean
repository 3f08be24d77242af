import CodexQueueBot.Storage.Sequences

/-!
# Reading back what was written

The snapshot that an operation returns, compared with the snapshot of the tables before it.
`ReadsBack` says for each operation what has changed: the section or the target that was written has
the normalised argument, the revision of a written section is the next one, and everything else in
the snapshot is as it was. Secrets are part of it: a token or a key that is not given is kept.

`write_readsBack` shows that every operation which succeeds reads back. An order is looked up for a
new target without one, and the lookup is part of the program (`created_sortOrder`), since what
`Commits` says of it would hold of any order.
-/

set_option autoImplicit false
set_option relaxedAutoImplicit false

namespace CodexQueueBot.Storage

open Go Lib Lib.Prog

/-! ### What has changed -/

/-- A snapshot with a written section. -/
def Snapshot.withSection (old : Snapshot) (name : SectionName) (config : Config) : Snapshot :=
  { old with
    config
    revision := old.revision + 1
    sectionRevisions := fun other ↦
      if other = name then old.sectionRevisions name + 1 else old.sectionRevisions other }

/-- A snapshot with other targets. -/
def Snapshot.withTargets (old : Snapshot) (targets : List Target) : Snapshot :=
  { old with
    config := { old.config with codex := { old.config.codex with targets } }
    revision := old.revision + 1 }

/-- A snapshot with another administrator. -/
def Snapshot.withAdministrator (old : Snapshot) (username : String) : Snapshot :=
  { old with
    config := { old.config with web := { old.config.web with adminUsername := username } }
    revision := old.revision + 1
    setupRequired := false
    suggestedUsername := username }

/-- The token after a write: the old one if none is given. -/
def writtenToken (old : String) : Option String → String
  | none => old
  | some token => Strings.trimSpace token

/-- The key after a write: the old one if none is given, or a blank one. -/
def writtenKey (old : String) : Option String → String
  | none => old
  | some key => if Strings.trimSpace key = "" then old else Strings.trimSpace key

/-- The order of a new target: after the last one if none is given. -/
def writtenOrder (old : List Target) (sortOrder : Int) : Int :=
  if sortOrder < 0 then appendedSortOrder (old.map (·.sortOrder)).max? else sortOrder

/-- The token argument of a write is nil, empty or not blank, as the handlers pass it. -/
def Write.TokenGiven : Write → Prop
  | .updateOpenILink _ (some token) | .updateTelegram _ (some token) =>
    token = "" ∨ Strings.trimSpace token ≠ ""
  | _ => True

/-- A new snapshot and a returned target read back a write. Lists of targets are compared as
collections: their order is that of the database. -/
def ReadsBack (old new : Snapshot) (returned : Option Target) : Write → Prop
  | .setupAdmin username _ | .updateAccount username _ =>
    new = old.withAdministrator (Strings.trimSpace username)
  | .updateCodex value =>
    new = old.withSection .codex { old.config with
      codex := { normalizeCodex value with targets := old.config.codex.targets } }
  | .updateWeb value =>
    new = old.withSection .web { old.config with
      web := { normalizeWeb value with
        adminUsername := old.config.web.adminUsername
        adminPasswordEnv := ""
        cookieSecureSet := false } }
  | .updateOpenILink value token =>
    new = old.withSection .openilink { old.config with
      openILink := { normalizeOpenILink value with
        token := writtenToken old.config.openILink.token token
        tokenEnv := "" } }
  | .updateTelegram value token =>
    new = old.withSection .telegram { old.config with
      telegram := { normalizeTelegram value with
        token := writtenToken old.config.telegram.token token
        tokenEnv := "" } }
  | .createTarget target =>
    ∃ id, (∀ other ∈ old.config.codex.targets, other.id ≠ id) ∧
      ∃ created, created = { Config.normalizeTarget target with
          id
          sortOrder :=
            writtenOrder old.config.codex.targets (Config.normalizeTarget target).sortOrder } ∧
        returned = some created ∧
        ∃ targets, targets.Perm ({ created with apiKeyEnv := "" } :: old.config.codex.targets) ∧
          new = old.withTargets targets
  | .updateTarget id target apiKey =>
    ∃ previous ∈ old.config.codex.targets, previous.id = id ∧
      ∃ edited, edited = { Config.normalizeTarget target with
          id
          sortOrder := if (Config.normalizeTarget target).sortOrder < 0 then previous.sortOrder
            else (Config.normalizeTarget target).sortOrder
          apiKey := writtenKey previous.apiKey apiKey } ∧
        returned = some edited ∧
        ∃ targets, targets.Perm (old.config.codex.targets.map fun other ↦
            if other.id = id then { edited with apiKeyEnv := "" } else other) ∧
          new = old.withTargets targets
  | .deleteTarget id =>
    ∃ targets, targets.Perm (old.config.codex.targets.filter fun other ↦ other.id ≠ id) ∧
      new = old.withTargets targets

/-! ### The snapshots before and after -/

section

variable [GCM String] [NetURL] {store : Store} {tables new : Tables} {config config' : Config}

/-- The OpenILink section of a configuration is that of its row. -/
theorem Store.Holds.openILink_eq (h : store.Holds tables config) (h' : store.Holds new config')
    (hrow : new.openILink = tables.openILink) : config'.openILink = config.openILink := by
  have hnew := h'.openILink
  rw [hrow, h.openILink] at hnew
  exact (Except.ok.inj hnew).symm

/-- The Telegram section of a configuration is that of its row. -/
theorem Store.Holds.telegram_eq (h : store.Holds tables config) (h' : store.Holds new config')
    (hrow : new.telegram = tables.telegram) : config'.telegram = config.telegram := by
  have hnew := h'.telegram
  rw [hrow, h.telegram] at hnew
  exact (Except.ok.inj hnew).symm

/-- The targets of a configuration are those of the rows. -/
theorem Store.Holds.targets_eq (h : store.Holds tables config) :
    config.codex.targets = tables.orderedTargets.map store.targetOf := by
  rw [h.assembled]
  rfl

/-- The targets of a configuration in the order of the rows. -/
theorem Store.Holds.perm_targets (h : store.Holds tables config) :
    config.codex.targets.Perm (tables.targets.map store.targetOf) := by
  rw [h.targets_eq]
  exact perm_orderedTargets.map _

/-- The codex section of a configuration is that of its row, with the targets. -/
theorem Store.Holds.codex_eq (h : store.Holds tables config) :
    config.codex = { store.decodeCodex tables.codex.data
        with targets := config.codex.targets } := by
  rw [h.targets_eq]
  conv_lhs => rw [h.assembled]
  rfl

/-- The Web section of a configuration is that of its row, with the administrator. -/
theorem Store.Holds.web_eq (h : store.Holds tables config) :
    config.web = { fromPersistedWeb tables.web.data
        with adminUsername := config.web.adminUsername } := by
  rw [h.assembled]
  rfl

/-- The administrator of a configuration. -/
theorem Store.Holds.adminUsername_eq (h : store.Holds tables config) :
    config.web.adminUsername =
      (tables.administrator.map (·.username)).getD tables.suggestedUsername := by
  rw [h.assembled]
  rfl

/-- The targets of a configuration are there as long as the rows are. -/
theorem Store.Holds.targets_same (h : store.Holds tables config) (h' : store.Holds new config')
    (hrows : new.targets = tables.targets) : config'.codex.targets = config.codex.targets := by
  rw [h.targets_eq, h'.targets_eq, Tables.orderedTargets, Tables.orderedTargets, hrows]

/-- The codex section of a configuration is there as long as its row and those of the targets
are. -/
theorem Store.Holds.codex_same (h : store.Holds tables config) (h' : store.Holds new config')
    (hdata : new.codex = tables.codex) (hrows : new.targets = tables.targets) :
    config'.codex = config.codex := by
  rw [h'.codex_eq, h.targets_same h' hrows, hdata, ← h.codex_eq]

/-- The Web section of a configuration is there as long as its row and the administrator are. -/
theorem Store.Holds.web_same (h : store.Holds tables config) (h' : store.Holds new config')
    (hdata : new.web = tables.web) (hstored : new.administrator = tables.administrator)
    (hname : new.suggestedUsername = tables.suggestedUsername) : config'.web = config.web := by
  rw [h'.web_eq, h'.adminUsername_eq, hdata, hstored, hname, ← h.adminUsername_eq, ← h.web_eq]

omit [GCM String] [NetURL] in
/-- A configuration is made of its sections. -/
theorem config_eq {first second : Config} (hopen : first.openILink = second.openILink)
    (htelegram : first.telegram = second.telegram) (hcodex : first.codex = second.codex)
    (hweb : first.web = second.web) : first = second := by
  cases first
  cases second
  cases hopen
  cases htelegram
  cases hcodex
  cases hweb
  rfl

/-- When only targets were written, the snapshot differs in its targets. -/
theorem Store.Holds.snapshotOf_targets {targets : List TargetRow} {sequence : Int}
    (h : store.Holds tables config)
    (h' : store.Holds { tables with sequence, targets }.bumped config') :
    Tables.snapshotOf { tables with sequence, targets }.bumped config' =
      (tables.snapshotOf config).withTargets config'.codex.targets := by
  have hconfig : config' = { config with
      codex := { config.codex with targets := config'.codex.targets } } := by
    have hassembled := h.assembled
    have hassembled' := h'.assembled
    rw [h.openILink_eq h' rfl, h.telegram_eq h' rfl] at hassembled'
    rw [h'.targets_eq, hassembled', hassembled]
    rfl
  rw [Snapshot.withTargets]
  conv_lhs => rw [hconfig]
  rfl

/-! ### Targets -/

omit [GCM String] [NetURL] in
/-- The largest number does not depend on the order. -/
theorem max?_eq_of_perm {first second : List Int} (h : first.Perm second) :
    first.max? = second.max? := by
  cases hmax : second.max? with
  | none =>
      rw [List.max?_eq_none_iff] at hmax ⊢
      rw [hmax] at h
      exact h.eq_nil
  | some largest =>
      rw [List.max?_eq_some_iff] at hmax ⊢
      exact ⟨h.mem_iff.mpr hmax.1, fun other hmem ↦ hmax.2 other (h.mem_iff.mp hmem)⟩

/-- The largest order in the table is the largest in the snapshot. -/
theorem Store.Holds.maximumSortOrder_eq (h : store.Holds tables config) :
    tables.maximumSortOrder = (config.codex.targets.map (·.sortOrder)).max? := by
  refine max?_eq_of_perm ?_
  have hperm := (h.perm_targets.map (·.sortOrder)).symm
  rwa [List.map_map] at hperm

omit [NetURL] in
/-- The identifier of a row is that of its target. -/
theorem targetOf_id (row : TargetRow) : (store.targetOf row).id = row.id :=
  rfl

omit [NetURL] in
/-- The name of a row is that of its target. -/
theorem targetOf_name (row : TargetRow) : (store.targetOf row).name = row.name :=
  rfl

/-- The targets with a new row. -/
theorem Store.Holds.perm_insert {target : Target} {sequence id : Int} {nonce : ℕ}
    (h : store.Holds tables config)
    (h' : store.Holds { tables with
      sequence
      targets := tables.targets ++ [Tables.rowOf id 1 target
        (encrypt store.key nonce target.apiKey (targetAPIKeyAAD id))] }.bumped config') :
    config'.codex.targets.Perm
      ({ target with id, apiKeyEnv := "" } :: config.codex.targets) := by
  have hperm := h'.perm_targets
  change config'.codex.targets.Perm ((tables.targets ++ [_]).map store.targetOf) at hperm
  rw [List.map_append, List.map_singleton, targetOf_rowOf] at hperm
  exact hperm.trans ((List.perm_append_singleton _ _).trans (h.perm_targets.symm.cons _))

/-- The targets with an updated row. -/
theorem Store.Holds.perm_update {edited : Target} {id : Int} {nonce : ℕ}
    (h : store.Holds tables config)
    (h' : store.Holds (tables.mapTarget id fun row ↦ Tables.rowOf row.id (row.revision + 1) edited
      (encrypt store.key nonce edited.apiKey (targetAPIKeyAAD id))).bumped config') :
    config'.codex.targets.Perm (config.codex.targets.map fun other ↦
      if other.id = id then { edited with id, apiKeyEnv := "" } else other) := by
  have hrows : (tables.mapTarget id fun row ↦ Tables.rowOf row.id (row.revision + 1) edited
      (encrypt store.key nonce edited.apiKey (targetAPIKeyAAD id))).targets.map store.targetOf =
        (tables.targets.map store.targetOf).map fun other ↦
          if other.id = id then { edited with id, apiKeyEnv := "" } else other := by
    unfold Tables.mapTarget
    rw [List.map_map, List.map_map]
    refine List.map_congr_left fun row _ ↦ ?_
    rw [Function.comp_apply, Function.comp_apply, targetOf_id]
    by_cases hid : row.id = id
    · rw [if_pos hid, if_pos hid]
      beta_reduce
      rw [hid, targetOf_rowOf]
    · rw [if_neg hid, if_neg hid]
  have hperm := h'.perm_targets
  change config'.codex.targets.Perm (List.map store.targetOf
      (tables.mapTarget id _).targets) at hperm
  rw [hrows] at hperm
  exact hperm.trans (h.perm_targets.symm.map _)

/-- The targets without a deleted row. -/
theorem Store.Holds.perm_delete {id : Int} (h : store.Holds tables config)
    (h' : store.Holds (tables.deleteTarget id).2.bumped config') :
    config'.codex.targets.Perm (config.codex.targets.filter fun other ↦ other.id ≠ id) := by
  have hperm := h'.perm_targets
  change config'.codex.targets.Perm
    (List.map store.targetOf (tables.targets.filter fun row ↦ row.id ≠ id)) at hperm
  have hrows : (tables.targets.filter fun row ↦ row.id ≠ id).map store.targetOf =
      (tables.targets.map store.targetOf).filter fun other ↦ other.id ≠ id := by
    rw [List.filter_map]
    rfl
  rw [hrows] at hperm
  exact hperm.trans (h.perm_targets.symm.filter _)

/-- A created target reads back. -/
theorem readsBack_createTarget {target : Target} {sortOrder id : Int}
    {inserted : Tables} {nonce : ℕ}
    (h : store.Holds tables config)
    (horder : sortOrder =
      writtenOrder config.codex.targets (Config.normalizeTarget target).sortOrder)
    (hinsert : tables.insertTarget { Config.normalizeTarget target with sortOrder } =
      .ok (id, inserted))
    (h' : store.Holds (inserted.setTargetKey id (encrypt store.key nonce
      (Config.normalizeTarget target).apiKey (targetAPIKeyAAD id))).bumped config') :
    ReadsBack (tables.snapshotOf config)
      ((inserted.setTargetKey id (encrypt store.key nonce
        (Config.normalizeTarget target).apiKey (targetAPIKeyAAD id))).bumped.snapshotOf config')
      (some { Config.normalizeTarget target with sortOrder, id }) (.createTarget target) := by
  obtain ⟨-, hid, -⟩ := Tables.insertTarget_eq_ok.mp hinsert
  rw [setTargetKey_insertTarget hinsert] at h' ⊢
  simp only [ReadsBack]
  generalize Config.normalizeTarget target = normalized at *
  refine ⟨id, fun other hmem ↦ ?_, { normalized with sortOrder, id }, ?_, rfl, _,
    @Store.Holds.perm_insert _ _ _ _ _ _ { normalized with sortOrder } _ _ _ h h',
    h.snapshotOf_targets h'⟩
  · obtain ⟨row, hrow, rfl⟩ := List.mem_map.mp (h.perm_targets.mem_iff.mp hmem)
    rw [targetOf_id, hid]
    exact Int.ne_of_lt (lt_nextTargetID hrow)
  · rw [horder]
    rfl

omit [GCM String] [NetURL] in
/-- An edited target has the normalised argument, and keeps what is not given. -/
theorem editedTarget_eq (id sortOrder : Int) (plain : String) (target : Target)
    (apiKey : Option String) : editedTarget id sortOrder plain target apiKey =
      { Config.normalizeTarget target with
        id
        sortOrder := if (Config.normalizeTarget target).sortOrder < 0 then sortOrder
          else (Config.normalizeTarget target).sortOrder
        apiKey := writtenKey plain apiKey } := by
  unfold editedTarget writtenKey
  cases apiKey with
  | none => rfl
  | some key =>
      by_cases hblank : Strings.trimSpace key = ""
      · simp [hblank]
      · simp [hblank]

/-- An updated target reads back. -/
theorem readsBack_updateTarget {id : Int} {target : Target} {apiKey : Option String}
    {row : TargetRow} {plain : String} {nonce : ℕ} {written : Tables}
    (h : store.Holds tables config) (hrow : tables.target? id = some row)
    (hplain : decrypt store.key row.apiKey (targetAPIKeyAAD id) = some plain)
    (hupdate : tables.updateTarget id (editedTarget id row.sortOrder plain target apiKey)
      (encrypt store.key nonce (editedTarget id row.sortOrder plain target apiKey).apiKey
        (targetAPIKeyAAD id)) = .ok written)
    (h' : store.Holds written.bumped config') :
    ReadsBack (tables.snapshotOf config) (written.bumped.snapshotOf config')
      (some (editedTarget id row.sortOrder plain target apiKey))
          (.updateTarget id target apiKey) := by
  obtain ⟨-, rfl⟩ := Tables.updateTarget_eq_ok.mp hupdate
  have hmem : row ∈ tables.targets := List.mem_of_find?_eq_some hrow
  have hid : row.id = id := by
    have hfound := List.find?_some (p := fun row : TargetRow ↦ decide (row.id = id)) hrow
    exact of_decide_eq_true hfound
  have hkey : (store.targetOf row).apiKey = plain := by
    rw [Store.targetOf, hid, hplain]
    rfl
  refine ⟨store.targetOf row, h.perm_targets.mem_iff.mpr (List.mem_map_of_mem hmem), hid,
    editedTarget id row.sortOrder plain target apiKey, ?_, rfl, _, ?_, h.snapshotOf_targets h'⟩
  · rw [hkey]
    exact editedTarget_eq id row.sortOrder plain target apiKey
  · exact h.perm_update h'

/-! ### Sections -/

omit [NetURL] in
/-- A secret has one token. -/
theorem token_eq_of_decodeToken {secret : List UInt8} {aad current token : String}
    {context : Message} (hcurrent : store.decodeToken secret aad [] = .ok current)
    (htoken : store.decodeToken secret aad context = .ok token) : token = current := by
  unfold Store.decodeToken at hcurrent htoken
  split_ifs at hcurrent htoken
  · exact (Except.ok.inj htoken).symm.trans (Except.ok.inj hcurrent)
  · cases hplain : decrypt store.key secret aad with
    | none =>
        rw [hplain] at hcurrent
        cases hcurrent
    | some plain =>
        rw [hplain] at hcurrent htoken
        exact (Except.ok.inj htoken).symm.trans (Except.ok.inj hcurrent)

/-- The token of the OpenILink section is that of its secret. -/
theorem Store.Holds.openILink_token (h : store.Holds tables config) {current : String}
    (hcurrent : store.decodeToken tables.openILink.secret "openilink:token" [] = .ok current) :
    config.openILink.token = current := by
  have hopen := h.openILink
  obtain ⟨token, htoken, hconfig⟩ := bind_eq_ok.mp hopen
  rw [← Except.ok.inj hconfig]
  exact token_eq_of_decodeToken hcurrent htoken

/-- The token of the Telegram section is that of its secret. -/
theorem Store.Holds.telegram_token (h : store.Holds tables config) {current : String}
    (hcurrent : store.decodeToken tables.telegram.secret "telegram:token" [] = .ok current) :
    config.telegram.token = current := by
  have htelegram := h.telegram
  obtain ⟨token, htoken, hconfig⟩ := bind_eq_ok.mp htelegram
  rw [← Except.ok.inj hconfig]
  exact token_eq_of_decodeToken hcurrent htoken

omit [GCM String] [NetURL] in
/-- `UpdateOpenILink` writes a token that is given, also an empty one. -/
theorem chooseOpenILinkToken_eq {current : String} {token : Option String} {value : OpenILinkConfig}
    (h : (Write.updateOpenILink value token).TokenGiven) :
    chooseOpenILinkToken current token = writtenToken current token := by
  cases token with
  | none => rfl
  | some token =>
      have hgiven : Strings.trimSpace token ≠ "" ∨ token = "" := h.symm
      rw [chooseOpenILinkToken, writtenToken, if_pos hgiven]

omit [GCM String] [NetURL] in
/-- The snapshot of tables with a written section. -/
theorem snapshot_withSection {name : SectionName} {tables new : Tables} {config config' : Config}
    (hrevisions : ∀ other, (new.snapshotOf config').sectionRevisions other =
      if other = name then (tables.snapshotOf config).sectionRevisions name + 1
      else (tables.snapshotOf config).sectionRevisions other)
    (hrevision : new.configRevision = tables.configRevision + 1 := by rfl)
    (hloaded : new.loadedStartupRevision = tables.loadedStartupRevision := by rfl)
    (hsetup : new.administrator.isNone = tables.administrator.isNone := by rfl)
    (hname : new.suggestedUsername = tables.suggestedUsername := by rfl) :
    new.snapshotOf config' = (tables.snapshotOf config).withSection name config' := by
  have hfun := funext hrevisions
  unfold Snapshot.withSection
  rw [← hfun]
  unfold Tables.snapshotOf
  simp only [hrevision, hloaded, hsetup, hname]

/-- When only the administrator was written, the snapshot differs in that. -/
theorem Store.Holds.snapshotOf_administrator {username : String} {passwordHash : PasswordHash}
    (h : store.Holds tables config)
    (h' : store.Holds { tables with
      administrator := some ⟨username, passwordHash⟩
      suggestedUsername := username }.bumped config') :
    Tables.snapshotOf { tables with
        administrator := some ⟨username, passwordHash⟩
        suggestedUsername := username }.bumped config' =
      (tables.snapshotOf config).withAdministrator username := by
  have hconfig : config' = { config with
      web := { config.web with adminUsername := username } } := by
    refine config_eq (h.openILink_eq h' rfl) (h.telegram_eq h' rfl) (h.codex_same h' rfl rfl) ?_
    rw [h'.web_eq, h'.adminUsername_eq, h.web_eq]
    rfl
  rw [hconfig]
  rfl

variable [Argon2] [Net]

/-- A committed operation reads back, if the order of a new target is as it is written. -/
theorem readsBack_of_commits {op : Write} {returned : Option Target}
    (h : store.Holds tables config) (h' : store.Holds new config')
    (hcommits : Commits store tables op new returned) (htoken : op.TokenGiven)
    (horder : ∀ target created, op = .createTarget target → returned = some created →
      created.sortOrder =
        writtenOrder config.codex.targets (Config.normalizeTarget target).sortOrder) :
    ReadsBack (tables.snapshotOf config) (new.snapshotOf config') returned op := by
  cases hcommits with
  | setupAdmin username password salt hname hlength hfree => exact h.snapshotOf_administrator h'
  | updateAccount username newPassword administrator passwordHash hname hstored hhash =>
      exact h.snapshotOf_administrator h'
  | updateCodex value hvalid =>
      have hconfig : config' = { config with
          codex := { normalizeCodex value with targets := config.codex.targets } } := by
        refine config_eq (h.openILink_eq h' rfl) (h.telegram_eq h' rfl) ?_
          (h.web_same h' rfl rfl rfl)
        rw [h'.codex_eq, h.targets_same h' rfl]
        rfl
      rw [hconfig]
      refine snapshot_withSection ?_
      rintro (_ | _ | _ | _) <;> rfl
  | updateWeb value hvalid =>
      have hconfig : config' = { config with
          web := { normalizeWeb value with
            adminUsername := config.web.adminUsername
            adminPasswordEnv := ""
            cookieSecureSet := false } } := by
        refine config_eq (h.openILink_eq h' rfl) (h.telegram_eq h' rfl) (h.codex_same h' rfl rfl) ?_
        rw [h'.web_eq, h'.adminUsername_eq, h.adminUsername_eq]
        rfl
      rw [hconfig]
      refine snapshot_withSection ?_
      rintro (_ | _ | _ | _) <;> rfl
  | updateOpenILink value token current written secret hcurrent hwritten hvalid hsecret =>
      have henv : written.tokenEnv = "" := by
        rw [hwritten]
      have hconfig : config' = { config with
          openILink := { normalizeOpenILink value with
            token := writtenToken config.openILink.token token
            tokenEnv := "" } } := by
        refine config_eq ?_ (h.telegram_eq h' rfl) (h.codex_same h' rfl rfl)
          (h.web_same h' rfl rfl rfl)
        have hnew := h'.openILink
        change store.decodeOpenILink (tables.openILink.withSecret _ _) = _ at hnew
        rw [decodeOpenILink_withSecret henv hsecret] at hnew
        have hchosen : chooseOpenILinkToken current token = writtenToken current token :=
          chooseOpenILinkToken_eq htoken
        rw [← Except.ok.inj hnew, hwritten, h.openILink_token hcurrent, hchosen]
        rfl
      rw [hconfig]
      refine snapshot_withSection ?_
      rintro (_ | _ | _ | _) <;> rfl
  | updateTelegram value token current written secret hcurrent hwritten hvalid hsecret =>
      have henv : written.tokenEnv = "" := by
        rw [hwritten]
      have hconfig : config' = { config with
          telegram := { normalizeTelegram value with
            token := writtenToken config.telegram.token token
            tokenEnv := "" } } := by
        refine config_eq (h.openILink_eq h' rfl) ?_ (h.codex_same h' rfl rfl)
          (h.web_same h' rfl rfl rfl)
        have hnew := h'.telegram
        change store.decodeTelegram (tables.telegram.withSecret _ _) = _ at hnew
        rw [decodeTelegram_withSecret henv hsecret] at hnew
        rw [← Except.ok.inj hnew, hwritten, h.telegram_token hcurrent]
        cases token <;> rfl
      rw [hconfig]
      refine snapshot_withSection ?_
      rintro (_ | _ | _ | _) <;> rfl
  | createTarget target sortOrder id inserted nonce hvalid _ hinsert =>
      exact readsBack_createTarget h (horder target _ rfl rfl) hinsert h'
  | updateTarget id target apiKey row plain edited written nonce hrow hplain hedited
      hvalid hupdate =>
      subst hedited
      exact readsBack_updateTarget h hrow hplain hupdate h'
  | deleteTarget id hfound =>
      exact ⟨_, h.perm_delete h', h.snapshotOf_targets h'⟩

/-! ### The programs -/

omit [Argon2] [Net] in
/-- `Load` returns the snapshot of the tables, if it returns one. -/
theorem load_outcome {ctx : Ctx} {answers : List (Answer SQLError)} {snapshot : Snapshot}
    (hrun : (store.load ctx).run.run .txDone cancelled answers tables none =
      some (.ok snapshot, new)) : store.snapshot tables = .ok snapshot := by
  have hready : Ready ⟨cancelled, Eq, fun _ _ ↦ False, Eq⟩
      (fun result _ ↦ ∀ found, result = .ok found → store.snapshot tables = .ok found)
      (store.load ctx).run false tables none := by
    refine ⟨tables, rfl, by simp, run_wp (wp_load store (fun _ error base _ found hfound ↦ ?_) ?_)⟩
    · cases hfound
    · rintro _ rfl
      cases hsnapshot : store.snapshot tables with
      | error error =>
          intro found hfound
          cases hfound
      | ok found =>
          intro other hother
          exact hother
  obtain ⟨phase, -, hresult⟩ := hready.run hrun
  exact hresult snapshot rfl

variable (store) in
/-- `CreateTarget` has committed the target that it writes, and loads what it has committed. -/
def Store.Places (tables : Tables) (target : Target)
    (result : Except StoreError (Snapshot × Option Target)) (new : Tables) : Prop :=
  ∃ id inserted nonce, Config.validateTarget (placedTarget tables target) = .ok () ∧
    tables.insertTarget (placedTarget tables target) = .ok (id, inserted) ∧
    new = (inserted.setTargetKey id (encrypt store.key nonce (placedTarget tables target).apiKey
      (targetAPIKeyAAD id))).bumped ∧
    result = (store.snapshot new).map fun snapshot ↦
      (snapshot, some { placedTarget tables target with id })

/-- What `CreateTarget` comes to when it runs alone. -/
theorem createTarget_outcome {target : Target} {answers : List (Answer SQLError)}
    {result : Except StoreError (Snapshot × Option Target)}
    (hrun : (store.write (.createTarget target)).run.run .txDone cancelled answers tables none =
      some (result, new)) :
    ((∃ error, result = .error error) ∧ new = tables) ∨
      store.Places tables target result new := by
  have hready : Ready ⟨cancelled, Eq, fun _ _ ↦ True, Eq⟩
      (fun result phase ↦ ((∃ error, result = .error error) ∧ phase.tables = tables) ∨
        store.Places tables target result phase.tables)
      (store.write (.createTarget target)).run false tables none := by
    refine ⟨tables, rfl, by simp, run_wp ?_⟩
    simp only [Store.write, wp_bind, wp_pure]
    refine wp_createTarget rfl (fun _ ↦ rfl) ?_ (fun _ _ ↦ Eq.trans) ?_
    · rintro error _ rfl
      exact Or.inl ⟨⟨error, rfl⟩, rfl⟩
    · rintro _ _ id inserted nonce rfl ⟨-, rfl⟩ hvalid hinsert
      refine ⟨trivial, wp_load store (fun hfaulty ↦ by cases hfaulty) ?_⟩
      rintro _ rfl
      cases hsnapshot : store.snapshot _ with
      | error error =>
          refine Or.inr ⟨id, inserted, nonce, hvalid, hinsert, rfl, ?_⟩
          rw [hsnapshot]
          rfl
      | ok found =>
          refine Or.inr ⟨id, inserted, nonce, hvalid, hinsert, rfl, ?_⟩
          rw [hsnapshot]
          rfl
  obtain ⟨phase, rfl, hresult⟩ := hready.run hrun
  exact hresult

/-- A created target has the order that `CreateTarget` chooses. -/
theorem created_sortOrder {target created : Target} {answers : List (Answer SQLError)}
    {snapshot : Snapshot}
    (hrun : (store.write (.createTarget target)).run.run .txDone cancelled answers tables none =
      some (.ok (snapshot, some created), new)) :
    created.sortOrder = chosenOrder tables (Config.normalizeTarget target).sortOrder := by
  rcases createTarget_outcome hrun with
    ⟨⟨error, herror⟩, -⟩ | ⟨id, inserted, nonce, -, -, -, hresult⟩
  · cases herror
  · cases hsnapshot : store.snapshot new with
    | error error =>
        rw [hsnapshot] at hresult
        cases hresult
    | ok found =>
        rw [hsnapshot] at hresult
        obtain ⟨-, hcreated⟩ := Prod.mk.inj (Except.ok.inj hresult)
        rw [Option.some.inj hcreated]
        rfl

/-- Every operation that succeeds reads back. -/
theorem write_readsBack {op : Write} (htoken : op.TokenGiven) {tables loaded new : Tables}
    {ctx : Ctx} {before after : List (Answer SQLError)} {old snapshot : Snapshot}
    {returned : Option Target}
    (hload : (store.load ctx).run.run .txDone cancelled before tables none =
      some (.ok old, loaded))
    (hrun : (store.write op).run.run .txDone cancelled after tables none =
      some (.ok (snapshot, returned), new)) : ReadsBack old snapshot returned op := by
  obtain ⟨config, hholds, rfl⟩ := snapshot_eq_ok.mp (load_outcome hload)
  obtain ⟨hcommits, hsnapshot⟩ := write_outcome hrun
  obtain ⟨config', hholds', rfl⟩ := snapshot_eq_ok.mp hsnapshot
  refine readsBack_of_commits hholds hholds' hcommits htoken ?_
  rintro target created rfl rfl
  rw [created_sortOrder hrun, chosenOrder, writtenOrder, hholds.maximumSortOrder_eq]

end

/-- A result that is a value. -/
theorem exists_of_any_ok {ε α β : Type} {result : Option (Except ε α × β)}
    (h : result.any (fun pair ↦ pair.1.isOk) = true) :
    ∃ value rest, result = some (.ok value, rest) := by
  obtain ⟨⟨found, rest⟩, rfl, hfound⟩ := Option.any_eq_true _ _ |>.mp h
  cases found with
  | error => cases hfound
  | ok value => exact ⟨value, rest, rfl⟩

/-- A target without an order is created in a fresh database, and reads back. -/
theorem write_readsBack_creation :
    ∃ old snapshot returned,
      ReadsBack old snapshot returned (.createTarget { namedTarget "a" with sortOrder := -1 }) := by
  let _ := GCM.transparent
  let _ := Argon2.transparent
  let _ := Config.hostOnly
  let _ := Net.portOnly
  have hloaded : ((sampleStore.load .request).run.run .txDone cancelled
      (List.replicate 11 (.fine 0)) freshTables none).any (fun pair ↦ pair.1.isOk) =
        true := by
    decide +kernel
  have hwritten : ((sampleStore.write (.createTarget { namedTarget "a"
      with sortOrder := -1 })).run.run
      .txDone cancelled (List.replicate 20 (.fine 0)) freshTables none).any
        (fun pair ↦ pair.1.isOk) = true := by
    decide +kernel
  obtain ⟨old, loaded, hload⟩ := exists_of_any_ok hloaded
  obtain ⟨⟨snapshot, returned⟩, new, hrun⟩ := exists_of_any_ok hwritten
  have htoken : Write.TokenGiven (.createTarget { namedTarget "a" with sortOrder := -1 }) := trivial
  exact ⟨old, snapshot, returned, write_readsBack htoken hload hrun⟩

end CodexQueueBot.Storage
