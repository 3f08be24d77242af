import CodexQueueBot.Config.Validity
import CodexQueueBot.Storage.Rules

/-!
# What the operations do to the tables

`Commits` says, once for each of the nine operations that write, what a committed call has done to
the tables and which target it returns. `wp_write` derives from the programs that this is all they
do: until it commits an operation leaves the tables alone and every error ends its transaction, and
after the commit it loads.
-/

set_option autoImplicit false
set_option relaxedAutoImplicit false

namespace CodexQueueBot.Storage

open Go Lib Lib.Prog

/-- The operations that write. -/
inductive Write
  | setupAdmin (username password : String)
  | updateAccount (username newPassword : String)
  | updateCodex (value : CodexConfig)
  | updateWeb (value : WebConfig)
  | updateOpenILink (value : OpenILinkConfig) (token : Option String)
  | updateTelegram (value : TelegramConfig) (token : Option String)
  | createTarget (target : Target)
  | updateTarget (id : Int) (target : Target) (apiKey : Option String)
  | deleteTarget (id : Int)
  deriving DecidableEq, Repr

section

variable [GCM String] [Argon2] [NetURL] [Net] (store : Store)

/-- The program of an operation that writes: the snapshot, and the target that the operations on
targets return. -/
def Store.write : Write → StoreM (Snapshot × Option Target)
  | .setupAdmin username password => do return (← store.setupAdmin username password, none)
  | .updateAccount username newPassword => do
    return (← store.updateAccount username newPassword, none)
  | .updateCodex value => do return (← store.updateCodex value, none)
  | .updateWeb value => do return (← store.updateWeb value, none)
  | .updateOpenILink value token => do return (← store.updateOpenILink value token, none)
  | .updateTelegram value token => do return (← store.updateTelegram value token, none)
  | .createTarget target => do
    let result ← store.createTarget target
    return (result.1, some result.2)
  | .updateTarget id target apiKey => do
    let result ← store.updateTarget id target apiKey
    return (result.1, some result.2)
  | .deleteTarget id => do return (← store.deleteTarget id, none)

/-- The secret that a token is stored as. -/
def Store.IsSecret (token aad : String) (secret : List UInt8) : Prop :=
  (token = "" ∧ secret = []) ∨ (token ≠ "" ∧ ∃ nonce, secret = encrypt store.key nonce token aad)

/-- What a committed operation has done to the tables, and the target that it returns. -/
inductive Commits (tables : Tables) : Write → Tables → Option Target → Prop
  | setupAdmin (username password : String) (salt : List UInt8)
      (hname : Strings.trimSpace username ≠ "")
      (hlength : Config.minimumAdminPasswordLength ≤ Strings.runeCount password)
      (hfree : tables.administrator = none) :
      Commits tables (.setupAdmin username password)
        { tables with
          administrator := some ⟨Strings.trimSpace username, hashPassword salt password⟩
          suggestedUsername := Strings.trimSpace username }.bumped none
  | updateAccount (username newPassword : String) (administrator : Administrator)
      (passwordHash : PasswordHash)
      (hname : Strings.trimSpace username ≠ "")
      (hstored : tables.administrator = some administrator)
      (hhash : newPassword = "" ∧ passwordHash = administrator.passwordHash ∨
        newPassword ≠ "" ∧ Config.minimumAdminPasswordLength ≤ Strings.runeCount newPassword ∧
          ∃ salt, passwordHash = hashPassword salt newPassword) :
      Commits tables (.updateAccount username newPassword)
        { tables with
          administrator := some ⟨Strings.trimSpace username, passwordHash⟩
          suggestedUsername := Strings.trimSpace username }.bumped none
  | updateCodex (value : CodexConfig) (hvalid : Config.validateCodex
      (normalizeCodex value) = .ok ()) :
      Commits tables (.updateCodex value)
        { tables with
          codex := tables.codex.withData (toPersistedCodex (normalizeCodex value)) }.bumped none
  | updateWeb (value : WebConfig) (hvalid : Config.validateWeb (normalizeWeb value) = .ok ()) :
      Commits tables (.updateWeb value)
        { tables with
          web := tables.web.withData (toPersistedWeb (normalizeWeb value)) }.bumped none
  | updateOpenILink (value : OpenILinkConfig) (token : Option String) (current : String)
      (config : OpenILinkConfig) (secret : List UInt8)
      (hcurrent : store.decodeToken tables.openILink.secret "openilink:token" [] = .ok current)
      (hconfig : config = { normalizeOpenILink value with
        token := chooseOpenILinkToken current token, tokenEnv := "" })
      (hvalid : Config.validateOpenILink config = .ok ())
      (hsecret : store.IsSecret config.token "openilink:token" secret) :
      Commits tables (.updateOpenILink value token)
        { tables with
          openILink := tables.openILink.withSecret
            (toPersistedOpenILink config) secret }.bumped none
  | updateTelegram (value : TelegramConfig) (token : Option String) (current : String)
      (config : TelegramConfig) (secret : List UInt8)
      (hcurrent : store.decodeToken tables.telegram.secret "telegram:token" [] = .ok current)
      (hconfig : config = { normalizeTelegram value with
        token := chooseTelegramToken current token, tokenEnv := "" })
      (hvalid : Config.validateTelegram config = .ok ())
      (hsecret : store.IsSecret config.token "telegram:token" secret) :
      Commits tables (.updateTelegram value token)
        { tables with
          telegram := tables.telegram.withSecret (toPersistedTelegram config) secret }.bumped none
  | createTarget (target : Target) (sortOrder id : Int) (new : Tables) (nonce : ℕ)
      (hvalid : Config.validateTarget { Config.normalizeTarget target with sortOrder } = .ok ())
      (horder : 0 ≤ (Config.normalizeTarget target).sortOrder →
        sortOrder = (Config.normalizeTarget target).sortOrder)
      (hinsert : tables.insertTarget { Config.normalizeTarget target with sortOrder } =
        .ok (id, new)) :
      Commits tables (.createTarget target)
        (new.setTargetKey id (encrypt store.key nonce (Config.normalizeTarget target).apiKey
          (targetAPIKeyAAD id))).bumped
        (some { Config.normalizeTarget target with sortOrder, id })
  | updateTarget (id : Int) (target : Target) (apiKey : Option String) (row : TargetRow)
      (plain : String) (edited : Target) (new : Tables) (nonce : ℕ)
      (hrow : tables.target? id = some row)
      (hplain : decrypt store.key row.apiKey (targetAPIKeyAAD id) = some plain)
      (hedited : edited = editedTarget id row.sortOrder plain target apiKey)
      (hvalid : Config.validateTarget edited = .ok ())
      (hupdate : tables.updateTarget id edited
        (encrypt store.key nonce edited.apiKey (targetAPIKeyAAD id)) = .ok new) :
      Commits tables (.updateTarget id target apiKey) new.bumped (some edited)
  | deleteTarget (id : Int) (hfound : (tables.deleteTarget id).1 ≠ 0) :
      Commits tables (.deleteTarget id) (tables.deleteTarget id).2.bumped none

variable {store} {terms : Terms Tables} {fail : StoreError → Phase Tables → Prop}
  {tables base new : Tables}

/-! ### The operations -/

/-- What is asked of a setting in which an operation runs: until it commits, an error may be
returned, and a committed effect is allowed and followed by a load. -/
structure Setting (store : Store) (terms : Terms Tables) (fail : StoreError → Phase Tables → Prop)
    (ok : Snapshot × Option Target → Phase Tables → Prop) (tables : Tables)
        (op : Write) : Prop where
  refl : terms.rely tables tables
  trans : ∀ base base', terms.rely tables base → terms.rely base base' → terms.rely tables base'
  touch : ∀ base, terms.touch base base
  fails : ∀ error base, terms.rely tables base → fail error ⟨false, base, none⟩
  commits : ∀ base new target, terms.rely tables base → Commits store base op new target →
    terms.effect base new ∧
      wp terms fail store.loadAfterCommit (fun snapshot ↦ ok (snapshot, target)) ⟨true, new, none⟩

variable {ok : Snapshot × Option Target → Phase Tables → Prop}

/-- Before its transaction an operation may return an error. -/
theorem Setting.throws {op : Write} (h : Setting store terms fail ok tables op)
    (error : StoreError) :
    fail error ⟨false, tables, none⟩ :=
  h.fails error tables h.refl

/-- `SetupAdmin` keeps its contract. -/
theorem Setting.setupAdmin {username password : String}
    (h : Setting store terms fail ok tables (.setupAdmin username password)) :
    wp terms fail (store.write (.setupAdmin username password)) ok ⟨false, tables, none⟩ := by
  simp only [Store.write, wp_bind, wp_pure]
  unfold Store.setupAdmin
  dsimp only
  by_cases hname : Strings.trimSpace username = ""
  · rw [if_pos hname, wp_bind, wp_throw]
    exact h.throws _
  rw [if_neg hname]
  by_cases hlength : Strings.runeCount password < Config.minimumAdminPasswordLength
  · rw [if_pos hlength, wp_bind, wp_throw]
    exact h.throws _
  rw [if_neg hlength, wp_bind, wp_draw]
  refine ⟨h.throws _, fun salt ↦ ?_⟩
  refine wp_begin h.fails fun base hrely hfail ↦ ?_
  refine wp_guarded_select hfail fun existing hexisting ↦ ?_
  obtain rfl := Except.ok.inj hexisting
  cases hfree : base.administrator with
  | some administrator =>
    rw [if_pos (by simp), wp_bind, wp_rollback, wp_bind, wp_throw]
    exact hfail _
  | none =>
    rw [if_neg (by simp)]
    refine wp_guarded_update hfail fun inserted hinserted ↦ ?_
    rw [Tables.insertAdministrator, hfree, if_neg (by simp)] at hinserted
    obtain rfl := Except.ok.inj hinserted
    refine wp_guarded_update hfail fun named hnamed ↦ ?_
    obtain rfl := Except.ok.inj hnamed
    obtain ⟨heffect, hload⟩ := h.commits base _ _ hrely
      (.setupAdmin username password _ hname (Nat.le_of_not_lt hlength) hfree)
    exact wp_finish hfail heffect hload

omit [GCM String] [NetURL] [Net] in
/-- The new hash of `UpdateAccount`: none without a new password. -/
theorem wp_newHash {newPassword : String} {phase : Phase Tables}
    (hfail : ∀ error, fail error phase) :
    wp terms fail
      (if newPassword = "" then return none
        else if Strings.runeCount newPassword < Config.minimumAdminPasswordLength then
          throw passwordTooShort
        else do
          let salt ← draw
          return some (hashPassword (bytesOfDraw 16 salt) newPassword))
      (fun newHash phase' ↦ phase' = phase ∧ (newPassword = "" ∧ newHash = none ∨
        newPassword ≠ "" ∧ Config.minimumAdminPasswordLength ≤ Strings.runeCount newPassword ∧
          ∃ salt, newHash = some (hashPassword salt newPassword))) phase := by
  by_cases hempty : newPassword = ""
  · rw [if_pos hempty, wp_pure]
    exact ⟨rfl, Or.inl ⟨hempty, rfl⟩⟩
  rw [if_neg hempty]
  by_cases hlength : Strings.runeCount newPassword < Config.minimumAdminPasswordLength
  · rw [if_pos hlength, wp_throw]
    exact hfail _
  · rw [if_neg hlength, wp_bind, wp_draw]
    refine ⟨hfail _, fun salt ↦ ?_⟩
    rw [wp_pure]
    exact ⟨rfl, Or.inr ⟨hempty, Nat.le_of_not_lt hlength, _, rfl⟩⟩

/-- `UpdateAccount` keeps its contract. -/
theorem Setting.updateAccount {username newPassword : String}
    (h : Setting store terms fail ok tables (.updateAccount username newPassword)) :
    wp terms fail (store.write (.updateAccount username newPassword)) ok ⟨false, tables, none⟩ := by
  simp only [Store.write, wp_bind, wp_pure]
  unfold Store.updateAccount
  dsimp only
  by_cases hname : Strings.trimSpace username = ""
  · rw [if_pos hname, wp_bind, wp_throw]
    exact h.throws _
  rw [if_neg hname, wp_bind]
  refine wp_mono_ok ?_ (wp_newHash h.throws)
  rintro newHash _ ⟨rfl, hchosen⟩
  refine wp_begin h.fails fun base hrely hfail ↦ ?_
  refine wp_guarded_select hfail fun currentHash hcurrent ↦ ?_
  cases hstored : base.administrator with
  | none =>
    rw [hstored] at hcurrent
    cases hcurrent
  | some administrator =>
    rw [hstored] at hcurrent
    obtain rfl := Except.ok.inj hcurrent
    refine wp_guarded_update hfail fun updated hupdated ↦ ?_
    obtain rfl := Except.ok.inj hupdated
    refine wp_guarded_update hfail fun named hnamed ↦ ?_
    obtain rfl := Except.ok.inj hnamed
    have hhash : newPassword = "" ∧
        newHash.getD administrator.passwordHash = administrator.passwordHash ∨
          newPassword ≠ "" ∧ Config.minimumAdminPasswordLength ≤ Strings.runeCount newPassword ∧
            ∃ salt, newHash.getD administrator.passwordHash = hashPassword salt newPassword := by
      rcases hchosen with ⟨hempty, rfl⟩ | ⟨hnonempty, hlength, salt, rfl⟩
      · exact Or.inl ⟨hempty, rfl⟩
      · exact Or.inr ⟨hnonempty, hlength, salt, rfl⟩
    obtain ⟨heffect, hload⟩ := h.commits base _ _ hrely
      (.updateAccount username newPassword administrator _ hname hstored hhash)
    rw [Tables.updateAdministrator, hstored, Option.map_some]
    exact wp_finish hfail heffect hload

/-- `UpdateCodex` keeps its contract. -/
theorem Setting.updateCodex {value : CodexConfig}
    (h : Setting store terms fail ok tables (.updateCodex value)) :
    wp terms fail (store.write (.updateCodex value)) ok ⟨false, tables, none⟩ := by
  simp only [Store.write, wp_bind, wp_pure]
  unfold Store.updateCodex
  dsimp only
  rw [wp_bind, wp_ofCheck]
  refine ⟨fun message _ ↦ h.throws _, fun hvalid ↦ ?_⟩
  rw [wp_bind, wp_marshal]
  refine ⟨h.throws _, wp_updateSection h.fails fun base hrely ↦ ?_⟩
  exact h.commits base _ _ hrely (.updateCodex value hvalid)

/-- `UpdateWeb` keeps its contract. -/
theorem Setting.updateWeb {value : WebConfig}
    (h : Setting store terms fail ok tables (.updateWeb value)) :
    wp terms fail (store.write (.updateWeb value)) ok ⟨false, tables, none⟩ := by
  simp only [Store.write, wp_bind, wp_pure]
  unfold Store.updateWeb
  dsimp only
  rw [wp_bind, wp_ofCheck]
  refine ⟨fun message _ ↦ h.throws _, fun hvalid ↦ ?_⟩
  rw [wp_bind, wp_marshal]
  refine ⟨h.throws _, wp_updateSection h.fails fun base hrely ↦ ?_⟩
  exact h.commits base _ _ hrely (.updateWeb value hvalid)

omit [Argon2] [NetURL] [Net] in
/-- A token is encrypted while the transaction is open. -/
theorem wp_guarded_encryptToken {β : Type} {token aad : String}
    {translate : StoreError → StoreError} {next : List UInt8 → StoreM β}
    {ok : β → Phase Tables → Prop} (hfail : ∀ error, fail error ⟨false, base, none⟩)
    (hnext : ∀ secret, store.IsSecret token aad secret →
      wp terms fail (next secret) ok ⟨false, base, some ⟨false, new⟩⟩) :
    wp terms fail (orRollback (store.encryptToken token aad) translate >>= next) ok
      ⟨false, base, some ⟨false, new⟩⟩ := by
  refine wp_guarded hfail ?_
  unfold Store.encryptToken
  by_cases htoken : token = ""
  · rw [if_pos htoken, wp_pure]
    exact hnext [] (Or.inl ⟨htoken, rfl⟩)
  · rw [if_neg htoken, wp_bind, wp_draw]
    refine ⟨staged_mk.mpr trivial, fun nonce ↦ ?_⟩
    rw [wp_pure]
    exact hnext _ (Or.inr ⟨htoken, nonce, rfl⟩)

/-- `UpdateOpenILink` keeps its contract. -/
theorem Setting.updateOpenILink {value : OpenILinkConfig} {token : Option String}
    (h : Setting store terms fail ok tables (.updateOpenILink value token)) :
    wp terms fail (store.write (.updateOpenILink value token)) ok ⟨false, tables, none⟩ := by
  simp only [Store.write, wp_bind, wp_pure]
  unfold Store.updateOpenILink
  dsimp only
  refine wp_begin h.fails fun base hrely hfail ↦ ?_
  refine wp_guarded_select hfail fun currentCipher hcipher ↦ ?_
  obtain rfl := Except.ok.inj hcipher
  refine wp_guarded_ofExcept hfail fun current hcurrent ↦ ?_
  refine wp_guarded_ofCheck hfail fun hvalid ↦ ?_
  refine wp_guarded_marshal hfail ?_
  refine wp_guarded_encryptToken hfail fun secret hsecret ↦ ?_
  refine wp_guarded_update hfail fun written hwritten ↦ ?_
  obtain rfl := Except.ok.inj hwritten
  obtain ⟨heffect, hload⟩ := h.commits base _ _ hrely
    (.updateOpenILink value token current _ secret hcurrent rfl hvalid hsecret)
  exact wp_finish hfail heffect hload

/-- `UpdateTelegram` keeps its contract. -/
theorem Setting.updateTelegram {value : TelegramConfig} {token : Option String}
    (h : Setting store terms fail ok tables (.updateTelegram value token)) :
    wp terms fail (store.write (.updateTelegram value token)) ok ⟨false, tables, none⟩ := by
  simp only [Store.write, wp_bind, wp_pure]
  unfold Store.updateTelegram
  dsimp only
  refine wp_begin h.fails fun base hrely hfail ↦ ?_
  refine wp_guarded_select hfail fun currentCipher hcipher ↦ ?_
  obtain rfl := Except.ok.inj hcipher
  refine wp_guarded_ofExcept hfail fun current hcurrent ↦ ?_
  refine wp_guarded_ofCheck hfail fun hvalid ↦ ?_
  refine wp_guarded_marshal hfail ?_
  refine wp_guarded_encryptToken hfail fun secret hsecret ↦ ?_
  refine wp_guarded_update hfail fun written hwritten ↦ ?_
  obtain rfl := Except.ok.inj hwritten
  obtain ⟨heffect, hload⟩ := h.commits base _ _ hrely
    (.updateTelegram value token current _ secret hcurrent rfl hvalid hsecret)
  exact wp_finish hfail heffect hload

omit [Argon2] [NetURL] [Net] in
/-- `insertTargetTx` inserts the row and then its encrypted key. -/
theorem wp_guarded_insertTargetTx {β : Type} {target : Target}
    {translate : StoreError → StoreError} {next : Target → StoreM β}
    {ok : β → Phase Tables → Prop} (hfail : ∀ error, fail error ⟨false, base, none⟩)
    (hnext : ∀ id inserted nonce, new.insertTarget target = .ok (id, inserted) →
      wp terms fail (next { target with id }) ok ⟨false, base, some ⟨false,
        inserted.setTargetKey id (encrypt store.key nonce target.apiKey (targetAPIKeyAAD id))⟩⟩) :
    wp terms fail (orRollback (store.insertTargetTx target) translate >>= next) ok
      ⟨false, base, some ⟨false, new⟩⟩ := by
  refine wp_guarded hfail ?_
  unfold Store.insertTargetTx
  simp only [wp_bind, wp_marshal, wp_exec, wp_draw, wp_update, wp_pure, staged_mk, implies_true,
    true_and]
  intro id inserted hinsert nonce written hwritten
  obtain rfl := Except.ok.inj hwritten
  exact hnext id inserted nonce hinsert

/-- The order that `CreateTarget` chooses. -/
def chosenOrder (tables : Tables) (sortOrder : Int) : Int :=
  if sortOrder < 0 then appendedSortOrder tables.maximumSortOrder else sortOrder

/-- The target that `CreateTarget` writes when it has seen the tables. -/
def placedTarget (tables : Tables) (target : Target) : Target :=
  { Config.normalizeTarget target with
    sortOrder := chosenOrder tables (Config.normalizeTarget target).sortOrder }

section

variable (hrefl : terms.rely tables tables) (htouch : ∀ base, terms.touch base base)
  (hfails : ∀ error base, terms.rely tables base → fail error ⟨false, base, none⟩)

include hrefl htouch hfails

omit [GCM String] [Argon2] [NetURL] [Net] in
/-- The order of a new target: without one, the tables are looked up. -/
theorem wp_chosenOrder (sortOrder : Int) :
    wp terms fail
      (if sortOrder < 0 then do
          let maximum ← direct .request fun tables ↦ .ok (tables.maximumSortOrder, tables)
          return appendedSortOrder maximum
        else return sortOrder)
      (fun chosen phase ↦ ∃ seen, terms.rely tables seen ∧ phase = ⟨false, seen, none⟩ ∧
        chosen = chosenOrder seen sortOrder) ⟨false, tables, none⟩ := by
  by_cases hnegative : sortOrder < 0
  · rw [if_pos hnegative, wp_bind, wp_direct]
    intro seen hrely
    refine ⟨fun _ error ↦ hfails _ seen hrely, nofun, ?_⟩
    intro maximum read hread
    obtain ⟨rfl, rfl⟩ := Prod.mk.inj (Except.ok.inj hread)
    rw [wp_pure]
    exact ⟨htouch seen, seen, hrely, rfl, (if_pos hnegative).symm⟩
  · rw [if_neg hnegative, wp_pure]
    exact ⟨tables, hrefl, rfl, (if_neg hnegative).symm⟩

omit [Argon2] [Net] in
/-- `CreateTarget` looks up the order, and inserts the target into the tables that it finds then. -/
theorem wp_createTarget {target : Target} {ok : Snapshot × Target → Phase Tables → Prop}
    (htrans : ∀ seen base, terms.rely tables seen → terms.rely seen base → terms.rely tables base)
    (hcommits : ∀ seen base id inserted nonce, terms.rely tables base →
      (terms.rely tables seen ∧ terms.rely seen base) →
      Config.validateTarget (placedTarget seen target) = .ok () →
      base.insertTarget (placedTarget seen target) = .ok (id, inserted) →
      terms.effect base (inserted.setTargetKey id (encrypt store.key nonce
          (placedTarget seen target).apiKey (targetAPIKeyAAD id))).bumped ∧
        wp terms fail store.loadAfterCommit
          (fun snapshot ↦ ok (snapshot, { placedTarget seen target with id }))
          ⟨true, (inserted.setTargetKey id (encrypt store.key nonce
            (placedTarget seen target).apiKey (targetAPIKeyAAD id))).bumped, none⟩) :
    wp terms fail (store.createTarget target) ok ⟨false, tables, none⟩ := by
  unfold Store.createTarget
  dsimp only
  rw [wp_bind]
  refine wp_mono_ok ?_ (wp_chosenOrder hrefl htouch hfails _)
  rintro sortOrder _ ⟨seen, hseen, rfl, hchosen⟩
  have hplaced : { Config.normalizeTarget target with sortOrder } = placedTarget seen target := by
    rw [hchosen]
    rfl
  rw [hplaced, wp_bind, wp_ofCheck]
  refine ⟨fun message _ ↦ hfails _ seen hseen, fun hvalid ↦ ?_⟩
  refine wp_begin (fun error base hrely ↦ hfails error base (htrans seen base hseen hrely))
    fun base hrely hfail ↦ ?_
  refine wp_guarded_insertTargetTx hfail fun id inserted nonce hinsert ↦ ?_
  obtain ⟨heffect, hload⟩ := hcommits seen base id inserted nonce (htrans seen base hseen hrely)
    ⟨hseen, hrely⟩ hvalid hinsert
  refine wp_finish hfail heffect ?_
  simp only [wp_bind, wp_pure]
  exact hload

end

/-- `CreateTarget` keeps its contract. -/
theorem Setting.createTarget {target : Target}
    (h : Setting store terms fail ok tables (.createTarget target)) :
    wp terms fail (store.write (.createTarget target)) ok ⟨false, tables, none⟩ := by
  simp only [Store.write, wp_bind, wp_pure]
  refine wp_createTarget h.refl h.touch h.fails h.trans ?_
  intro seen base id inserted nonce hrely _ hvalid hinsert
  rw [placedTarget] at hvalid hinsert ⊢
  generalize hchosen : chosenOrder seen (Config.normalizeTarget target).sortOrder = sortOrder at *
  have horder : 0 ≤ (Config.normalizeTarget target).sortOrder →
      sortOrder = (Config.normalizeTarget target).sortOrder := fun hpositive ↦
    hchosen.symm.trans (if_neg (Int.not_lt.mpr hpositive))
  dsimp only
  exact h.commits base _ _ hrely
    (.createTarget target sortOrder id inserted nonce hvalid horder hinsert)

/-- `UpdateTarget` keeps its contract. -/
theorem Setting.updateTarget {id : Int} {target : Target} {apiKey : Option String}
    (h : Setting store terms fail ok tables (.updateTarget id target apiKey)) :
    wp terms fail (store.write (.updateTarget id target apiKey)) ok ⟨false, tables, none⟩ := by
  simp only [Store.write, wp_bind, wp_pure]
  unfold Store.updateTarget
  dsimp only
  refine wp_begin h.fails fun base hrely hfail ↦ ?_
  refine wp_guarded_select hfail fun row hread ↦ ?_
  have hrow : base.target? id = some row := by
    revert hread
    cases base.target? id with
    | none => exact nofun
    | some stored => exact fun hread ↦ congrArg some (Except.ok.inj hread)
  refine wp_guarded_ofExcept hfail fun plain hdecrypt ↦ ?_
  have hplain : decrypt store.key row.apiKey (targetAPIKeyAAD id) = some plain := by
    revert hdecrypt
    cases decrypt store.key row.apiKey (targetAPIKeyAAD id) with
    | none => exact nofun
    | some stored => exact fun hdecrypt ↦ congrArg some (Except.ok.inj hdecrypt)
  generalize hedited : editedTarget id row.sortOrder plain target apiKey = edited
  refine wp_guarded_ofCheck hfail fun hvalid ↦ ?_
  refine wp_guarded_draw hfail fun nonce ↦ wp_guarded_marshal hfail ?_
  refine wp_guarded_update hfail fun written hwritten ↦ ?_
  obtain ⟨heffect, hload⟩ := h.commits base _ _ hrely
    (.updateTarget id target apiKey row plain edited written nonce hrow hplain hedited.symm hvalid
      hwritten)
  refine wp_finish hfail heffect ?_
  simp only [wp_bind, wp_pure]
  exact hload

/-- `DeleteTarget` keeps its contract. -/
theorem Setting.deleteTarget {id : Int} (h : Setting store terms fail ok tables
    (.deleteTarget id)) :
    wp terms fail (store.write (.deleteTarget id)) ok ⟨false, tables, none⟩ := by
  simp only [Store.write, wp_bind, wp_pure]
  unfold Store.deleteTarget
  refine wp_begin h.fails fun base hrely hfail ↦ ?_
  refine wp_guarded_exec hfail fun affected deleted hdeleted ↦ ?_
  have hpair : base.deleteTarget id = (affected, deleted) := Except.ok.inj hdeleted
  by_cases hfound : affected = 0
  · rw [if_pos hfound, wp_bind, wp_rollback, wp_bind, wp_throw]
    exact hfail _
  · rw [if_neg hfound]
    obtain ⟨heffect, hload⟩ := h.commits base _ _ hrely
      (.deleteTarget id (by rw [hpair]; exact hfound))
    rw [hpair] at heffect hload
    exact wp_finish hfail heffect hload

/-- Every operation that writes keeps its contract. -/
theorem wp_write {op : Write} (h : Setting store terms fail ok tables op) :
    wp terms fail (store.write op) ok ⟨false, tables, none⟩ := by
  cases op with
  | setupAdmin username password => exact h.setupAdmin
  | updateAccount username newPassword => exact h.updateAccount
  | updateCodex value => exact h.updateCodex
  | updateWeb value => exact h.updateWeb
  | updateOpenILink value token => exact h.updateOpenILink
  | updateTelegram value token => exact h.updateTelegram
  | createTarget target => exact h.createTarget
  | updateTarget id target apiKey => exact h.updateTarget
  | deleteTarget id => exact h.deleteTarget

/-! ### A fresh database -/

omit [GCM String] [Argon2] [NetURL] [Net] in
/-- The tables that hold the defaults. -/
def freshTables : Tables where
  configRevision := 1
  loadedStartupRevision := 0
  suggestedUsername := "admin"
  administrator := none
  codex := ⟨1, { toPersistedCodex Config.defaultDatabaseConfig.codex with prompts := none }, []⟩
  openILink := ⟨1, toPersistedOpenILink Config.defaultDatabaseConfig.openILink, []⟩
  telegram := ⟨1, toPersistedTelegram Config.defaultDatabaseConfig.telegram, []⟩
  web := ⟨1, toPersistedWeb Config.defaultDatabaseConfig.web, []⟩
  targets := []
  sequence := 0

omit [Argon2] [Net] in
/-- `initialize` accepts the defaults, and stores them. -/
theorem initialize_default (draws : ℕ → ℕ) :
    store.initialize draws Config.defaultDatabaseConfig
      Config.defaultDatabaseConfig.web.adminUsername = .ok freshTables := by
  have hprepared : preparedConfig Config.defaultDatabaseConfig = Config.defaultDatabaseConfig := rfl
  have hvalid := Config.validateAllowEmptyTargets_eq_ok.mpr Config.accepted_defaultDatabaseConfig
  unfold Store.initialize
  rw [hprepared]
  dsimp only
  rw [hvalid]
  rfl

omit [Argon2] [Net] in
/-- A fresh database holds the defaults. -/
theorem fresh_iff : store.Fresh tables ↔ tables = freshTables := by
  simp only [Store.Fresh, initialize_default, Except.ok.injEq, exists_const]
  exact eq_comm

end

/-- A store with a key of zeros and no prompt file. -/
def sampleStore : Store :=
  ⟨List.replicate 32 0, fun _ ↦ none⟩

end CodexQueueBot.Storage
