import CodexQueueBot.Storage.Operations

/-!
# Rules for functions of the store

The weakest precondition of a function of the store has two postconditions: one for an error and one
for a value. There is one rule for each call, so that the precondition of an operation unfolds along
its source. `snapshot` is what `loadFrom` makes of tables that do not change while it reads, and
`wp_load` says that `Load` returns it, or fails from outside.
-/

set_option autoImplicit false
set_option relaxedAutoImplicit false

namespace CodexQueueBot.Storage

open Go Lib Lib.Prog

/-! ### Calls -/

section

variable {α β : Type} (terms : Terms Tables) (fail : StoreError → Phase Tables → Prop)

/-- What holds after a function of the store. -/
def after (ok : α → Phase Tables → Prop) : Except StoreError α → Phase Tables → Prop
  | .error error => fail error
  | .ok value => ok value

/-- The weakest precondition of a function of the store. -/
def wp (call : StoreM α) (ok : α → Phase Tables → Prop) (phase : Phase Tables) : Prop :=
  Prog.wp terms call.run (after fail ok) phase

variable (phase : Phase Tables)

/-- A value that is returned. -/
theorem wp_pure (value : α) (ok : α → Phase Tables → Prop) :
    wp terms fail (pure value) ok = ok value :=
  rfl

/-- An error that is returned. -/
theorem wp_throw (error : StoreError) (ok : α → Phase Tables → Prop) :
    wp terms fail (throw error) ok phase ↔ fail error phase :=
  Iff.rfl

/-- A result that is computed without the database. -/
theorem wp_ofExcept (result : Except StoreError α) (ok : α → Phase Tables → Prop) :
    wp terms fail (ofExcept result) ok phase ↔ after fail ok result phase :=
  Iff.rfl

/-- A sequence ends with the first error. -/
theorem wp_bind (call : StoreM α) (next : α → StoreM β) (ok : β → Phase Tables → Prop) :
    wp terms fail (call >>= next) ok phase ↔
      wp terms fail call (fun value ↦ wp terms fail (next value) ok) phase := by
  unfold wp
  refine (Prog.wp_bind call.run _ _ phase).trans (iff_of_eq ?_)
  congr 1
  funext result phase
  cases result <;> rfl

/-- A rollback needs the transaction open. -/
theorem wp_orRollback (call : StoreM α) (translate : StoreError → StoreError)
    (ok : α → Phase Tables → Prop) :
    wp terms fail (orRollback call translate) ok phase ↔
      wp terms (fun error phase ↦ phase.tx.isSome ∧ fail (translate error)
          { phase with tx := none })
        call ok phase := by
  unfold wp
  refine (Prog.wp_bind call.run _ _ phase).trans (iff_of_eq ?_)
  congr 1
  funext result phase
  cases result <;> rfl

/-- The context stands around the error. -/
theorem wp_inContext (context : Message) (call : StoreM α) (ok : α → Phase Tables → Prop) :
    wp terms fail (inContext context call) ok phase ↔
      wp terms (fun error ↦ fail (.wrapped context error)) call ok phase := by
  unfold wp
  refine (Prog.wp_bind call.run _ _ phase).trans (iff_of_eq ?_)
  congr 1
  funext result phase
  cases result <;> rfl

/-- A check fails with its text. -/
theorem wp_ofCheck (result : Except Message Unit) (ok : Unit → Phase Tables → Prop) :
    wp terms fail (ofCheck result) ok phase ↔
      (∀ message, result = .error message → fail (.message message) phase) ∧
        (result = .ok () → ok () phase) := by
  rw [ofCheck, wp_ofExcept]
  cases result <;> simp [Except.mapError, after]

/-- A draw fails, or gives any number. -/
theorem wp_draw (ok : ℕ → Phase Tables → Prop) :
    wp terms fail draw ok phase ↔ fail .failed phase ∧ ∀ number, ok number phase := by
  constructor
  · intro h
    exact ⟨h none, fun number ↦ h (some number)⟩
  · intro h reply
    cases reply with
    | none => exact h.1
    | some number => exact h.2 number

/-- An encoding fails, or keeps the value. -/
theorem wp_marshal (value : α) (ok : α → Phase Tables → Prop) :
    wp terms fail (marshal value) ok phase ↔ fail .failed phase ∧ ok value phase := by
  rw [marshal, wp_bind, wp_draw]
  simp only [wp_pure, forall_const]

end

section

variable {α : Type} {terms : Terms Tables} {fail : StoreError → Phase Tables → Prop}
  {spent : Bool} {tables : Tables} {tx : Tx Tables} {ctx : Ctx}

/-- A transaction begins with the committed tables, as others have left them. -/
theorem wp_beginTx {readOnly : Bool} {ok : Unit → Phase Tables → Prop} :
    wp terms fail (beginTx ctx readOnly) ok ⟨spent, tables, none⟩ ↔
      ∀ base, terms.rely tables base →
        (terms.faulty ctx → ∀ error, fail (.sql error) ⟨spent, base, none⟩) ∧
          ok () ⟨spent, base, some ⟨readOnly, base⟩⟩ := by
  constructor
  · intro h base hrely
    obtain ⟨hfault, hfine⟩ := h.2 base hrely
    exact ⟨fun hfaulty error ↦ hfault error hfaulty, hfine⟩
  · intro h
    refine ⟨rfl, fun base hrely ↦ ?_⟩
    obtain ⟨hfault, hfine⟩ := h base hrely
    exact ⟨fun error hfaulty ↦ hfault hfaulty error, hfine⟩

/-- A statement fails from outside or on its own, or changes the tables of the transaction. -/
theorem wp_exec {run : Tables → Except SQLError (α × Tables)} {ok : α → Phase Tables → Prop} :
    wp terms fail (exec ctx run) ok ⟨spent, tables, some tx⟩ ↔
      (terms.faulty ctx → ∀ error, fail (.sql error) ⟨spent, tables, some tx⟩) ∧
        (∀ error, run tx.tables = .error error → fail (.sql error) ⟨spent, tables, some tx⟩) ∧
          ∀ reply new, run tx.tables = .ok (reply, new) →
            ok reply ⟨spent, tables, some { tx with tables := new }⟩ := by
  have hunfold : wp terms fail (exec ctx run) ok ⟨spent, tables, some tx⟩ ↔
      (∀ error, terms.faulty ctx → fail (.sql error) ⟨spent, tables, some tx⟩) ∧
        match run tx.tables with
        | .error error => fail (.sql error) ⟨spent, tables, some tx⟩
        | .ok (reply, new) => ok reply ⟨spent, tables, some { tx with tables := new }⟩ := by
    unfold wp exec
    rw [ExceptT.run_mk, Prog.wp]
    constructor
    · rintro ⟨tx', htx, hfault, hfine⟩
      obtain rfl := Option.some.inj htx
      refine ⟨hfault, ?_⟩
      revert hfine
      cases run tx.tables <;> exact id
    · rintro ⟨hfault, hfine⟩
      refine ⟨tx, rfl, hfault, ?_⟩
      revert hfine
      cases run tx.tables <;> exact id
  rw [hunfold, forall_comm]
  refine and_congr_right fun _ ↦ ?_
  cases run tx.tables with
  | error error => simp
  | ok reply => simp [Prod.ext_iff]

/-- A statement that only reads. -/
theorem wp_select {read : Tables → Except SQLError α} {ok : α → Phase Tables → Prop} :
    wp terms fail (select ctx read) ok ⟨spent, tables, some tx⟩ ↔
      (terms.faulty ctx → ∀ error, fail (.sql error) ⟨spent, tables, some tx⟩) ∧
        (∀ error, read tx.tables = .error error → fail (.sql error) ⟨spent, tables, some tx⟩) ∧
          ∀ reply, read tx.tables = .ok reply → ok reply ⟨spent, tables, some tx⟩ := by
  rw [select, wp_exec]
  cases read tx.tables with
  | error error => simp [Except.map]
  | ok reply => simp [Except.map]

/-- A statement that only writes. -/
theorem wp_update {write : Tables → Except SQLError Tables} {ok : Unit → Phase Tables → Prop} :
    wp terms fail (update ctx write) ok ⟨spent, tables, some tx⟩ ↔
      (terms.faulty ctx → ∀ error, fail (.sql error) ⟨spent, tables, some tx⟩) ∧
        (∀ error, write tx.tables = .error error → fail (.sql error) ⟨spent, tables, some tx⟩) ∧
          ∀ new, write tx.tables = .ok new →
            ok () ⟨spent, tables, some { tx with tables := new }⟩ := by
  rw [update, wp_exec]
  cases write tx.tables with
  | error error => simp [Except.map]
  | ok new => simp [Except.map, Unique.forall_iff]

/-- A statement outside a transaction. -/
theorem wp_direct {run : Tables → Except SQLError (α × Tables)} {ok : α → Phase Tables → Prop} :
    wp terms fail (direct ctx run) ok ⟨spent, tables, none⟩ ↔
      ∀ base, terms.rely tables base →
        (terms.faulty ctx → ∀ error, fail (.sql error) ⟨spent, base, none⟩) ∧
          (∀ error, run base = .error error → fail (.sql error) ⟨spent, base, none⟩) ∧
            ∀ reply new, run base = .ok (reply, new) →
              terms.touch base new ∧ ok reply ⟨spent, new, none⟩ := by
  have hunfold : wp terms fail (direct ctx run) ok ⟨spent, tables, none⟩ ↔
      ∀ base, terms.rely tables base →
        (∀ error, terms.faulty ctx → fail (.sql error) ⟨spent, base, none⟩) ∧
          match run base with
          | .error error => fail (.sql error) ⟨spent, base, none⟩
          | .ok (reply, new) => terms.touch base new ∧ ok reply ⟨spent, new, none⟩ := by
    constructor
    · intro h base hrely
      refine ⟨(h.2 base hrely).1, ?_⟩
      have hfine := (h.2 base hrely).2
      revert hfine
      cases run base <;> exact id
    · intro h
      refine ⟨rfl, fun base hrely ↦ ⟨(h base hrely).1, ?_⟩⟩
      have hfine := (h base hrely).2
      revert hfine
      cases run base <;> exact id
  rw [hunfold]
  refine forall₂_congr fun base _ ↦ ?_
  rw [forall_comm]
  refine and_congr_right fun _ ↦ ?_
  cases run base with
  | error error => simp
  | ok reply => simp [Prod.ext_iff]

/-- The commit of a transaction that only reads. -/
theorem wp_commit_readOnly {new : Tables} {ok : Unit → Phase Tables → Prop} :
    wp terms fail (commit ctx) ok ⟨spent, tables, some ⟨true, new⟩⟩ ↔
      (terms.faulty ctx → ∀ error, fail (.sql error) ⟨spent, tables, none⟩) ∧
        ok () ⟨spent, tables, none⟩ := by
  constructor
  · rintro ⟨tx', htx, hfault, hfine⟩
    obtain rfl := Option.some.inj htx
    exact ⟨fun hfaulty error ↦ hfault error hfaulty, hfine⟩
  · rintro ⟨hfault, hfine⟩
    exact ⟨_, rfl, fun error hfaulty ↦ hfault hfaulty error, hfine⟩

/-- The commit of a transaction that writes. -/
theorem wp_commit {new : Tables} {ok : Unit → Phase Tables → Prop} :
    wp terms fail (commit ctx) ok ⟨spent, tables, some ⟨false, new⟩⟩ ↔
      (terms.faulty ctx → ∀ error, fail (.sql error) ⟨spent, tables, none⟩) ∧
        spent = false ∧ terms.effect tables new ∧ ok () ⟨true, new, none⟩ := by
  constructor
  · rintro ⟨tx', htx, hfault, hfine⟩
    obtain rfl := Option.some.inj htx
    exact ⟨fun hfaulty error ↦ hfault error hfaulty, hfine⟩
  · rintro ⟨hfault, hfine⟩
    exact ⟨_, rfl, fun error hfaulty ↦ hfault hfaulty error, hfine⟩

/-- A rollback. -/
theorem wp_rollback {ok : Unit → Phase Tables → Prop} :
    wp terms fail rollback ok ⟨spent, tables, some tx⟩ ↔ ok () ⟨spent, tables, none⟩ := by
  constructor
  · exact fun h ↦ h.2
  · exact fun h ↦ ⟨rfl, h⟩

/-- A weaker postcondition for errors has a weaker precondition. -/
theorem wp_mono_fail {α : Type} {fail' : StoreError → Phase Tables → Prop} {call : StoreM α}
    {ok : α → Phase Tables → Prop} {phase : Phase Tables}
    (himp : ∀ error phase, fail error phase → fail' error phase)
    (h : wp terms fail call ok phase) : wp terms fail' call ok phase := by
  refine Prog.wp_mono ?_ h
  intro result phase hafter
  cases result with
  | error error => exact himp error phase hafter
  | ok value => exact hafter

/-- A weaker postcondition for values has a weaker precondition. -/
theorem wp_mono_ok {α : Type} {call : StoreM α} {ok ok' : α → Phase Tables → Prop}
    {phase : Phase Tables} (himp : ∀ value phase, ok value phase → ok' value phase)
    (h : wp terms fail call ok phase) : wp terms fail call ok' phase := by
  refine Prog.wp_mono ?_ h
  intro result phase hafter
  cases result with
  | error error => exact hafter
  | ok value => exact himp value phase hafter

/-- The precondition for what a function returns, an error or a value. -/
theorem run_wp {α : Type} {call : StoreM α} {post : Except StoreError α → Phase Tables → Prop}
    {phase : Phase Tables}
    (h : wp terms (fun error ↦ post (.error error)) call (fun value ↦ post (.ok value)) phase) :
    Prog.wp terms call.run post phase := by
  refine Prog.wp_mono ?_ h
  intro result phase hafter
  cases result <;> exact hafter

end

attribute [irreducible] wp

section

variable {terms : Terms Tables} {fail : StoreError → Phase Tables → Prop} {spent : Bool}
  {tables : Tables} {ctx : Ctx}

/-- A read with its context, and what follows it. -/
theorem wp_read {α β : Type} {tx : Tx Tables} {context : Message} {read : Tables → α}
    {next : α → StoreM β} {ok : β → Phase Tables → Prop}
    (hfault : terms.faulty ctx → ∀ error, fail error ⟨spent, tables, some tx⟩)
    (hnext : wp terms fail (next (read tx.tables)) ok ⟨spent, tables, some tx⟩) :
    wp terms fail (inContext context (select ctx fun tables ↦ .ok (read tables)) >>= next) ok
      ⟨spent, tables, some tx⟩ := by
  rw [wp_bind, wp_inContext, wp_select]
  refine ⟨fun hfaulty error ↦ hfault hfaulty _, ?_, ?_⟩
  · intro error herror
    cases herror
  · intro reply hreply
    obtain rfl := Except.ok.inj hreply
    exact hnext

end

/-! ### Inside a transaction -/

/-- The tables with the next revision. -/
def Tables.bumped (tables : Tables) : Tables :=
  { tables with configRevision := tables.configRevision + 1 }

section

variable {terms : Terms Tables} {fail : StoreError → Phase Tables → Prop}
  {tables base new : Tables}

/-- Nothing is committed since the transaction began, and it is open: a rollback leaves the tables
that it began with. -/
def Staged (base : Tables) (_ : StoreError) (phase : Phase Tables) : Prop :=
  phase.tx.isSome ∧ phase.spent = false ∧ phase.tables = base

@[simp]
theorem staged_mk {error : StoreError} {tx : Tx Tables} :
    Staged base error ⟨false, base, some tx⟩ ↔ True := by
  simp [Staged]

/-- A call whose error is rolled back, and what follows it. -/
theorem wp_guarded {α β : Type} {call : StoreM α} {translate : StoreError → StoreError}
    {next : α → StoreM β} {ok : β → Phase Tables → Prop} {phase : Phase Tables}
    (hfail : ∀ error, fail error ⟨false, base, none⟩)
    (hcall : wp terms (Staged base) call (fun value ↦ wp terms fail (next value) ok) phase) :
    wp terms fail (orRollback call translate >>= next) ok phase := by
  rw [wp_bind, wp_orRollback]
  refine wp_mono_fail ?_ hcall
  rintro error ⟨spent, tables, tx⟩ ⟨hopen, rfl, rfl⟩
  exact ⟨hopen, hfail _⟩

/-- A transaction that writes begins with the committed tables. -/
theorem wp_begin {β : Type} {next : Unit → StoreM β} {ok : β → Phase Tables → Prop}
    (hfail : ∀ error base, terms.rely tables base → fail error ⟨false, base, none⟩)
    (hnext : ∀ base, terms.rely tables base → (∀ error, fail error ⟨false, base, none⟩) →
      wp terms fail (next ()) ok ⟨false, base, some ⟨false, base⟩⟩) :
    wp terms fail (beginTx .request false >>= next) ok ⟨false, tables, none⟩ := by
  rw [wp_bind, wp_beginTx]
  intro base hrely
  exact ⟨fun _ error ↦ hfail _ base hrely, hnext base hrely fun error ↦ hfail error base hrely⟩

section

variable {α β : Type} {translate : StoreError → StoreError} {ok : β → Phase Tables → Prop}
  (hfail : ∀ error, fail error ⟨false, base, none⟩)

include hfail

/-- A statement of the transaction, and what follows it. -/
theorem wp_guarded_exec {run : Tables → Except SQLError (α × Tables)} {next : α → StoreM β}
    (hnext : ∀ reply written, run new = .ok (reply, written) →
      wp terms fail (next reply) ok ⟨false, base, some ⟨false, written⟩⟩) :
    wp terms fail (orRollback (exec .request run) translate >>= next) ok
      ⟨false, base, some ⟨false, new⟩⟩ := by
  refine wp_guarded hfail ?_
  simpa only [wp_exec, staged_mk, implies_true, true_and] using hnext

/-- A statement of the transaction that reads, and what follows it. -/
theorem wp_guarded_select {read : Tables → Except SQLError α} {next : α → StoreM β}
    (hnext : ∀ reply, read new = .ok reply →
      wp terms fail (next reply) ok ⟨false, base, some ⟨false, new⟩⟩) :
    wp terms fail (orRollback (select .request read) translate >>= next) ok
      ⟨false, base, some ⟨false, new⟩⟩ := by
  refine wp_guarded hfail ?_
  simpa only [wp_select, staged_mk, implies_true, true_and] using hnext

/-- A statement of the transaction that writes, and what follows it. -/
theorem wp_guarded_update {write : Tables → Except SQLError Tables} {next : Unit → StoreM β}
    (hnext : ∀ written, write new = .ok written →
      wp terms fail (next ()) ok ⟨false, base, some ⟨false, written⟩⟩) :
    wp terms fail (orRollback (update .request write) translate >>= next) ok
      ⟨false, base, some ⟨false, new⟩⟩ := by
  refine wp_guarded hfail ?_
  simpa only [wp_update, staged_mk, implies_true, true_and] using hnext

/-- A result that is computed while the transaction is open, and what follows it. -/
theorem wp_guarded_ofExcept {result : Except StoreError α} {next : α → StoreM β}
    (hnext : ∀ value, result = .ok value →
      wp terms fail (next value) ok ⟨false, base, some ⟨false, new⟩⟩) :
    wp terms fail (orRollback (ofExcept result) translate >>= next) ok
      ⟨false, base, some ⟨false, new⟩⟩ := by
  refine wp_guarded hfail ?_
  rw [wp_ofExcept]
  cases result with
  | error error => exact ⟨rfl, rfl, rfl⟩
  | ok value => exact hnext value rfl

/-- A check of the configuration while the transaction is open, and what follows it. -/
theorem wp_guarded_ofCheck {result : Except Message Unit} {next : Unit → StoreM β}
    (hnext : result = .ok () → wp terms fail (next ()) ok ⟨false, base, some ⟨false, new⟩⟩) :
    wp terms fail (orRollback (ofCheck result) translate >>= next) ok
      ⟨false, base, some ⟨false, new⟩⟩ := by
  refine wp_guarded hfail ?_
  simpa only [wp_ofCheck, staged_mk, implies_true, true_and] using hnext

/-- A draw while the transaction is open, and what follows it. -/
theorem wp_guarded_draw {next : ℕ → StoreM β}
    (hnext : ∀ number, wp terms fail (next number) ok ⟨false, base, some ⟨false, new⟩⟩) :
    wp terms fail (orRollback draw translate >>= next) ok ⟨false, base, some ⟨false, new⟩⟩ := by
  refine wp_guarded hfail ?_
  simpa only [wp_draw, staged_mk, true_and] using hnext

/-- An encoding while the transaction is open, and what follows it. -/
theorem wp_guarded_marshal {value : α} {next : α → StoreM β}
    (hnext : wp terms fail (next value) ok ⟨false, base, some ⟨false, new⟩⟩) :
    wp terms fail (orRollback (marshal value) translate >>= next) ok
      ⟨false, base, some ⟨false, new⟩⟩ := by
  refine wp_guarded hfail ?_
  simpa only [wp_marshal, staged_mk, true_and] using hnext

end

/-- The revision is read and written in the transaction. -/
theorem wp_bumpRevisionTx {ok : Int → Phase Tables → Prop}
    (hok : ∀ revision, ok revision ⟨false, base, some ⟨false, new.bumped⟩⟩) :
    wp terms (Staged base) (bumpRevisionTx .request) ok ⟨false, base, some ⟨false, new⟩⟩ := by
  unfold bumpRevisionTx
  refine wp_read (fun _ error ↦ by simp) ?_
  simp only [wp_bind, wp_inContext, wp_update, wp_pure, staged_mk, implies_true, true_and]
  intro written hwritten
  obtain rfl := Except.ok.inj hwritten
  exact hok _

/-- The end of a transaction that writes: the revision, the commit, and what follows it. -/
theorem wp_finish {β : Type} {next : Unit → StoreM β} {ok : β → Phase Tables → Prop}
    (hfail : ∀ error, fail error ⟨false, base, none⟩) (heffect : terms.effect base new.bumped)
    (hnext : wp terms fail (next ()) ok ⟨true, new.bumped, none⟩) :
    wp terms fail (do
      let _ ← orRollback (bumpRevisionTx .request) unchanged
      next (← commit .request)) ok ⟨false, base, some ⟨false, new⟩⟩ := by
  refine wp_guarded hfail (wp_bumpRevisionTx fun revision ↦ ?_)
  rw [wp_bind, wp_commit]
  exact ⟨fun _ error ↦ hfail _, rfl, heffect, hnext⟩

/-- The end of `updateSection`: the row of a section is there, and its update is committed. -/
theorem wp_updateSection {α : Type} {write : Tables → Tables} {next : Unit → StoreM α}
    {ok : α → Phase Tables → Prop}
    (hfail : ∀ error base, terms.rely tables base → fail error ⟨false, base, none⟩)
    (hcommit : ∀ base, terms.rely tables base → terms.effect base (write base).bumped ∧
      wp terms fail (next ()) ok ⟨true, (write base).bumped, none⟩) :
    wp terms fail (updateSection write >>= next) ok ⟨false, tables, none⟩ := by
  rw [wp_bind]
  unfold updateSection
  refine wp_begin hfail fun base hrely hfail ↦ ?_
  refine wp_guarded_exec hfail fun affected written hwritten ↦ ?_
  obtain ⟨rfl, rfl⟩ := Prod.mk.inj (Except.ok.inj hwritten)
  rw [if_neg (by simp)]
  obtain ⟨heffect, hnext⟩ := hcommit base hrely
  refine wp_guarded hfail (wp_bumpRevisionTx fun revision ↦ ?_)
  rw [wp_commit]
  exact ⟨fun _ error ↦ hfail _, rfl, heffect, hnext⟩

end

/-! ### Loading -/

section

variable [GCM String] [NetURL] (store : Store)

/-- The configuration that tables hold, given what their secrets and the targets decode to. -/
def Store.assemble (tables : Tables) (openILink : OpenILinkConfig) (telegram : TelegramConfig)
    (targets : List Target) : Config where
  codex := { store.decodeCodex tables.codex.data with targets }
  openILink := openILink
  telegram := telegram
  web := { fromPersistedWeb tables.web.data with
    adminUsername := (tables.administrator.map (·.username)).getD tables.suggestedUsername }

/-- The snapshot of tables that hold a configuration. -/
def Tables.snapshotOf (tables : Tables) (config : Config) : Snapshot where
  config := config
  revision := tables.configRevision
  sectionRevisions := fun
    | .codex => tables.codex.revision
    | .openilink => tables.openILink.revision
    | .telegram => tables.telegram.revision
    | .web => tables.web.revision
  loadedStartupRevision := tables.loadedStartupRevision
  setupRequired := tables.administrator.isNone
  suggestedUsername := tables.suggestedUsername

/-- What `loadFrom` makes of tables. -/
def Store.snapshot (tables : Tables) : Except StoreError Snapshot := do
  let openILink ← store.decodeOpenILink tables.openILink
  let telegram ← store.decodeTelegram tables.telegram
  let targets ← tables.orderedTargets.mapM store.decodeTarget
  if tables.suggestedUsername = "" then
    throw (.message [.text "metadata suggested_username is missing"])
  let config := store.assemble tables openILink telegram targets
  (config.validateAllowEmptyTargets.mapError .message).mapError
    (.wrapped [.text "validate stored configuration: "])
  return tables.snapshotOf config

variable {terms : Terms Tables} {fail : StoreError → Phase Tables → Prop}
  {ok : Snapshot → Phase Tables → Prop} {spent : Bool} {tables : Tables} {ctx : Ctx}

omit [GCM String] [NetURL] in
/-- A result that is computed on the way, and what follows it. -/
theorem wp_compute {α β γ : Type} {phase : Phase Tables} {result : Except StoreError α}
    {next : α → StoreM β} {rest : α → Except StoreError γ} {ok : β → Phase Tables → Prop}
    {ok' : γ → Phase Tables → Prop} (hresult : after fail ok' (result >>= rest) phase)
    (hnext : ∀ value, after fail ok' (rest value) phase → wp terms fail (next value) ok phase) :
    wp terms fail (ofExcept result >>= next) ok phase := by
  rw [wp_bind, wp_ofExcept]
  cases result with
  | error error => exact hresult
  | ok value => exact hnext value hresult

omit [GCM String] [NetURL] in
/-- The context of a result that is computed without the database. -/
theorem inContext_ofExcept {α : Type} (context : Message) (result : Except StoreError α) :
    inContext context (ofExcept result) = ofExcept (result.mapError (.wrapped context)) := by
  cases result <;> rfl

/-- `loadFrom` returns the snapshot of the tables of its transaction, or fails from outside. -/
theorem wp_loadFrom {tx : Tx Tables}
    (hfault : terms.faulty ctx → ∀ error, fail error ⟨spent, tables, some tx⟩)
    (hresult : after fail ok (store.snapshot tx.tables) ⟨spent, tables, some tx⟩) :
    wp terms fail (store.loadFrom ctx) ok ⟨spent, tables, some tx⟩ := by
  unfold Store.loadFrom
  unfold Store.snapshot at hresult
  refine wp_read hfault (wp_read hfault (wp_read hfault (wp_read hfault ?_)))
  refine wp_compute hresult fun openILink hresult ↦ wp_compute hresult fun telegram hresult ↦ ?_
  refine wp_read hfault (wp_compute hresult fun targets hresult ↦ ?_)
  refine wp_read hfault (wp_read hfault (wp_read hfault ?_))
  by_cases hmissing : tx.tables.suggestedUsername = ""
  · rw [if_pos hmissing] at hresult ⊢
    rw [wp_bind, wp_throw]
    exact hresult
  · rw [if_neg hmissing] at hresult ⊢
    refine wp_read hfault ?_
    extract_lets config
    rw [ofCheck, inContext_ofExcept]
    refine wp_compute hresult fun _ hresult ↦ ?_
    rw [wp_pure]
    exact hresult

/-- `Load` returns the snapshot of the committed tables, or fails from outside. -/
theorem wp_load (hfault : terms.faulty ctx → ∀ error base, terms.rely tables base →
      fail error ⟨spent, base, none⟩)
    (hresult : ∀ base, terms.rely tables base →
      after fail ok (store.snapshot base) ⟨spent, base, none⟩) :
    wp terms fail (store.load ctx) ok ⟨spent, tables, none⟩ := by
  unfold Store.load
  simp only [wp_bind, wp_inContext, wp_beginTx, wp_orRollback]
  intro base hrely
  refine ⟨fun hfaulty error ↦ hfault hfaulty _ base hrely, ?_⟩
  refine wp_loadFrom store (fun hfaulty error ↦ ⟨rfl, hfault hfaulty _ base hrely⟩) ?_
  have hbase := hresult base hrely
  cases hsnapshot : store.snapshot base with
  | error error =>
    rw [hsnapshot] at hbase
    exact ⟨rfl, hbase⟩
  | ok snapshot =>
    rw [hsnapshot] at hbase
    change wp _ _ _ _ _
    rw [wp_bind, wp_inContext, wp_commit_readOnly, wp_pure]
    exact ⟨fun hfaulty error ↦ hfault hfaulty _ base hrely, hbase⟩

end

end CodexQueueBot.Storage
