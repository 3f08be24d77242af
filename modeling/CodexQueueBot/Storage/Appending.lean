import CodexQueueBot.Lib.Undisturbed
import CodexQueueBot.Storage.ReadBack
import CodexQueueBot.Storage.Revisions

/-!
# Appending a target

`CreateTarget` gives a target without an order the next one after the largest that is stored. The
stored orders are 64 bits wide, so that there may be no next one: then the order wraps around, and
the check of the target that follows rejects it, although the handler had checked the target with
the order zero.

`ends` is the precondition of a function of the store that nothing disturbs, with one rule for each
call, and `createTarget_ends` unfolds the operation along them. `sound_and_ordered` says what tables
are like after any calls of the store: sound, and with orders that are not negative and fit. On such
tables `appends_iff` decides when a target is appended.
-/

set_option autoImplicit false
set_option relaxedAutoImplicit false

namespace CodexQueueBot.Storage

open Go Lib Lib.Prog

/-! ### Functions that nothing disturbs -/

section

variable {α β : Type} {fail : StoreError → Tables → Option (Tx Tables) → Prop}
  {tables : Tables} {tx : Tx Tables} {ctx : Ctx}

/-- The precondition of a function of the store that nothing disturbs. -/
def ends (fail : StoreError → Tables → Option (Tx Tables) → Prop) (call : StoreM α)
    (ok : α → Tables → Option (Tx Tables) → Prop) (tables : Tables) (tx : Option (Tx Tables)) :
    Prop :=
  call.run.Ends .txDone (fun
    | .error error => fail error
    | .ok value => ok value) tables tx

/-- The precondition for what a function returns, an error or a value. -/
theorem run_ends {call : StoreM α} {post : Except StoreError α → Tables → Option (Tx Tables) → Prop}
    {tx : Option (Tx Tables)}
    (h : ends (fun error ↦ post (.error error)) call (fun value ↦ post (.ok value)) tables tx) :
    call.run.Ends .txDone post tables tx := by
  refine Prog.Ends.mono ?_ h
  intro result committed tx hafter
  cases result <;> exact hafter

/-- A value that is returned. -/
theorem ends_pure (value : α) (ok : α → Tables → Option (Tx Tables) → Prop)
    (tx : Option (Tx Tables)) : ends fail (pure value) ok tables tx ↔ ok value tables tx :=
  Iff.rfl

/-- A sequence ends with the first error. -/
theorem ends_bind (call : StoreM α) (next : α → StoreM β)
    (ok : β → Tables → Option (Tx Tables) → Prop) (tx : Option (Tx Tables)) :
    ends fail (call >>= next) ok tables tx ↔
      ends fail call (fun value ↦ ends fail (next value) ok) tables tx := by
  unfold ends
  refine (Prog.ends_bind call.run _ _).trans (iff_of_eq ?_)
  congr 1
  funext result
  cases result <;> rfl

/-- A rollback closes the transaction. -/
theorem ends_orRollback (call : StoreM α) (translate : StoreError → StoreError)
    (ok : α → Tables → Option (Tx Tables) → Prop) (tx : Option (Tx Tables)) :
    ends fail (orRollback call translate) ok tables tx ↔
      ends (fun error tables _ ↦ fail (translate error) tables none) call ok tables tx := by
  unfold ends
  refine (Prog.ends_bind call.run _ _).trans (iff_of_eq ?_)
  congr 1
  funext result
  cases result <;> rfl

/-- The context stands around the error. -/
theorem ends_inContext (context : Message) (call : StoreM α)
    (ok : α → Tables → Option (Tx Tables) → Prop) (tx : Option (Tx Tables)) :
    ends fail (inContext context call) ok tables tx ↔
      ends (fun error ↦ fail (.wrapped context error)) call ok tables tx := by
  unfold ends
  refine (Prog.ends_bind call.run _ _).trans (iff_of_eq ?_)
  congr 1
  funext result
  cases result <;> rfl

/-- A draw gives any number. -/
theorem ends_draw (ok : ℕ → Tables → Option (Tx Tables) → Prop) (tx : Option (Tx Tables)) :
    ends fail draw ok tables tx ↔ ∀ number, ok number tables tx :=
  Iff.rfl

/-- A transaction begins with the committed tables. -/
theorem ends_beginTx {readOnly : Bool} (ok : Unit → Tables → Option (Tx Tables) → Prop) :
    ends fail (beginTx ctx readOnly) ok tables none ↔ ok () tables (some ⟨readOnly, tables⟩) :=
  and_iff_right rfl

/-- A check fails with its text. -/
theorem ends_ofCheck_ok {result : Except Message Unit} (hresult : result = .ok ())
    (ok : Unit → Tables → Option (Tx Tables) → Prop) (tx : Option (Tx Tables)) :
    ends fail (ofCheck result) ok tables tx ↔ ok () tables tx := by
  subst hresult
  rfl

/-- A statement that goes through changes the tables of the transaction. -/
theorem ends_exec_ok {run : Tables → Except SQLError (α × Tables)} {reply : α} {new : Tables}
    (hrun : run tx.tables = .ok (reply, new)) (ok : α → Tables → Option (Tx Tables) → Prop) :
    ends fail (exec ctx run) ok tables (some tx) ↔
      ok reply tables (some { tx with tables := new }) := by
  unfold ends exec
  rw [ExceptT.run_mk, Ends]
  simp only [hrun]
  rfl

/-- The commit of a transaction that writes. -/
theorem ends_commit {new : Tables} (ok : Unit → Tables → Option (Tx Tables) → Prop) :
    ends fail (commit ctx) ok tables (some ⟨false, new⟩) ↔ ok () new none :=
  Iff.rfl

/-- An encoding keeps the value. -/
theorem ends_marshal (value : α) (ok : α → Tables → Option (Tx Tables) → Prop)
    (tx : Option (Tx Tables)) : ends fail (marshal value) ok tables tx ↔ ok value tables tx := by
  rw [marshal, ends_bind, ends_draw]
  simp only [ends_pure, forall_const]

/-- The order of a new target. -/
theorem ends_chosenOrder (sortOrder : Int) (ok : Int → Tables → Option (Tx Tables) → Prop) :
    ends fail
      (if sortOrder < 0 then do
          let maximum ← direct .request fun tables ↦ .ok (tables.maximumSortOrder, tables)
          return appendedSortOrder maximum
        else return sortOrder) ok tables none ↔ ok (chosenOrder tables sortOrder) tables none := by
  rw [chosenOrder]
  split_ifs
  · exact and_iff_right rfl
  · exact Iff.rfl

/-- The revision goes up. -/
theorem ends_bumpRevisionTx (ok : Int → Tables → Option (Tx Tables) → Prop) :
    ends fail (bumpRevisionTx ctx) ok tables (some tx) ↔
      ok (tx.tables.configRevision + 1) tables (some { tx with tables := tx.tables.bumped }) := by
  unfold bumpRevisionTx select update
  rw [ends_bind, ends_inContext, ends_exec_ok rfl, ends_bind, ends_inContext, ends_exec_ok rfl]
  exact ends_pure _ _ _

variable [GCM String] {store : Store}

/-- A row whose name is free is inserted, and then its key. -/
theorem ends_insertTargetTx {target : Target} {id : Int} {inserted : Tables}
    {ok : Target → Tables → Option (Tx Tables) → Prop}
    (hinsert : tx.tables.insertTarget target = .ok (id, inserted))
    (hok : ∀ nonce, ok { target with id } tables (some { tx with
      tables := inserted.setTargetKey id (encrypt store.key nonce target.apiKey
        (targetAPIKeyAAD id)) })) :
    ends fail (store.insertTargetTx target) ok tables (some tx) := by
  unfold Store.insertTargetTx update
  rw [ends_bind, ends_marshal, ends_bind, ends_exec_ok hinsert, ends_bind, ends_draw]
  intro nonce
  rw [ends_bind, ends_exec_ok rfl, ends_pure]
  exact hok nonce

/-- `Load` returns the snapshot. -/
theorem ends_load [NetURL] {ok : Snapshot → Tables → Option (Tx Tables) → Prop}
    (herror : ∀ error, store.snapshot tables = .error error → fail error tables none)
    (hok : ∀ snapshot, store.snapshot tables = .ok snapshot → ok snapshot tables none) :
    ends fail (store.load ctx) ok tables none := by
  have hload : (store.load ctx).run.wp ⟨fun _ ↦ False, Eq, fun _ _ ↦ False, Eq⟩
      (fun result phase ↦ phase.tables = tables ∧ phase.tx = none ∧
        result = store.snapshot tables) ⟨false, tables, none⟩ := by
    refine run_wp (wp_load store False.elim ?_)
    rintro _ rfl
    cases store.snapshot tables <;> exact ⟨rfl, rfl, rfl⟩
  refine Prog.Ends.mono ?_ (ends_of_wp hload)
  rintro result committed tx ⟨spent, htables, htx, rfl⟩
  obtain rfl : committed = tables := htables
  obtain rfl : tx = none := htx
  cases hsnapshot : store.snapshot committed with
  | error error => exact herror error hsnapshot
  | ok snapshot => exact hok snapshot hsnapshot

end

/-! ### Creating a target -/

section

variable [GCM String] [Argon2] [NetURL] [Net] {store : Store} {tables : Tables} {target : Target}

/-- A target that is valid and has a free name is committed, if nothing disturbs the call. -/
theorem createTarget_ends {id : Int} {inserted : Tables}
    (hvalid : Config.validateTarget (placedTarget tables target) = .ok ())
    (hinsert : tables.insertTarget (placedTarget tables target) = .ok (id, inserted)) :
    (store.write (.createTarget target)).run.Ends .txDone
      (fun result new _ ↦ store.Places tables target result new) tables none := by
  refine run_ends ?_
  rw [Store.write, ends_bind, Store.createTarget]
  dsimp only
  rw [ends_bind, ends_chosenOrder]
  change ends _ (ofCheck (Config.validateTarget (placedTarget tables target)) >>= _) _ _ _
  rw [ends_bind, ends_ofCheck_ok hvalid, ends_bind, ends_beginTx, ends_bind, ends_orRollback]
  refine ends_insertTargetTx hinsert fun nonce ↦ ?_
  rw [ends_bind, ends_orRollback, ends_bumpRevisionTx, ends_bind, ends_commit, ends_bind]
  refine ends_load (fun error hsnapshot ↦ ?_) fun snapshot hsnapshot ↦ ?_
  · exact ⟨id, inserted, nonce, hvalid, hinsert, rfl, by rw [hsnapshot]; rfl⟩
  · exact ⟨id, inserted, nonce, hvalid, hinsert, rfl, by rw [hsnapshot]; rfl⟩

/-! ### The stored orders -/

omit [GCM String] [Argon2] [NetURL] [Net] in
/-- The order that an operation is called with. -/
def StoreOp.sortOrder? : StoreOp → Option Int
  | .write (.createTarget target) | .write (.updateTarget _ target _) => some target.sortOrder
  | _ => none

omit [GCM String] [Argon2] [NetURL] [Net] in
/-- The order that an operation is called with is an `int`. -/
def StoreOp.OrderFits (op : StoreOp) : Prop :=
  ∀ sortOrder ∈ op.sortOrder?, int64 sortOrder = sortOrder

instance : DecidablePred StoreOp.OrderFits :=
  fun op ↦ inferInstanceAs (Decidable (∀ sortOrder ∈ op.sortOrder?, int64 sortOrder = sortOrder))

omit [GCM String] [Argon2] [NetURL] [Net] in
/-- The stored orders are not negative, and fit into 64 bits. -/
def Tables.Ordered (tables : Tables) : Prop :=
  ∀ row ∈ tables.targets, 0 ≤ row.sortOrder ∧ row.sortOrder < 2 ^ 63

omit [GCM String] [Argon2] [Net] in
/-- An order that is written is in range. -/
theorem placedTarget_range {seen : Tables} (hfits : int64 target.sortOrder = target.sortOrder)
    (hvalid : Config.validateTarget (placedTarget seen target) = .ok ()) :
    0 ≤ (placedTarget seen target).sortOrder ∧ (placedTarget seen target).sortOrder < 2 ^ 63 := by
  refine ⟨(Config.validateTarget_eq_ok.mp hvalid).1, ?_⟩
  change chosenOrder seen target.sortOrder < 2 ^ 63
  rw [chosenOrder]
  split_ifs
  · cases seen.maximumSortOrder with
    | none => decide
    | some maximum => exact Int.bmod_lt (x := maximum + 1) (m := 2 ^ 64) (by decide)
  · exact (int64_eq_self_iff.mp hfits).2

omit [GCM String] [Argon2] [NetURL] [Net] in
/-- A new row keeps the orders in range. -/
theorem Tables.Ordered.insertTarget {id : Int} {inserted : Tables} {apiKey : List UInt8}
    (h : tables.Ordered) (hrange : 0 ≤ target.sortOrder ∧ target.sortOrder < 2 ^ 63)
    (hinsert : tables.insertTarget target = .ok (id, inserted)) :
    (inserted.setTargetKey id apiKey).bumped.Ordered := by
  rw [setTargetKey_insertTarget hinsert]
  exact List.forall_mem_append.mpr ⟨h, List.forall_mem_singleton.mpr hrange⟩

/-- The other operations keep the orders in range. -/
theorem Tables.Ordered.commits {op : Write} {new : Tables} {result : Option Target}
    (h : tables.Ordered) (hfits : (StoreOp.write op).OrderFits)
    (hcommits : Commits store tables op new result)
    (hother : ∀ target, op ≠ .createTarget target) : new.Ordered := by
  cases hcommits with
  | createTarget target => exact absurd rfl (hother target)
  | updateTarget id target apiKey row plain edited written nonce hrow hplain hedited hvalid
      hupdate =>
    obtain ⟨-, rfl⟩ := Tables.updateTarget_eq_ok.mp hupdate
    have hedit : 0 ≤ edited.sortOrder ∧ edited.sortOrder < 2 ^ 63 := by
      refine ⟨(Config.validateTarget_eq_ok.mp hvalid).1, ?_⟩
      have hkept := (h row (List.mem_of_find?_eq_some hrow)).2
      have hgiven := (int64_eq_self_iff.mp (hfits _ rfl)).2
      rw [hedited]
      change (if target.sortOrder < 0 then row.sortOrder else target.sortOrder) < 2 ^ 63
      split_ifs
      · exact hkept
      · exact hgiven
    intro stored hstored
    obtain ⟨old, hold, rfl⟩ := List.mem_map.mp hstored
    by_cases hid : old.id = id
    · rw [if_pos hid]
      exact hedit
    · rw [if_neg hid]
      exact h old hold
  | deleteTarget id hfound => exact fun row hmem ↦ h row (List.mem_of_mem_filter hmem)
  | _ => exact h

variable (store) in
/-- The terms of the operations, as far as they keep the orders in range. -/
def Store.orderedTerms (op : StoreOp) : Terms Tables :=
  { store.terms op with
    effect := fun tables new ↦
      (store.terms op).effect tables new ∧ (op.OrderFits → tables.Ordered → new.Ordered) }

/-- The operations keep to their terms, and keep the orders in range. -/
theorem wp_program_ordered (op : StoreOp) (tables : Tables) :
    Prog.wp (store.orderedTerms op) (store.program op).run Database.closed
      ⟨false, tables, none⟩ := by
  refine wp_program_of_write (fun _ revision ↦ ⟨revision, rfl⟩) ?_
  rintro op rfl
  by_cases hcreate : ∃ target, op = .createTarget target
  · obtain ⟨target, rfl⟩ := hcreate
    have htouch : ∀ base, (store.orderedTerms (.write (.createTarget target))).touch base base :=
      fun base ↦ ⟨_, rfl⟩
    simp only [Store.write, wp_bind, wp_pure]
    refine wp_createTarget trivial htouch (fun _ _ _ ↦ rfl) (fun _ _ _ _ ↦ trivial) ?_
    intro seen base id inserted nonce _ _ hvalid hinsert
    have hcommits : Commits store base (.createTarget target) _ _ :=
      .createTarget target (placedTarget seen target).sortOrder id inserted nonce hvalid
        (fun hpositive ↦ if_neg (Int.not_lt.mpr hpositive)) hinsert
    refine ⟨⟨⟨_, _, rfl, hcommits⟩, fun hfits hordered ↦ ?_⟩, wp_load_closed fun _ _ _ ↦ rfl⟩
    exact hordered.insertTarget (placedTarget_range (hfits _ rfl) hvalid) hinsert
  · refine wp_write ⟨trivial, fun _ _ _ _ ↦ trivial, fun base ↦ ⟨_, rfl⟩, fun _ _ _ ↦ rfl, ?_⟩
    intro base new created _ hcommits
    refine ⟨⟨⟨op, created, rfl, hcommits⟩, fun hfits hordered ↦ ?_⟩,
      wp_load_closed fun _ _ _ ↦ rfl⟩
    exact hordered.commits hfits hcommits fun target hop ↦ hcreate ⟨target, hop⟩

omit [GCM String] [Argon2] [NetURL] [Net] in
/-- The order of a target that an operation is called with is an `int`. -/
def CallFits (_ : Calls) : DatabaseLabel StoreOp SQLError → Prop
  | .call op => op.OrderFits
  | .advance _ _ => True

instance (s : Calls) : DecidablePred (CallFits s)
  | .call op => inferInstanceAs (Decidable op.OrderFits)
  | .advance _ _ => isTrue trivial

/-- However the calls of the store interleave and whichever of them fail, the tables stay sound and
the stored orders in range. -/
theorem sound_and_ordered {fresh : Tables} {s : Calls} (hfresh : store.Fresh fresh)
    (hrun : Steps (Database.step .txDone fun op ↦ (store.program op).run) CallFits
      { committed := fresh } s) : store.Sound s.committed ∧ s.committed.Ordered := by
  obtain rfl := fresh_iff.mp hfresh
  have hcompatible : Database.Compatible store.orderedTerms fun ops tables ↦
      (∀ op ∈ ops, op.OrderFits) → store.Sound tables ∧ tables.Ordered := by
    refine ⟨fun _ ↦ ⟨fun _ ↦ trivial⟩, fun _ ↦ ⟨fun _ _ _ _ _ ↦ trivial⟩, fun _ _ _ _ _ ↦ trivial,
      fun _ _ _ _ _ ↦ trivial, ?_, ?_⟩
    · rintro ops op tables new hhistory ⟨⟨write, created, rfl, hcommits⟩, hordered⟩ hfits
      obtain ⟨hold, hnew⟩ := List.forall_mem_append.mp hfits
      obtain ⟨hsound, hrange⟩ := hhistory hold
      exact ⟨hsound.commits hcommits, hordered (hnew _ (List.mem_singleton_self _)) hrange⟩
    · rintro ops op tables _ hhistory ⟨revision, rfl⟩ hfits
      obtain ⟨hsound, hrange⟩ := hhistory hfits
      exact ⟨⟨hsound.openILink, hsound.telegram, hsound.intervals, hsound.overrides,
        hsound.activityLimit, hsound.named, hsound.opens, hsound.valid, hsound.ids⟩, hrange⟩
  have hstart : store.Sound freshTables ∧ freshTables.Ordered :=
    ⟨(intact_iff_sound.mp intact_freshTables).1, fun row hmem ↦ by cases hmem⟩
  have hpermitted : Steps (Database.step .txDone fun op ↦ (store.program op).run)
      (Database.Permitted fun _ ↦ True) { committed := freshTables } s :=
    hrun.mono fun s label _ ↦ Database.permitted_of_forall (fun _ ↦ trivial) s label
  have hsound := Database.sound_of_steps hcompatible wp_program_ordered (fun _ ↦ rfl)
    (fun _ ↦ hstart) hpermitted
  exact hsound.history (Database.forall_mem_writers (fun _ _ hcall ↦ hcall) hrun)

/-! ### Putting a target last -/

variable (store) in
/-- `CreateTarget` comes to its end when nothing disturbs it, and then it has succeeded: the target
is the last one that `Load` returns, and its order is larger than that of every other one. -/
def Store.Appends (tables : Tables) (target : Target) : Prop :=
  (∃ answers result new, Fine answers ∧ (store.write (.createTarget target)).run.run .txDone
    cancelled answers tables none = some (result, new)) ∧
  ∀ answers result new, Fine answers → (store.write (.createTarget target)).run.run .txDone
      cancelled answers tables none = some (result, new) →
    ∃ snapshot created, result = .ok (snapshot, some created) ∧ store.LoadsAs new snapshot ∧
      ∃ front stored, snapshot.config.codex.targets = front ++ [stored] ∧
        stored.id = created.id ∧ stored.sortOrder = created.sortOrder ∧
        ∀ other ∈ front, other.sortOrder < stored.sortOrder

omit [GCM String] [Argon2] [NetURL] [Net] in
/-- The next order is larger than every stored one, unless one of them is the largest number. -/
theorem appendedSortOrder_range (h : tables.Ordered)
    (hroom : ∀ row ∈ tables.targets, row.sortOrder ≠ 2 ^ 63 - 1) :
    0 ≤ appendedSortOrder tables.maximumSortOrder ∧
      ∀ row ∈ tables.targets, row.sortOrder < appendedSortOrder tables.maximumSortOrder := by
  cases hmaximum : tables.maximumSortOrder with
  | none =>
    rw [Tables.maximumSortOrder, List.max?_eq_none_iff, List.map_eq_nil_iff] at hmaximum
    refine ⟨Int.le_refl 0, fun row hmem ↦ ?_⟩
    rw [hmaximum] at hmem
    cases hmem
  | some maximum =>
    obtain ⟨hmem, hlargest⟩ := List.max?_eq_some_iff.mp hmaximum
    obtain ⟨last, hlast, rfl⟩ := List.mem_map.mp hmem
    obtain ⟨hnonneg, hlt⟩ := h last hlast
    have hne := hroom last hlast
    have hfits : int64 (last.sortOrder + 1) = last.sortOrder + 1 :=
      int64_eq_self_iff.mpr ⟨by omega, by omega⟩
    rw [appendedSortOrder, hfits]
    refine ⟨by omega, fun row hrow ↦ ?_⟩
    have hle := hlargest _ (List.mem_map_of_mem hrow)
    omega

omit [GCM String] [Argon2] [NetURL] [Net] in
/-- After the largest number there is no next order. -/
theorem appendedSortOrder_neg (h : tables.Ordered) {row : TargetRow} (hrow : row ∈ tables.targets)
    (hlast : row.sortOrder = 2 ^ 63 - 1) : appendedSortOrder tables.maximumSortOrder < 0 := by
  have hmaximum : tables.maximumSortOrder = some (2 ^ 63 - 1) := by
    refine List.max?_eq_some_iff.mpr ⟨List.mem_map.mpr ⟨row, hrow, hlast⟩, ?_⟩
    rintro _ hmem
    obtain ⟨other, hother, rfl⟩ := List.mem_map.mp hmem
    have hlt := (h other hother).2
    omega
  rw [hmaximum]
  decide

omit [GCM String] [Argon2] [NetURL] [Net] in
/-- A row with the largest order is the last one. -/
theorem orderedTargets_append {new : Tables} {row : TargetRow}
    (hrows : new.targets = tables.targets ++ [row])
    (hlargest : ∀ other ∈ tables.targets, other.sortOrder < row.sortOrder) :
    ∃ front, new.orderedTargets = front ++ [row] ∧ ∀ other ∈ front, other ∈ tables.targets := by
  have hperm : new.orderedTargets.Perm (tables.targets ++ [row]) := hrows ▸ perm_orderedTargets
  have hmem : row ∈ new.orderedTargets :=
    hperm.mem_iff.mpr (List.mem_append_right _ (List.mem_singleton_self row))
  obtain ⟨front, back, hsplit⟩ := List.append_of_mem hmem
  have hothers : (front ++ back).Perm tables.targets := by
    rw [hsplit] at hperm
    exact (List.perm_middle.symm.trans
      (hperm.trans (List.perm_append_singleton _ _))).cons_inv
  have hback : back = [] := by
    refine List.eq_nil_iff_forall_not_mem.mpr fun other hother ↦ ?_
    have hsorted : new.orderedTargets.Pairwise
        fun left right ↦ Tables.rowPlace left ≤ Tables.rowPlace right :=
      List.pairwise_insertionSort _ _
    rw [hsplit] at hsorted
    have hle := (List.pairwise_cons.mp (List.pairwise_append.mp hsorted).2.1).1 other hother
    have hlt := hlargest other (hothers.mem_iff.mp (List.mem_append_right _ hother))
    rcases Prod.Lex.toLex_le_toLex.mp hle with hless | ⟨heq, -⟩
    · exact absurd hless (Int.not_lt.mpr (Int.le_of_lt hlt))
    · exact absurd heq.symm (Int.ne_of_lt hlt)
  subst hback
  refine ⟨front, hsplit, fun other hother ↦ hothers.mem_iff.mp ?_⟩
  rw [List.append_nil]
  exact hother

omit [Argon2] [Net] in
/-- A target that is placed leaves sound tables sound. -/
theorem Store.Sound.placed {id : Int} {inserted : Tables} {placed : Target}
    (h : store.Sound tables) (nonce : ℕ) (hvalid : Config.validateTarget placed = .ok ())
    (hinsert : tables.insertTarget placed = .ok (id, inserted)) :
    store.Sound (inserted.setTargetKey id (encrypt store.key nonce placed.apiKey
      (targetAPIKeyAAD id))).bumped :=
  @Store.Sound.createTarget _ _ _ _ placed id nonce placed.sortOrder _ h
    (Config.validateTarget_eq_ok.mp hvalid).2 hinsert

omit [Argon2] [Net] in
/-- A target that is placed in sound tables, with a name that no other one has under
`strings.ToLower`, is the last one that `Load` returns. -/
theorem Store.Places.last {new : Tables} {result : Except StoreError (Snapshot × Option Target)}
    (hsound : store.Sound tables) (hplaces : store.Places tables target result new)
    (hnames : ((tables.targets.map fun row ↦ Strings.toLower row.name) ++
      [Strings.toLower (Config.normalizeTarget target).name]).Nodup)
    (hlargest : ∀ row ∈ tables.targets, row.sortOrder < (placedTarget tables target).sortOrder) :
    ∃ snapshot created, result = .ok (snapshot, some created) ∧ store.LoadsAs new snapshot ∧
      ∃ front stored, snapshot.config.codex.targets = front ++ [stored] ∧
        stored.id = created.id ∧ stored.sortOrder = created.sortOrder ∧
        ∀ other ∈ front, other.sortOrder < stored.sortOrder := by
  obtain ⟨id, inserted, nonce, hvalid, hinsert, rfl, rfl⟩ := hplaces
  have hintact : store.Intact (inserted.setTargetKey id (encrypt store.key nonce
      (placedTarget tables target).apiKey (targetAPIKeyAAD id))).bumped := by
    refine intact_iff_sound.mpr ⟨hsound.placed nonce hvalid hinsert, ?_⟩
    rw [names_insertTarget hinsert]
    exact hnames
  obtain ⟨⟨config, hholds⟩, -⟩ := intact_iff.mp hintact
  have hsnapshot := snapshot_eq_ok.mpr ⟨config, hholds, rfl⟩
  obtain ⟨front, hfront, hold⟩ := orderedTargets_append
    (congrArg (fun tables ↦ tables.bumped.targets) (setTargetKey_insertTarget hinsert)) hlargest
  refine ⟨_, { placedTarget tables target with id }, by rw [hsnapshot]; rfl,
    loadsAs_iff.mpr hsnapshot, front.map store.targetOf,
    { placedTarget tables target with id, apiKeyEnv := "" }, ?_, rfl, rfl, ?_⟩
  · change config.codex.targets = _
    rw [hholds.targets_eq, hfront, List.map_append, List.map_singleton, targetOf_rowOf]
  · intro other hother
    obtain ⟨row, hrow, rfl⟩ := List.mem_map.mp hother
    exact hlargest row (hold row hrow)

/-- A call of `CreateTarget` that has returned a target has placed it. -/
theorem Store.Appends.places (h : store.Appends tables target) :
    ∃ snapshot created new, store.Places tables target (.ok (snapshot, some created)) new := by
  obtain ⟨⟨answers, result, new, hfine, hrun⟩, hall⟩ := h
  obtain ⟨snapshot, created, rfl, -⟩ := hall answers result new hfine hrun
  rcases createTarget_outcome hrun with ⟨⟨error, herror⟩, -⟩ | hplaces
  · cases herror
  · exact ⟨snapshot, created, new, hplaces⟩

/-- A target that `CreateTarget` appends to sound tables has a name of its own. -/
theorem Store.Appends.nodup (h : store.Appends tables target) (hsound : store.Sound tables) :
    ((tables.targets.map fun row ↦ Strings.toLower row.name) ++
      [Strings.toLower (Config.normalizeTarget target).name]).Nodup := by
  obtain ⟨snapshot, created, new, id, inserted, nonce, hvalid, hinsert, rfl, hresult⟩ := h.places
  cases hsnapshot : store.snapshot _ with
  | error error =>
    rw [hsnapshot] at hresult
    cases hresult
  | ok found =>
    obtain ⟨config, hholds, -⟩ := snapshot_eq_ok.mp hsnapshot
    have hids := (hsound.placed nonce hvalid hinsert).ids
    have hnames := (intact_iff.mpr ⟨⟨config, hholds⟩, hids⟩).names
    rw [names_insertTarget hinsert] at hnames
    exact hnames

/-- `CreateTarget` appends nothing after the largest number. -/
theorem Store.Appends.room (h : store.Appends tables target) (hordered : tables.Ordered)
    (hnegative : target.sortOrder < 0) : ∀ row ∈ tables.targets, row.sortOrder ≠ 2 ^ 63 - 1 := by
  intro row hrow hlast
  obtain ⟨snapshot, created, new, id, inserted, nonce, hvalid, -⟩ := h.places
  have hpositive : 0 ≤ chosenOrder tables target.sortOrder :=
    (Config.validateTarget_eq_ok.mp hvalid).1
  rw [chosenOrder, if_pos hnegative] at hpositive
  exact absurd (appendedSortOrder_neg hordered hrow hlast) (Int.not_lt.mpr hpositive)

/-- From a fresh database on, however the calls of the store interleave and whichever of them fail:
a target without an order, which is valid and whose name the database does not know, is appended
exactly when the stored names and its own are distinct under `strings.ToLower`, and no stored order
is the largest number. -/
theorem appends_iff {fresh : Tables} {s : Calls} (hfresh : store.Fresh fresh)
    (hrun : Steps (Database.step .txDone fun op ↦ (store.program op).run) CallFits
      { committed := fresh } s)
    (hnegative : target.sortOrder < 0)
    (haccepted : Config.validateTarget { Config.normalizeTarget target with sortOrder := 0 } =
      .ok ())
    (hfree : ∀ row ∈ s.committed.targets,
      nocase row.name ≠ nocase (Config.normalizeTarget target).name) :
    store.Appends s.committed target ↔
      ((s.committed.targets.map fun row ↦ Strings.toLower row.name) ++
        [Strings.toLower (Config.normalizeTarget target).name]).Nodup ∧
      ∀ row ∈ s.committed.targets, row.sortOrder ≠ 2 ^ 63 - 1 := by
  obtain ⟨hsound, hordered⟩ := sound_and_ordered hfresh hrun
  constructor
  · intro happends
    exact ⟨happends.nodup hsound, happends.room hordered hnegative⟩
  · rintro ⟨hnames, hroom⟩
    have hchosen : (placedTarget s.committed target).sortOrder =
        appendedSortOrder s.committed.maximumSortOrder := if_pos hnegative
    obtain ⟨hpositive, hlargest⟩ := appendedSortOrder_range hordered hroom
    rw [← hchosen] at hpositive hlargest
    have hvalid : Config.validateTarget (placedTarget s.committed target) = .ok () := by
      obtain ⟨-, hvalid⟩ := Config.validateTarget_eq_ok.mp haccepted
      exact Config.validateTarget_eq_ok.mpr ⟨hpositive, hvalid.named, hvalid.unreserved,
        hvalid.plain, hvalid.url, hvalid.key, hvalid.model, hvalid.wireAPI, hvalid.overrides⟩
    have hends : (store.write (.createTarget target)).run.Ends .txDone
        (fun result new _ ↦ store.Places s.committed target result new) s.committed none :=
      createTarget_ends hvalid (Tables.insertTarget_eq_ok.mpr ⟨hfree, rfl, rfl⟩)
    refine ⟨hends.exists_run, fun answers result new hfine hrun ↦ ?_⟩
    obtain ⟨-, hplaces⟩ := hends.run hfine hrun
    exact hplaces.last hsound hnames hlargest

end

/-- The calls of the sample store. -/
def sampleCalls : Calls → DatabaseLabel StoreOp SQLError → Option Calls :=
  Database.step .txDone fun op ↦ (@Store.program GCM.transparent Argon2.transparent
    Config.hostOnly Net.portOnly sampleStore op).run

/-- A target is created with an order, and all calls go through. -/
def createdWith (sortOrder : Int) : List (DatabaseLabel StoreOp SQLError) :=
  .call (.write (.createTarget { namedTarget "a" with sortOrder })) ::
    List.replicate 19 (.advance 0 (.fine 0))

/-- The target that is appended. -/
def appendedTarget : Target :=
  { namedTarget "b" with sortOrder := -1 }

/-- The only row has the order. -/
def hasOrder (sortOrder : Int) (s : Calls) : Bool :=
  s.committed.targets.map (fun row ↦ (row.name, row.sortOrder)) = [("a", sortOrder)]

/-- The order of the only row. -/
theorem exists_row_of_hasOrder {sortOrder : Int} {s : Calls} (h : hasOrder sortOrder s = true) :
    ∃ row, s.committed.targets = [row] ∧ row.name = "a" ∧ row.sortOrder = sortOrder := by
  obtain ⟨row, hrows, hrow⟩ := List.map_eq_singleton_iff.mp (of_decide_eq_true h)
  obtain ⟨hname, horder⟩ := Prod.mk.inj hrow
  exact ⟨row, hrows, hname, horder⟩

/-- A creation that goes through stores the order. -/
theorem exists_createdWith {sortOrder : Int}
    (h : (runLabels sampleCalls (fun s label ↦ decide (CallFits s label))
      { committed := freshTables } (createdWith sortOrder)).any (hasOrder sortOrder) = true) :
    ∃ s row, Steps sampleCalls CallFits { committed := freshTables } s ∧
      s.committed.targets = [row] ∧ row.name = "a" ∧ row.sortOrder = sortOrder := by
  obtain ⟨s, hrun, htest⟩ := Steps.exists_of_runLabels (fun _ _ ↦ of_decide_eq_true) h
  obtain ⟨row, hrow⟩ := exists_row_of_hasOrder htest
  exact ⟨s, row, hrun, hrow⟩

/-- A target is appended after one with the order seven. -/
theorem appends_iff_seven : ∃ s row, Steps sampleCalls CallFits { committed := freshTables } s ∧
    s.committed.targets = [row] ∧ row.sortOrder = 7 ∧
    @Store.Appends GCM.transparent Argon2.transparent Config.hostOnly Net.portOnly
      sampleStore s.committed appendedTarget := by
  let _ := GCM.transparent
  let _ := Config.hostOnly
  obtain ⟨s, row, hrun, hrows, hname, horder⟩ :=
    @exists_createdWith 7 (by decide +kernel)
  refine ⟨s, row, hrun, hrows, horder, ?_⟩
  have haccepted : Config.validateTarget { Config.normalizeTarget appendedTarget
      with sortOrder := 0 } = .ok () := by
    decide +kernel
  refine (@appends_iff GCM.transparent Argon2.transparent Config.hostOnly Net.portOnly sampleStore
    appendedTarget freshTables s (fresh_iff.mpr rfl) hrun (by decide) haccepted ?_).mpr ⟨?_, ?_⟩
  · rw [hrows, List.forall_mem_singleton, hname]
    decide +kernel
  · rw [hrows, List.map_singleton, hname]
    decide +kernel
  · rw [hrows, List.forall_mem_singleton, horder]
    decide

/-- After a target with the largest number as its order, no target is appended, although it is valid
and its name is free. -/
theorem not_appends_after_largest :
    ∃ s row, Steps sampleCalls CallFits { committed := freshTables } s ∧
      s.committed.targets = [row] ∧ row.sortOrder = 2 ^ 63 - 1 ∧ appendedTarget.sortOrder < 0 ∧
      @Config.validateTarget Config.hostOnly { Config.normalizeTarget appendedTarget
        with sortOrder := 0 } = .ok () ∧
      (∀ row ∈ s.committed.targets,
        nocase row.name ≠ nocase (Config.normalizeTarget appendedTarget).name) ∧
      ¬ @Store.Appends GCM.transparent Argon2.transparent Config.hostOnly Net.portOnly
        sampleStore s.committed appendedTarget := by
  let _ := GCM.transparent
  let _ := Argon2.transparent
  let _ := Config.hostOnly
  let _ := Net.portOnly
  obtain ⟨s, row, hrun, hrows, hname, horder⟩ :=
    @exists_createdWith (2 ^ 63 - 1) (by decide +kernel)
  refine ⟨s, row, hrun, hrows, horder, by decide, by decide +kernel, ?_, fun happends ↦ ?_⟩
  · rw [hrows, List.forall_mem_singleton, hname]
    decide +kernel
  · have hordered := (sound_and_ordered (fresh_iff.mpr rfl) hrun).2
    refine happends.room hordered (by decide) row ?_ horder
    rw [hrows]
    exact List.mem_singleton_self row

end CodexQueueBot.Storage
