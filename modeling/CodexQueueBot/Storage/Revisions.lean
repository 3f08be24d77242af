import CodexQueueBot.Storage.Contracts
import CodexQueueBot.Lib.Database

/-!
# Revisions and transactions

Calls of the store run concurrently over its one connection, and any of their calls to the database
may fail. The revision of the configuration counts the committed operations, the revision of a
section counts the committed updates of it, and every call that has returned has ended the
transactions it began. Revisions are integers without a bound: a counter that starts at one and is
incremented by commits does not reach the limit of 64 bits.
-/

set_option autoImplicit false
set_option relaxedAutoImplicit false

namespace CodexQueueBot.Storage

open Go Lib Lib.Prog

/-! ### The operations of the store -/

/-- The exported operations of the store that use the database. -/
inductive StoreOp
  | write (op : Write)
  | load
  | verifyAdmin (username password : String)
  | markStartupLoaded (revision : Int)
  deriving DecidableEq, Repr

/-- What the operations return without an error. -/
inductive Reply
  | wrote (snapshot : Snapshot) (target : Option Target)
  | loaded (snapshot : Snapshot)
  | verified (username : String) (right : Bool)
  | marked

/-- The section that an operation updates. -/
def StoreOp.section? : StoreOp → Option SectionName
  | .write (.updateCodex _) => some .codex
  | .write (.updateWeb _) => some .web
  | .write (.updateOpenILink _ _) => some .openilink
  | .write (.updateTelegram _ _) => some .telegram
  | _ => none

/-- The operation is one of the nine that write. -/
def StoreOp.isWrite : StoreOp → Bool
  | .write _ => true
  | _ => false

/-- The revision of a section. -/
def Tables.sectionRevision (tables : Tables) : SectionName → Int
  | .codex => tables.codex.revision
  | .openilink => tables.openILink.revision
  | .telegram => tables.telegram.revision
  | .web => tables.web.revision

/-- The revisions count the committed operations. -/
structure Counted (ops : List StoreOp) (tables : Tables) : Prop where
  config : tables.configRevision = 1 + ops.countP StoreOp.isWrite
  sections : ∀ name, tables.sectionRevision name =
    1 + ops.countP fun op ↦ op.section? = some name

section

variable [GCM String] [Argon2] [NetURL] [Net] (store : Store)

/-- The programs of the operations. -/
def Store.program : StoreOp → StoreM Reply
  | .write op => do
    let result ← store.write op
    return .wrote result.1 result.2
  | .load => do return .loaded (← store.load .request)
  | .verifyAdmin username password => do
    let result ← verifyAdmin username password
    return .verified result.1 result.2
  | .markStartupLoaded revision => do
    markStartupLoaded revision
    return .marked

/-! ### What a commit does to the revisions -/

variable {store} {tables new : Tables} {op : Write} {target : Option Target}

/-- A committed operation adds one to the revision. -/
theorem Commits.configRevision (h : Commits store tables op new target) :
    new.configRevision = tables.configRevision + 1 := by
  cases h with
  | createTarget target sortOrder id inserted nonce hvalid horder hinsert =>
    obtain ⟨-, -, rfl⟩ := Tables.insertTarget_eq_ok.mp hinsert
    rfl
  | updateTarget id target apiKey row plain edited written nonce hrow hplain hedited hvalid
      hupdate =>
    obtain ⟨-, rfl⟩ := Tables.updateTarget_eq_ok.mp hupdate
    rfl
  | _ => rfl

/-- A committed operation adds one to the revision of the section that it updates. -/
theorem Commits.sectionRevision (h : Commits store tables op new target) (name : SectionName) :
    new.sectionRevision name =
      tables.sectionRevision name + if (StoreOp.write op).section? = some name then 1 else 0 := by
  cases h with
  | createTarget target sortOrder id inserted nonce hvalid horder hinsert =>
    obtain ⟨-, -, rfl⟩ := Tables.insertTarget_eq_ok.mp hinsert
    cases name <;> exact (Int.add_zero _).symm
  | updateTarget id target apiKey row plain edited written nonce hrow hplain hedited hvalid
      hupdate =>
    obtain ⟨-, rfl⟩ := Tables.updateTarget_eq_ok.mp hupdate
    cases name <;> exact (Int.add_zero _).symm
  | _ => cases name <;> first | rfl | exact (Int.add_zero _).symm

/-- A commit keeps the revisions right. -/
theorem Counted.commits {ops : List StoreOp} (h : Counted ops tables)
    (hcommits : Commits store tables op new target) : Counted (ops ++ [.write op]) new := by
  refine ⟨?_, fun name ↦ ?_⟩
  · rw [hcommits.configRevision, h.config]
    simp [StoreOp.isWrite, Int.add_assoc]
  · rw [hcommits.sectionRevision, h.sections]
    by_cases hsection : (StoreOp.write op).section? = some name
    · simp [hsection, Int.add_assoc]
    · simp [hsection]

/-! ### The terms -/

/-- The terms on which the operations run together: every call may fail, others may do anything
between two transactions, a committed operation does what it does, and outside a transaction only
the revision that was loaded at the start is written. -/
def Store.terms (store : Store) (op : StoreOp) : Terms Tables where
  faulty := fun _ ↦ True
  rely := fun _ _ ↦ True
  effect := fun tables new ↦ ∃ write target, op = .write write ∧
      Commits store tables write new target
  touch := fun tables new ↦ ∃ revision, new = { tables with loadedStartupRevision := revision }

/-- The terms fit together, and they keep the revisions right. -/
theorem compatible_terms (store : Store) : Database.Compatible store.terms Counted where
  refl := fun _ ↦ ⟨fun _ ↦ trivial⟩
  trans := fun _ ↦ ⟨fun _ _ _ _ _ ↦ trivial⟩
  effect := fun _ _ _ _ _ ↦ trivial
  touch := fun _ _ _ _ _ ↦ trivial
  commits := by
    rintro ops op tables new hcounted ⟨write, target, rfl, hcommits⟩
    exact hcounted.commits hcommits
  keeps := by
    rintro ops op tables _ hcounted ⟨revision, rfl⟩
    exact ⟨hcounted.config, hcounted.sections⟩

omit [Argon2] [Net] in
/-- A load ends its transaction. -/
theorem wp_load_closed {terms : Terms Tables} {ctx : Ctx} {spent : Bool}
    {ok : Snapshot → Phase Tables → Prop}
    (hok : ∀ snapshot spent tables, ok snapshot ⟨spent, tables, none⟩) :
    wp terms (fun _ phase ↦ phase.tx = none) (store.load ctx) ok ⟨spent, tables, none⟩ := by
  refine wp_load store (fun _ _ _ _ ↦ rfl) fun base _ ↦ ?_
  cases store.snapshot base with
  | error error => rfl
  | ok snapshot => exact hok snapshot spent base

/-- Every operation of the store keeps the discipline of transactions, as soon as those that write
do. -/
theorem wp_program_of_write {terms : Terms Tables} {op : StoreOp} {tables : Tables}
    (htouch : ∀ base revision, terms.touch base { base with loadedStartupRevision := revision })
    (hwrite : ∀ write, op = .write write → wp terms (fun _ phase ↦ phase.tx = none)
      (store.write write) (fun _ phase ↦ phase.tx = none) ⟨false, tables, none⟩) :
    Prog.wp terms (store.program op).run Database.closed ⟨false, tables, none⟩ := by
  refine run_wp ?_
  unfold Database.closed
  cases op with
  | write op =>
    simp only [Store.program, wp_bind, wp_pure]
    exact hwrite op rfl
  | load =>
    simp only [Store.program, wp_bind, wp_pure]
    exact wp_load_closed fun _ _ _ ↦ rfl
  | verifyAdmin username password =>
    rw [Store.program, wp_bind, verifyAdmin, wp_bind, wp_inContext, wp_direct]
    intro base _
    refine ⟨fun _ _ ↦ rfl, by simp, ?_⟩
    intro administrator read hread
    obtain ⟨rfl, rfl⟩ := Prod.mk.inj (Except.ok.inj hread)
    refine ⟨htouch base _, ?_⟩
    cases base.administrator with
    | none =>
      simp only [wp_pure]
    | some stored =>
      dsimp only
      rw [inContext_ofExcept, wp_bind, wp_ofExcept]
      generalize Except.mapError _ _ = result
      cases result with
      | error error => rfl
      | ok right => simp only [after, wp_pure]
  | markStartupLoaded revision =>
    rw [Store.program, wp_bind, markStartupLoaded, wp_inContext, wp_direct]
    intro base _
    refine ⟨fun _ _ ↦ rfl, by simp, ?_⟩
    intro reply written hwritten
    obtain ⟨rfl, rfl⟩ := Prod.mk.inj (Except.ok.inj hwritten)
    rw [wp_pure]
    exact ⟨htouch base revision, rfl⟩

/-- Every operation of the store keeps the discipline of transactions. -/
theorem wp_program (op : StoreOp) (tables : Tables) :
    Prog.wp (store.terms op) (store.program op).run Database.closed ⟨false, tables, none⟩ := by
  refine wp_program_of_write (fun _ revision ↦ ⟨revision, rfl⟩) ?_
  rintro op rfl
  refine wp_write ⟨trivial, fun _ _ _ _ ↦ trivial, fun base ↦ ⟨_, rfl⟩, fun _ _ _ ↦ rfl, ?_⟩
  intro base new target _ hcommits
  exact ⟨⟨op, target, rfl, hcommits⟩, wp_load_closed fun _ _ _ ↦ rfl⟩

/-- A state of the calls of the store. -/
abbrev Calls := Database StoreOp Tables SQLError (Except StoreError Reply)

omit [GCM String] [Argon2] [NetURL] [Net] in
/-- The defaults have the first revisions. -/
theorem counted_freshTables : Counted [] freshTables :=
  ⟨rfl, fun name ↦ by cases name <;> rfl⟩

/-- However the calls of the store interleave over its connection, and whichever of them fail, from
a fresh database on: the revision of the configuration is one more than the number of committed
operations that write, each of which has committed once; the revision of a section is one more than
the number of committed updates of it; a call that has returned has ended each transaction that it
began once; and an open transaction belongs to a call that has not returned. -/
theorem revisions_and_transactions {fresh : Tables} {s : Calls} (hfresh : store.Fresh fresh)
    (hrun : Steps (Database.step .txDone fun op ↦ (store.program op).run)
      (Database.Permitted fun _ ↦ True) { committed := fresh } s) :
    s.committed.configRevision = 1 + s.writers.countP StoreOp.isWrite ∧
      (∀ name, s.committed.sectionRevision name =
        1 + s.writers.countP fun op ↦ op.section? = some name) ∧
      s.log.Nodup ∧
      (∀ (self : ℕ) (call : Call StoreOp Tables SQLError (Except StoreError Reply)),
        s.calls[self]? = some call → call.returned →
          s.own self = none ∧ call.begun = call.ended) ∧
      ∀ (owner : ℕ) (tx : Tx Tables), s.tx = some (owner, tx) →
        ∃ call, s.calls[owner]? = some call ∧ ¬ call.returned := by
  obtain rfl := fresh_iff.mp hfresh
  have hsound : s.Sound store.terms Counted :=
    Database.sound_of_steps (compatible_terms store) wp_program (fun _ ↦ rfl) counted_freshTables
      hrun
  refine ⟨hsound.history.config, hsound.history.sections, hsound.nodup, ?_, ?_⟩
  · intro self call hcall hreturned
    exact hsound.of_returned hcall hreturned
  · intro owner tx htx
    have hlt := hsound.owned owner tx htx
    refine ⟨s.calls[owner], List.getElem?_eq_getElem hlt, fun hreturned ↦ ?_⟩
    have hown := (hsound.of_returned (List.getElem?_eq_getElem hlt) hreturned).1
    rw [Database.own_eq_some_iff.mpr htx] at hown
    cases hown

end

/-- The programs of the sample store. -/
def sampleProgram : StoreOp → StoreM Reply :=
  @Store.program GCM.transparent Argon2.transparent NetURL.emptyOnly Net.portOnly sampleStore

/-- One call of `SetupAdmin`, all of whose calls go through. -/
def setupAlone : List (DatabaseLabel StoreOp SQLError) :=
  .call (.write (.setupAdmin "root" "secret")) :: List.replicate 19 (.advance 0 (.fine 7))

/-- The first call has begun two transactions, the revision is counted up, and its program has come
to an end. -/
def setupReturned (s : Calls) : Bool :=
  s.committed.configRevision == 2 &&
    (s.calls[0]?).any fun call ↦ call.begun == 2 && call.prog matches .ret _

/-- A setup that has returned has counted up the revision, and ended the two transactions it
began. -/
theorem revisions_and_transactions_setup :
    ∃ (s : Calls) (call : Call StoreOp Tables SQLError (Except StoreError Reply)),
      Steps (Database.step .txDone fun op ↦ (sampleProgram op).run)
        (Database.Permitted fun _ ↦ True) { committed := freshTables } s ∧
      s.committed.configRevision = 2 ∧ s.writers.countP StoreOp.isWrite = 1 ∧
      s.calls[0]? = some call ∧ call.returned ∧ call.begun = 2 ∧ call.ended = 2 := by
  have heval : (runLabels (Database.step .txDone fun op ↦ (sampleProgram op).run)
      (fun _ _ ↦ true) ({ committed := freshTables } : Calls) setupAlone).any setupReturned =
        true := by
    decide +kernel
  obtain ⟨s, hrun, htest⟩ := Steps.exists_of_runLabels
    (fun s label _ ↦ Database.permitted_of_forall (fun _ ↦ trivial) s label) heval
  simp only [setupReturned, Bool.and_eq_true, beq_iff_eq, Option.any_eq_true] at htest
  obtain ⟨hrevision, call, hcall, hbegun, hprog⟩ := htest
  have hreturned : call.returned := by
    unfold Call.returned
    cases hret : call.prog with
    | ret value => exact ⟨value, rfl⟩
    | _ => simp [hret] at hprog
  obtain ⟨hcounted, -, -, hended, -⟩ :=
    @revisions_and_transactions GCM.transparent Argon2.transparent NetURL.emptyOnly Net.portOnly
      sampleStore freshTables s (@fresh_iff GCM.transparent NetURL.emptyOnly _ _ |>.mpr rfl) hrun
  refine ⟨s, call, hrun, hrevision, ?_, hcall, hreturned, hbegun, ?_⟩
  · omega
  · rw [← (hended 0 call hcall hreturned).2, hbegun]

end CodexQueueBot.Storage
