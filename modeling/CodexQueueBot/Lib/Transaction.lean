import CodexQueueBot.Lib.Runs
import Mathlib.Order.Basic

/-!
# Programs over a database connection

A program talks to a database through one pooled connection: it begins a transaction, runs
statements in it, commits it or rolls it back, and it may run a statement outside a transaction. The
calls are constructors with a continuation for the reply, so that every return path of a function is
a branch of a program. What the outside world decides is an `Answer` to each call: it goes through,
or it fails. A call fails on its own as well, for example when a constraint is violated.

`wp` is the weakest precondition of a program under the terms on which it runs: in which contexts
calls may fail, what other programs may do to the tables between two transactions, and what a
committed transaction of this program may do to them. It also asks for discipline: a transaction is
begun only when none is open, statements and the two ends stand inside one, and a program commits
written tables at most once. `Ready` is a precondition that holds of a program in a state, and
`Ready.next` says what a step of it does.
-/

set_option autoImplicit false
set_option relaxedAutoImplicit false

namespace CodexQueueBot.Lib

/-! ### Programs -/

/-- The context of a call: that of a request, which may be cancelled, or one without
cancellation. -/
inductive Ctx
  | request
  | detached
  deriving DecidableEq, Repr

/-- What the outside world answers to a call: it goes through, with a number for a call that draws
one, or it fails. -/
inductive Answer (ε : Type)
  | fine (draw : ℕ)
  | fault (error : ε)
  deriving DecidableEq, Repr

/-- An open transaction, with the tables as its statements have left them. -/
structure Tx (σ : Type) where
  readOnly : Bool
  tables : σ

/-- A program over tables `σ` with database errors `ε`. A reply is an error or a value; the reply of
a call without a value is an optional error, and `draw` is a local call that may fail. -/
inductive Prog (σ ε α : Type) : Type 1
  | ret (value : α)
  | draw (next : Option ℕ → Prog σ ε α)
  | beginTx (ctx : Ctx) (readOnly : Bool) (next : Option ε → Prog σ ε α)
  | stmt {ρ : Type} (ctx : Ctx) (run : σ → Except ε (ρ × σ)) (next : Except ε ρ → Prog σ ε α)
  | direct {ρ : Type} (ctx : Ctx) (run : σ → Except ε (ρ × σ)) (next : Except ε ρ → Prog σ ε α)
  | commit (ctx : Ctx) (next : Option ε → Prog σ ε α)
  | rollback (next : Prog σ ε α)

namespace Prog

variable {σ ε α β : Type}

/-- The program that goes on with another one. -/
def bind : Prog σ ε α → (α → Prog σ ε β) → Prog σ ε β
  | ret value, k => k value
  | draw next, k => draw fun reply ↦ (next reply).bind k
  | beginTx ctx readOnly next, k => beginTx ctx readOnly fun reply ↦ (next reply).bind k
  | stmt ctx run next, k => stmt ctx run fun reply ↦ (next reply).bind k
  | direct ctx run next, k => direct ctx run fun reply ↦ (next reply).bind k
  | commit ctx next, k => commit ctx fun reply ↦ (next reply).bind k
  | rollback next, k => rollback (next.bind k)

instance : Monad (Prog σ ε) where
  pure := ret
  bind := bind

/-! ### Steps -/

/-- What a step of a program is to the history of its transactions. -/
inductive Event
  | quiet
  | began
  | ended
  | wrote
  deriving DecidableEq, Repr

/-- Whether written tables have been committed after an event. -/
def Event.spends (spent : Bool) : Event → Bool
  | .wrote => true
  | _ => spent

/-- What a step leaves. -/
structure Outcome (σ ε α : Type) where
  prog : Prog σ ε α
  committed : σ
  tx : Option (Tx σ)
  event : Event := .quiet

/-- A step of a program, given the committed tables, its own open transaction and an answer. A call
on a transaction that has ended fails with `txDone`; a call that needs the connection while this
program holds it never comes back. -/
def next (txDone : ε) (committed : σ) (tx : Option (Tx σ)) (answer : Answer ε) :
    Prog σ ε α → Option (Outcome σ ε α)
  | ret _ => none
  | draw next =>
    match answer with
    | .fine number => some ⟨next (some number), committed, tx, .quiet⟩
    | .fault _ => some ⟨next none, committed, tx, .quiet⟩
  | beginTx _ readOnly next =>
    match tx, answer with
    | some _, _ => none
    | none, .fault error => some ⟨next (some error), committed, none, .quiet⟩
    | none, .fine _ => some ⟨next none, committed, some ⟨readOnly, committed⟩, .began⟩
  | stmt _ run next =>
    match tx, answer with
    | none, _ => some ⟨next (.error txDone), committed, none, .quiet⟩
    | some tx, .fault error => some ⟨next (.error error), committed, some tx, .quiet⟩
    | some tx, .fine _ =>
      match run tx.tables with
      | .error error => some ⟨next (.error error), committed, some tx, .quiet⟩
      | .ok (reply, tables) => some ⟨next (.ok reply), committed, some { tx with tables }, .quiet⟩
  | direct _ run next =>
    match tx, answer with
    | some _, _ => none
    | none, .fault error => some ⟨next (.error error), committed, none, .quiet⟩
    | none, .fine _ =>
      match run committed with
      | .error error => some ⟨next (.error error), committed, none, .quiet⟩
      | .ok (reply, tables) => some ⟨next (.ok reply), tables, none, .quiet⟩
  | commit _ next =>
    match tx, answer with
    | none, _ => some ⟨next (some txDone), committed, none, .ended⟩
    | some _, .fault error => some ⟨next (some error), committed, none, .ended⟩
    | some tx, .fine _ =>
      if tx.readOnly then some ⟨next none, committed, none, .ended⟩
      else some ⟨next none, tx.tables, none, .wrote⟩
  | rollback next => some ⟨next, committed, none, .ended⟩

/-- The context of the first call of a program, if a cancelled context can fail it. -/
def ctx? : Prog σ ε α → Option Ctx
  | beginTx ctx _ _ => some ctx
  | stmt ctx _ _ => some ctx
  | direct ctx _ _ => some ctx
  | commit ctx _ => some ctx
  | _ => none

/-- The first call of a program needs the pooled connection. -/
def connects : Prog σ ε α → Bool
  | beginTx _ _ _ => true
  | direct _ _ _ => true
  | _ => false

/-- An answer that the contexts allow: only calls in faulty contexts fail from outside. -/
def Permits (faulty : Ctx → Prop) (prog : Prog σ ε α) : Answer ε → Prop
  | .fine _ => True
  | .fault _ => ∀ ctx ∈ prog.ctx?, faulty ctx

instance (faulty : Ctx → Prop) [DecidablePred faulty] (prog : Prog σ ε α) (answer : Answer ε) :
    Decidable (prog.Permits faulty answer) :=
  match answer with
  | .fine _ => isTrue trivial
  | .fault _ => inferInstanceAs (Decidable (∀ ctx ∈ prog.ctx?, faulty ctx))

/-- The value that a program returns under given answers when no other program runs, and the tables
it leaves committed. -/
def run (txDone : ε) (faulty : Ctx → Prop) [DecidablePred faulty] :
    List (Answer ε) → Prog σ ε α → σ → Option (Tx σ) → Option (α × σ)
  | _, ret value, committed, _ => some (value, committed)
  | [], _, _, _ => none
  | answer :: answers, prog, committed, tx =>
    if prog.Permits faulty answer then
      (prog.next txDone committed tx answer).bind fun outcome ↦
        run txDone faulty answers outcome.prog outcome.committed outcome.tx
    else none

/-! ### Weakest preconditions -/

/-- The terms on which a program runs: the contexts in which calls may fail from outside, what
others may do to the committed tables, what a committed transaction of the program does to them, and
what its statements outside a transaction do. -/
structure Terms (σ : Type) where
  faulty : Ctx → Prop
  rely : σ → σ → Prop
  effect : σ → σ → Prop
  touch : σ → σ → Prop

/-- Where a program stands: whether it has committed written tables, the committed tables as it last
knew them, and its open transaction. -/
structure Phase (σ : Type) where
  spent : Bool
  tables : σ
  tx : Option (Tx σ) := none

/-- The weakest precondition of a program. -/
def wp (terms : Terms σ) : Prog σ ε α → (α → Phase σ → Prop) → Phase σ → Prop
  | ret value, post, phase => post value phase
  | draw next, post, phase => ∀ reply, (next reply).wp terms post phase
  | beginTx ctx readOnly next, post, phase =>
    phase.tx = none ∧ ∀ tables, terms.rely phase.tables tables →
      (∀ error, terms.faulty ctx → (next (some error)).wp terms post { phase with tables }) ∧
      (next none).wp terms post { phase with tables, tx := some ⟨readOnly, tables⟩ }
  | stmt ctx run next, post, phase =>
    ∃ tx, phase.tx = some tx ∧
      (∀ error, terms.faulty ctx → (next (.error error)).wp terms post phase) ∧
      match run tx.tables with
      | .error error => (next (.error error)).wp terms post phase
      | .ok (reply, tables) =>
        (next (.ok reply)).wp terms post { phase with tx := some { tx with tables } }
  | direct ctx run next, post, phase =>
    phase.tx = none ∧ ∀ tables, terms.rely phase.tables tables →
      (∀ error, terms.faulty ctx → (next (.error error)).wp terms post { phase with tables }) ∧
      match run tables with
      | .error error => (next (.error error)).wp terms post { phase with tables }
      | .ok (reply, tables') =>
        terms.touch tables tables' ∧
          (next (.ok reply)).wp terms post { phase with tables := tables' }
  | commit ctx next, post, phase =>
    ∃ tx, phase.tx = some tx ∧
      (∀ error, terms.faulty ctx → (next (some error)).wp terms post { phase with tx := none }) ∧
      if tx.readOnly then (next none).wp terms post { phase with tx := none }
      else phase.spent = false ∧ terms.effect phase.tables tx.tables ∧
        (next none).wp terms post ⟨true, tx.tables, none⟩
  | rollback next, post, phase =>
    phase.tx.isSome ∧ next.wp terms post { phase with tx := none }

variable {terms : Terms σ} {post : α → Phase σ → Prop}

/-- The precondition of a program that goes on with another one. -/
theorem wp_bind (prog : Prog σ ε α) (k : α → Prog σ ε β) (post : β → Phase σ → Prop)
    (phase : Phase σ) :
    (prog.bind k).wp terms post phase ↔
      prog.wp terms (fun value phase ↦ (k value).wp terms post phase) phase := by
  induction prog generalizing phase with
  | ret value => rfl
  | draw next ih => simp only [bind, wp, ih]
  | beginTx ctx readOnly next ih => simp only [bind, wp, ih]
  | stmt ctx run next ih => simp only [bind, wp, ih]
  | direct ctx run next ih => simp only [bind, wp, ih]
  | commit ctx next ih => simp only [bind, wp, ih]
  | rollback next ih => simp only [bind, wp, ih]

/-- A weaker postcondition has a weaker precondition. -/
theorem wp_mono {prog : Prog σ ε α} {post' : α → Phase σ → Prop} {phase : Phase σ}
    (himp : ∀ value phase, post value phase → post' value phase)
    (h : prog.wp terms post phase) : prog.wp terms post' phase := by
  induction prog generalizing phase with
  | ret value => exact himp value phase h
  | draw next ih => exact fun reply ↦ ih reply (h reply)
  | beginTx ctx readOnly next ih =>
    refine ⟨h.1, fun tables hrely ↦ ?_⟩
    obtain ⟨hfault, hfine⟩ := h.2 tables hrely
    exact ⟨fun error hfaulty ↦ ih _ (hfault error hfaulty), ih _ hfine⟩
  | stmt ctx run next ih =>
    rw [wp] at h ⊢
    obtain ⟨tx, htx, hfault, hfine⟩ := h
    refine ⟨tx, htx, fun error hfaulty ↦ ih _ (hfault error hfaulty), ?_⟩
    revert hfine
    cases run tx.tables <;> exact ih _
  | direct ctx run next ih =>
    refine ⟨h.1, fun tables hrely ↦ ?_⟩
    obtain ⟨hfault, hfine⟩ := h.2 tables hrely
    refine ⟨fun error hfaulty ↦ ih _ (hfault error hfaulty), ?_⟩
    revert hfine
    cases run tables with
    | error error => exact ih _
    | ok reply => exact fun hfine ↦ ⟨hfine.1, ih _ hfine.2⟩
  | commit ctx next ih =>
    obtain ⟨tx, htx, hfault, hfine⟩ := h
    refine ⟨tx, htx, fun error hfaulty ↦ ih _ (hfault error hfaulty), ?_⟩
    split_ifs at hfine ⊢
    · exact ih _ hfine
    · exact ⟨hfine.1, hfine.2.1, ih _ hfine.2.2⟩
  | rollback next ih => exact ⟨h.1, ih h.2⟩

/-! ### Soundness -/

/-- The precondition of a program holds in a state: of the tables as it last knew them, which others
have changed only as they may, and not at all while its transaction is open. -/
def Ready (terms : Terms σ) (post : α → Phase σ → Prop) (prog : Prog σ ε α) (spent : Bool)
    (committed : σ) (tx : Option (Tx σ)) : Prop :=
  ∃ seen, terms.rely seen committed ∧ (tx.isSome → seen = committed) ∧
    prog.wp terms post ⟨spent, seen, tx⟩

/-- What a step does to the committed tables and to the transaction. -/
def Changes (terms : Terms σ) (spent : Bool) (committed : σ) (tx : Option (Tx σ))
    (outcome : Outcome σ ε α) : Prop :=
  match outcome.event with
  | .quiet => outcome.tx.isSome = tx.isSome ∧ (outcome.committed = committed ∨
      (tx = none ∧ terms.touch committed outcome.committed))
  | .began => tx = none ∧ outcome.tx.isSome ∧ outcome.committed = committed
  | .ended => tx.isSome ∧ outcome.tx = none ∧ outcome.committed = committed
  | .wrote => tx.isSome ∧ outcome.tx = none ∧ spent = false ∧
      terms.effect committed outcome.committed

/-- A program that stands ready stays so when others change the tables as they may. -/
theorem Ready.relies [IsTrans σ terms.rely] {prog : Prog σ ε α} {spent : Bool} {committed new : σ}
    (h : prog.Ready terms post spent committed none) (hrely : terms.rely committed new) :
    prog.Ready terms post spent new none := by
  obtain ⟨seen, hseen, -, hwp⟩ := h
  exact ⟨seen, IsTrans.trans _ _ _ hseen hrely, by simp, hwp⟩

/-- A step of a program that stands ready keeps it ready, and does to the tables and to the
transaction what the terms say. -/
theorem Ready.next [Std.Refl terms.rely] {txDone : ε} {prog : Prog σ ε α} {spent : Bool}
    {committed : σ} {tx : Option (Tx σ)} {answer : Answer ε} {outcome : Outcome σ ε α}
    (h : prog.Ready terms post spent committed tx) (hpermits : prog.Permits terms.faulty answer)
    (hnext : prog.next txDone committed tx answer = some outcome) :
    outcome.prog.Ready terms post (outcome.event.spends spent) outcome.committed outcome.tx ∧
      Changes terms spent committed tx outcome := by
  obtain ⟨seen, hrely, hsame, hwp⟩ := h
  have hrefl : ∀ tables : σ, terms.rely tables tables := Std.Refl.refl
  cases prog with
  | ret value => cases hnext
  | draw next =>
    cases answer <;>
    · obtain rfl := Option.some.inj hnext
      exact ⟨⟨seen, hrely, hsame, hwp _⟩, rfl, Or.inl rfl⟩
  | beginTx ctx readOnly next =>
    obtain ⟨htx, hwp⟩ := hwp
    obtain rfl : tx = none := htx
    obtain ⟨hfault, hfine⟩ := hwp committed hrely
    cases answer with
    | fine number =>
      obtain rfl := Option.some.inj hnext
      exact ⟨⟨committed, hrefl _, fun _ ↦ rfl, hfine⟩, rfl, rfl, rfl⟩
    | fault error =>
      obtain rfl := Option.some.inj hnext
      exact ⟨⟨committed, hrefl _, fun _ ↦ rfl, hfault error (hpermits ctx rfl)⟩,
        rfl, Or.inl rfl⟩
  | stmt ctx run next =>
    rw [wp] at hwp
    obtain ⟨tx, rfl, hfault, hfine⟩ := hwp
    obtain rfl := hsame rfl
    cases answer with
    | fine number =>
      simp only [Prog.next] at hnext
      cases hrun : run tx.tables with
      | error error =>
        simp only [hrun] at hnext hfine
        obtain rfl := Option.some.inj hnext
        exact ⟨⟨seen, hrely, fun _ ↦ rfl, hfine⟩, rfl, Or.inl rfl⟩
      | ok reply =>
        simp only [hrun] at hnext hfine
        obtain rfl := Option.some.inj hnext
        exact ⟨⟨seen, hrely, fun _ ↦ rfl, hfine⟩, rfl, Or.inl rfl⟩
    | fault error =>
      obtain rfl := Option.some.inj hnext
      exact ⟨⟨seen, hrely, fun _ ↦ rfl, hfault error (hpermits ctx rfl)⟩, rfl,
        Or.inl rfl⟩
  | direct ctx run next =>
    obtain ⟨htx, hwp⟩ := hwp
    obtain rfl : tx = none := htx
    obtain ⟨hfault, hfine⟩ := hwp committed hrely
    cases answer with
    | fine number =>
      simp only [Prog.next] at hnext
      cases hrun : run committed with
      | error error =>
        simp only [hrun] at hnext hfine
        obtain rfl := Option.some.inj hnext
        exact ⟨⟨committed, hrefl _, fun _ ↦ rfl, hfine⟩, rfl, Or.inl rfl⟩
      | ok reply =>
        simp only [hrun] at hnext hfine
        obtain rfl := Option.some.inj hnext
        exact ⟨⟨reply.2, hrefl _, fun _ ↦ rfl, hfine.2⟩, rfl, Or.inr ⟨rfl, hfine.1⟩⟩
    | fault error =>
      obtain rfl := Option.some.inj hnext
      exact ⟨⟨committed, hrefl _, fun _ ↦ rfl, hfault error (hpermits ctx rfl)⟩,
        rfl, Or.inl rfl⟩
  | commit ctx next =>
    obtain ⟨tx, rfl, hfault, hfine⟩ := hwp
    obtain rfl := hsame rfl
    cases answer with
    | fine number =>
      simp only [Prog.next] at hnext
      by_cases hreadOnly : tx.readOnly
      · simp only [hreadOnly, if_true] at hnext hfine
        obtain rfl := Option.some.inj hnext
        exact ⟨⟨seen, hrely, fun _ ↦ rfl, hfine⟩, rfl, rfl, rfl⟩
      · simp only [hreadOnly] at hnext hfine
        obtain rfl := Option.some.inj hnext
        exact ⟨⟨tx.tables, hrefl _, fun _ ↦ rfl, hfine.2.2⟩, rfl, rfl, hfine.1,
          hfine.2.1⟩
    | fault error =>
      obtain rfl := Option.some.inj hnext
      exact ⟨⟨seen, hrely, fun _ ↦ rfl, hfault error (hpermits ctx rfl)⟩, rfl, rfl,
        rfl⟩
  | rollback next =>
    obtain ⟨htx, hwp⟩ := hwp
    obtain rfl := hsame htx
    obtain rfl := Option.some.inj hnext
    exact ⟨⟨seen, hrely, fun _ ↦ rfl, hwp⟩, htx, rfl, rfl⟩

/-- A step that begins a transaction, or that changes the committed tables outside one, is a call
that needs the connection. -/
theorem connects_of_next {txDone : ε} {prog : Prog σ ε α} {committed : σ} {answer : Answer ε}
    {outcome : Outcome σ ε α} (hnext : prog.next txDone committed none answer = some outcome)
    (hchange : outcome.event = .began ∨ outcome.committed ≠ committed) :
    prog.connects = true := by
  cases prog with
  | beginTx ctx readOnly next => rfl
  | direct ctx run next => rfl
  | ret value => cases hnext
  | draw next =>
    cases answer <;>
    · obtain rfl := Option.some.inj hnext
      simp at hchange
  | stmt ctx run next =>
    obtain rfl := Option.some.inj hnext
    simp at hchange
  | commit ctx next =>
    obtain rfl := Option.some.inj hnext
    simp at hchange
  | rollback next =>
    obtain rfl := Option.some.inj hnext
    simp at hchange

/-- A program that runs alone ends where its precondition says. -/
theorem Ready.run {txDone : ε} {faulty : Ctx → Prop} [DecidablePred faulty]
    {effect touch : σ → σ → Prop} {answers : List (Answer ε)} {prog : Prog σ ε α} {spent : Bool}
    {committed committed' : σ} {tx : Option (Tx σ)} {value : α}
    (h : prog.Ready ⟨faulty, Eq, effect, touch⟩ post spent committed tx)
    (hrun : prog.run txDone faulty answers committed tx = some (value, committed')) :
    ∃ phase, phase.tables = committed' ∧ post value phase := by
  induction answers generalizing prog spent committed tx with
  | nil =>
    cases prog <;> cases hrun
    obtain ⟨seen, rfl, -, hwp⟩ := h
    exact ⟨_, rfl, hwp⟩
  | cons answer answers ih =>
    have hcases : (∃ value', prog = .ret value') ∨ prog.Permits faulty answer ∧
        ∃ outcome, prog.next txDone committed tx answer = some outcome ∧
          outcome.prog.run txDone faulty answers outcome.committed outcome.tx =
            some (value, committed') := by
      cases prog with
      | ret value' => exact Or.inl ⟨value', rfl⟩
      | _ =>
        rw [Prog.run] at hrun
        · split_ifs at hrun with hpermits
          exact Or.inr ⟨hpermits, Option.bind_eq_some_iff.mp hrun⟩
        · simp
    rcases hcases with ⟨value', rfl⟩ | ⟨hpermits, outcome, hnext, hrest⟩
    · cases hrun
      obtain ⟨seen, rfl, -, hwp⟩ := h
      exact ⟨_, rfl, hwp⟩
    · exact ih (h.next hpermits hnext).1 hrest

/-- A program that stands ready is not stuck. -/
theorem Ready.exists_next {txDone : ε} {prog : Prog σ ε α} {spent : Bool} {committed : σ}
    {tx : Option (Tx σ)} (h : prog.Ready terms post spent committed tx) (answer : Answer ε) :
    (∃ value, prog = .ret value) ∨
      ∃ outcome, prog.next txDone committed tx answer = some outcome := by
  obtain ⟨seen, -, -, hwp⟩ := h
  cases prog with
  | ret value => exact Or.inl ⟨value, rfl⟩
  | draw next => cases answer <;> exact Or.inr ⟨_, rfl⟩
  | beginTx ctx readOnly next =>
    obtain rfl : tx = none := hwp.1
    cases answer <;> exact Or.inr ⟨_, rfl⟩
  | stmt ctx run next =>
    rw [wp] at hwp
    obtain ⟨tx, rfl, -⟩ := hwp
    cases answer with
    | fault error => exact Or.inr ⟨_, rfl⟩
    | fine number => simp only [Prog.next]; cases run tx.tables <;> exact Or.inr ⟨_, rfl⟩
  | direct ctx run next =>
    obtain rfl : tx = none := hwp.1
    cases answer with
    | fault error => exact Or.inr ⟨_, rfl⟩
    | fine number => simp only [Prog.next]; cases run committed <;> exact Or.inr ⟨_, rfl⟩
  | commit ctx next =>
    obtain ⟨tx, rfl, -⟩ := hwp
    cases answer with
    | fault error => exact Or.inr ⟨_, rfl⟩
    | fine number => simp only [Prog.next]; split_ifs <;> exact Or.inr ⟨_, rfl⟩
  | rollback next => exact Or.inr ⟨_, rfl⟩

/-- Programs take finitely many steps: what holds of a program as soon as it holds after each of its
steps holds of every program. -/
theorem step_induction {P : Prog σ ε α → Prop} (txDone : ε)
    (hstep : ∀ prog : Prog σ ε α, (∀ committed tx answer outcome,
      prog.next txDone committed tx answer = some outcome → P outcome.prog) → P prog)
    (prog : Prog σ ε α) : P prog := by
  induction prog with
  | ret value =>
    refine hstep _ fun committed tx answer outcome hnext ↦ ?_
    cases hnext
  | draw next ih =>
    refine hstep _ fun committed tx answer outcome hnext ↦ ?_
    cases answer <;>
    · obtain rfl := Option.some.inj hnext
      exact ih _
  | beginTx ctx readOnly next ih =>
    refine hstep _ fun committed tx answer outcome hnext ↦ ?_
    cases tx with
    | some tx => cases hnext
    | none =>
      cases answer <;>
      · obtain rfl := Option.some.inj hnext
        exact ih _
  | stmt ctx run next ih =>
    refine hstep _ fun committed tx answer outcome hnext ↦ ?_
    simp only [Prog.next] at hnext
    split at hnext
    · obtain rfl := Option.some.inj hnext
      exact ih _
    · obtain rfl := Option.some.inj hnext
      exact ih _
    · split at hnext <;>
      · obtain rfl := Option.some.inj hnext
        exact ih _
  | direct ctx run next ih =>
    refine hstep _ fun committed tx answer outcome hnext ↦ ?_
    simp only [Prog.next] at hnext
    split at hnext
    · cases hnext
    · obtain rfl := Option.some.inj hnext
      exact ih _
    · split at hnext <;>
      · obtain rfl := Option.some.inj hnext
        exact ih _
  | commit ctx next ih =>
    refine hstep _ fun committed tx answer outcome hnext ↦ ?_
    simp only [Prog.next] at hnext
    split at hnext
    · obtain rfl := Option.some.inj hnext
      exact ih _
    · obtain rfl := Option.some.inj hnext
      exact ih _
    · split_ifs at hnext <;>
      · obtain rfl := Option.some.inj hnext
        exact ih _
  | rollback next ih =>
    refine hstep _ fun committed tx answer outcome hnext ↦ ?_
    obtain rfl := Option.some.inj hnext
    exact ih

/-- A program that stands ready and runs alone comes to its end when no call fails. -/
theorem Ready.exists_run [Std.Refl terms.rely] (txDone : ε) (faulty : Ctx → Prop)
    [DecidablePred faulty] {prog : Prog σ ε α} {spent : Bool} {committed : σ}
    {tx : Option (Tx σ)} (h : prog.Ready terms post spent committed tx) :
    ∃ answers value committed', prog.run txDone faulty answers committed tx =
      some (value, committed') := by
  revert spent committed tx
  refine step_induction (P := fun prog ↦ ∀ {spent : Bool} {committed : σ} {tx : Option (Tx σ)},
    prog.Ready terms post spent committed tx → ∃ answers value committed',
      prog.run txDone faulty answers committed tx = some (value, committed')) txDone ?_ prog
  intro prog ih spent committed tx h
  rcases h.exists_next (.fine 0) with ⟨value, rfl⟩ | ⟨outcome, hnext⟩
  · exact ⟨[], value, committed, rfl⟩
  · have hpermits : ∀ faulty, prog.Permits faulty (.fine 0 : Answer ε) := fun _ ↦ trivial
    obtain ⟨answers, value, committed', hrun⟩ := ih _ _ _ _ hnext (h.next (hpermits _) hnext).1
    refine ⟨.fine 0 :: answers, value, committed', ?_⟩
    rw [Prog.run]
    · rw [if_pos (hpermits faulty), hnext]
      exact hrun
    · rintro value rfl
      cases hnext

end Prog

end CodexQueueBot.Lib
