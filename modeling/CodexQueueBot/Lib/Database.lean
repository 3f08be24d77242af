import CodexQueueBot.Lib.Transaction
import Mathlib.Data.List.Nodup
import Mathlib.Tactic.Tauto

/-!
# Calls that share a connection

A database is used by calls of operations that run concurrently over one pooled connection. A step
is one call of one program, so that calls interleave in every way that the connection allows: while
a transaction is open, its owner alone runs statements, and a call that needs the connection waits.

`Sound` is the invariant: every call stands ready on the terms of its operation, the owner of an
open transaction has begun one more than it has ended, every other call has ended all it has begun,
no call has committed written tables twice, and a property of the committed operations and the
tables that every effect keeps holds of the log. `sound_of_steps` derives it for every run from the
preconditions of the programs.
-/

set_option autoImplicit false
set_option relaxedAutoImplicit false

namespace CodexQueueBot.Lib

variable {Op σ ε α : Type}

/-- A call of an operation: what is left of its program, and how many transactions it has begun and
ended. -/
structure Call (Op σ ε α : Type) where
  op : Op
  prog : Prog σ ε α
  begun : ℕ := 0
  ended : ℕ := 0

/-- The committed tables, the open transaction with its owner, the calls in the order in which they
were made, and those that have committed written tables, in the order in which they did. -/
structure Database (Op σ ε α : Type) where
  committed : σ
  tx : Option (ℕ × Tx σ) := none
  calls : List (Call Op σ ε α) := []
  log : List ℕ := []

/-- What happens next: a call is made, or one takes a step. -/
inductive DatabaseLabel (Op ε : Type)
  | call (op : Op)
  | advance (self : ℕ) (answer : Answer ε)

/-- A call after a step of its program. -/
def Call.apply (call : Call Op σ ε α) (outcome : Prog.Outcome σ ε α) : Call Op σ ε α :=
  match outcome.event with
  | .quiet => { call with prog := outcome.prog }
  | .began => { call with prog := outcome.prog, begun := call.begun + 1 }
  | .ended => { call with prog := outcome.prog, ended := call.ended + 1 }
  | .wrote => { call with prog := outcome.prog, ended := call.ended + 1 }

/-- A call has returned. -/
def Call.returned (call : Call Op σ ε α) : Prop :=
  ∃ value, call.prog = .ret value

namespace Database

/-- The open transaction, if a call owns it. -/
def own (s : Database Op σ ε α) (self : ℕ) : Option (Tx σ) :=
  match s.tx with
  | some (owner, tx) => if owner = self then some tx else none
  | none => none

/-- The state after a step of a call. -/
def apply (s : Database Op σ ε α) (self : ℕ) (call : Call Op σ ε α)
    (outcome : Prog.Outcome σ ε α) : Database Op σ ε α where
  committed := outcome.committed
  tx := match outcome.tx with
    | some tx => some (self, tx)
    | none => if (s.own self).isSome then none else s.tx
  calls := s.calls.set self (call.apply outcome)
  log := match outcome.event with
    | .wrote => s.log ++ [self]
    | _ => s.log

/-- The transition function. -/
def step (txDone : ε) (program : Op → Prog σ ε α) (s : Database Op σ ε α) :
    DatabaseLabel Op ε → Option (Database Op σ ε α)
  | .call op => some { s with calls := s.calls ++ [{ op, prog := program op }] }
  | .advance self answer => do
    let call ← s.calls[self]?
    if call.prog.connects && s.tx.isSome then none
    else
      let outcome ← call.prog.next txDone s.committed (s.own self) answer
      return s.apply self call outcome

/-- The answers that the contexts allow. -/
def Permitted (faulty : Ctx → Prop) (s : Database Op σ ε α) : DatabaseLabel Op ε → Prop
  | .call _ => True
  | .advance self answer => ∀ call, s.calls[self]? = some call → call.prog.Permits faulty answer

/-- Where every context is faulty, every answer is allowed. -/
theorem permitted_of_forall {faulty : Ctx → Prop} (h : ∀ ctx, faulty ctx)
    (s : Database Op σ ε α) (label : DatabaseLabel Op ε) : Permitted faulty s label := by
  cases label with
  | call op => trivial
  | advance self answer =>
    intro call _
    cases answer with
    | fine number => trivial
    | fault error => exact fun ctx _ ↦ h ctx

/-- The operations that have committed written tables, in the order in which they did. -/
def writers (s : Database Op σ ε α) : List Op :=
  s.log.filterMap fun self ↦ (s.calls[self]?).map (·.op)

/-! ### The owner of the transaction -/

variable {s : Database Op σ ε α} {self other : ℕ}

/-- The transaction that a call owns is the open one. -/
theorem own_eq_some_iff {tx : Tx σ} : s.own self = some tx ↔ s.tx = some (self, tx) := by
  unfold own
  cases htx : s.tx with
  | none => simp
  | some open_ =>
    obtain ⟨owner, tx'⟩ := open_
    by_cases howner : owner = self <;> simp [howner]

/-- A call that owns a transaction is the only one. -/
theorem own_eq_none_of_ne (hown : (s.own self).isSome) (hne : other ≠ self) :
    s.own other = none := by
  obtain ⟨tx, htx⟩ := Option.isSome_iff_exists.mp hown
  rw [own_eq_some_iff] at htx
  simp [own, htx, Ne.symm hne]

/-- Without an open transaction no call owns one. -/
theorem own_eq_none (h : s.tx = none) (self : ℕ) : s.own self = none := by
  rw [own, h]

/-- The transaction of a call after a step of it. -/
theorem own_apply_self (call : Call Op σ ε α) (outcome : Prog.Outcome σ ε α) :
    (s.apply self call outcome).own self = outcome.tx := by
  cases houtcome : outcome.tx with
  | some tx => simp [own_eq_some_iff, apply, houtcome]
  | none =>
    by_contra hown
    obtain ⟨tx, htx⟩ := Option.ne_none_iff_exists'.mp hown
    rw [own_eq_some_iff] at htx
    simp only [apply, houtcome] at htx
    split_ifs at htx with hsome
    rw [← own_eq_some_iff] at htx
    simp [htx] at hsome

/-- Assumes: a transaction that the step leaves open was open before, or none was. The transactions
of the other calls are as before. -/
theorem own_apply_of_ne (call : Call Op σ ε α) {outcome : Prog.Outcome σ ε α}
    (hopen : outcome.tx.isSome → (s.own self).isSome ∨ s.tx = none) (hne : other ≠ self) :
    (s.apply self call outcome).own other = s.own other := by
  cases houtcome : outcome.tx with
  | some tx =>
    have hnone : s.own other = none := by
      rcases hopen (by simp [houtcome]) with hown | hfree
      · exact own_eq_none_of_ne hown hne
      · exact own_eq_none hfree other
    rw [hnone]
    simp [own, apply, houtcome, Ne.symm hne]
  | none =>
    by_cases hown : (s.own self).isSome
    · have htx : (s.apply self call outcome).tx = none := by
        simp only [apply, houtcome, hown, if_true]
      rw [own_eq_none_of_ne hown hne, own_eq_none htx]
    · have htx : (s.apply self call outcome).tx = s.tx := by
        simp only [apply, houtcome, hown, Bool.false_eq_true, if_false]
      simp only [own, htx]

/-! ### The invariant -/

/-- The postcondition of every operation: no transaction is open. -/
def closed (_ : α) (phase : Prog.Phase σ) : Prop :=
  phase.tx = none

/-- The invariant of a database: see the head of this module. -/
structure Sound (terms : Op → Prog.Terms σ) (history : List Op → σ → Prop)
    (s : Database Op σ ε α) : Prop where
  ready : ∀ (self : ℕ) (call : Call Op σ ε α), s.calls[self]? = some call →
    call.prog.Ready (terms call.op) closed (decide (self ∈ s.log)) s.committed (s.own self)
  counted : ∀ (self : ℕ) (call : Call Op σ ε α), s.calls[self]? = some call →
    call.begun = call.ended + if (s.own self).isSome then 1 else 0
  owned : ∀ (self : ℕ) (tx : Tx σ), s.tx = some (self, tx) → self < s.calls.length
  logged : ∀ self ∈ s.log, self < s.calls.length
  nodup : s.log.Nodup
  history : history s.writers s.committed

variable {terms : Op → Prog.Terms σ} {history : List Op → σ → Prop}

/-- A call that has returned owns no transaction, and has ended each one it began. -/
theorem Sound.of_returned (h : s.Sound terms history) {call : Call Op σ ε α}
    (hcall : s.calls[self]? = some call) (hreturned : call.returned) :
    s.own self = none ∧ call.begun = call.ended := by
  obtain ⟨value, hvalue⟩ := hreturned
  obtain ⟨seen, -, -, hwp⟩ := h.ready self call hcall
  rw [hvalue] at hwp
  have hown : s.own self = none := hwp
  have hcounted := h.counted self call hcall
  rw [hown] at hcounted
  exact ⟨hown, hcounted⟩

/-- What the terms of the operations have in common: others rely on no less than every operation
does, and on their own the operations keep the history. -/
structure Compatible (terms : Op → Prog.Terms σ) (history : List Op → σ → Prop) : Prop where
  refl : ∀ op, Std.Refl (terms op).rely
  trans : ∀ op, IsTrans σ (terms op).rely
  effect : ∀ (op other : Op) (tables tables' : σ), (terms op).effect tables tables' →
    (terms other).rely tables tables'
  touch : ∀ (op other : Op) (tables tables' : σ), (terms op).touch tables tables' →
    (terms other).rely tables tables'
  commits : ∀ (ops : List Op) (op : Op) (tables tables' : σ), history ops tables →
    (terms op).effect tables tables' → history (ops ++ [op]) tables'
  keeps : ∀ (ops : List Op) (op : Op) (tables tables' : σ), history ops tables →
    (terms op).touch tables tables' → history ops tables'

/-- Operations that keep their place have the same writers. -/
theorem writers_congr {s s' : Database Op σ ε α} (hlog : s'.log = s.log)
    (hops : ∀ self < s.calls.length, (s'.calls[self]?).map (·.op) = (s.calls[self]?).map (·.op))
    (hlogged : ∀ self ∈ s.log, self < s.calls.length) : s'.writers = s.writers := by
  unfold writers
  rw [hlog]
  exact List.filterMap_congr fun self hmem ↦ hops self (hlogged self hmem)

/-- A step of a call keeps the operations. -/
theorem map_op_apply {call : Call Op σ ε α} (hcall : s.calls[self]? = some call)
    (outcome : Prog.Outcome σ ε α) (other : ℕ) :
    ((s.apply self call outcome).calls[other]?).map (·.op) = (s.calls[other]?).map (·.op) := by
  have hop : (call.apply outcome).op = call.op := by
    unfold Call.apply
    cases outcome.event <;> rfl
  by_cases hother : other = self
  · subst hother
    have hlt := (List.getElem?_eq_some_iff.mp hcall).1
    simp [apply, List.getElem?_set_self hlt, hcall, hop]
  · simp [apply, List.getElem?_set_ne (Ne.symm hother)]

/-- A new call keeps a sound database. -/
theorem Sound.call (h : s.Sound terms history) {txDone : ε} {program : Op → Prog σ ε α}
    (hcompatible : Compatible terms history)
    (hprogram : ∀ (op : Op) (tables : σ), (program op).wp (terms op) closed ⟨false, tables, none⟩)
    {op : Op} {s' : Database Op σ ε α} (hstep : s.step txDone program (.call op) = some s') :
    s'.Sound terms history := by
  obtain rfl := Option.some.inj hstep
  have hcases : ∀ (self : ℕ) (call : Call Op σ ε α),
      (s.calls ++ [{ op, prog := program op }])[self]? = some call →
      s.calls[self]? = some call ∨ self = s.calls.length ∧ call = { op, prog := program op } := by
    intro self call hcall
    rw [List.getElem?_append] at hcall
    split_ifs at hcall with hlt
    · exact Or.inl hcall
    · rw [List.getElem?_singleton] at hcall
      split_ifs at hcall with hzero
      exact Or.inr ⟨by omega, (Option.some.inj hcall).symm⟩
  have hfree : s.own s.calls.length = none := by
    by_contra hown
    obtain ⟨tx, htx⟩ := Option.ne_none_iff_exists'.mp hown
    exact absurd (h.owned _ tx (own_eq_some_iff.mp htx)) (Nat.lt_irrefl _)
  have hfresh : s.calls.length ∉ s.log := fun hmem ↦ absurd (h.logged _ hmem) (Nat.lt_irrefl _)
  refine ⟨?_, ?_, ?_, ?_, h.nodup, ?_⟩
  · intro self call hcall
    rcases hcases self call hcall with hold | ⟨rfl, rfl⟩
    · exact h.ready self call hold
    · change (program op).Ready _ _ _ _ (s.own s.calls.length)
      rw [hfree, decide_eq_false hfresh]
      exact ⟨s.committed, (hcompatible.refl op).refl _, by simp, hprogram op s.committed⟩
  · intro self call hcall
    rcases hcases self call hcall with hold | ⟨rfl, rfl⟩
    · exact h.counted self call hold
    · change 0 = 0 + if (s.own s.calls.length).isSome then 1 else 0
      rw [hfree]
      rfl
  · intro self tx htx
    rw [List.length_append]
    exact Nat.lt_add_right _ (h.owned self tx htx)
  · intro self hmem
    rw [List.length_append]
    exact Nat.lt_add_right _ (h.logged self hmem)
  · have hwriters : writers { s with calls := s.calls ++ [{ op, prog := program op }] } =
        s.writers := by
      refine writers_congr rfl ?_ h.logged
      intro self hlt
      rw [List.getElem?_append_left hlt]
    rw [hwriters]
    exact h.history

/-- What a step of a call leaves, on the terms of its operation. -/
theorem Sound.advance_cases (h : s.Sound terms history) (hcompatible : Compatible terms history)
    {txDone : ε} {program : Op → Prog σ ε α} {answer : Answer ε} {s' : Database Op σ ε α}
    (hpermitted : ∀ call, s.calls[self]? = some call →
      call.prog.Permits (terms call.op).faulty answer)
    (hstep : s.step txDone program (.advance self answer) = some s') :
    ∃ call outcome, s.calls[self]? = some call ∧ s' = s.apply self call outcome ∧
      outcome.prog.Ready (terms call.op) closed (outcome.event.spends (decide (self ∈ s.log)))
        outcome.committed outcome.tx ∧
      Prog.Changes (terms call.op) (decide (self ∈ s.log)) s.committed (s.own self) outcome ∧
      ((s.own self).isSome ∨ s.tx = none ∨
        outcome.event ≠ .began ∧ outcome.committed = s.committed) := by
  simp only [step, Option.bind_eq_bind, Option.bind_eq_some_iff] at hstep
  obtain ⟨call, hcall, hstep⟩ := hstep
  split_ifs at hstep with hblocked
  obtain ⟨outcome, hnext, happly⟩ := Option.bind_eq_some_iff.mp hstep
  have := hcompatible.refl call.op
  obtain ⟨hready, hchanges⟩ := (h.ready self call hcall).next (hpermitted call hcall) hnext
  refine ⟨call, outcome, hcall, (Option.some.inj happly).symm, hready, hchanges, ?_⟩
  by_cases hown : (s.own self).isSome
  · exact Or.inl hown
  · rw [Option.not_isSome_iff_eq_none] at hown
    rw [hown] at hnext
    by_cases hconnects : call.prog.connects = true
    · refine Or.inr (Or.inl ?_)
      simpa [hconnects] using hblocked
    · refine Or.inr (Or.inr ?_)
      by_contra hchange
      exact hconnects (Prog.connects_of_next hnext (by tauto))

/-! ### What a step of a call leaves -/

section Apply

variable {call : Call Op σ ε α} {outcome : Prog.Outcome σ ε α}

/-- A step keeps the operation of its call and puts in the program that is left. -/
theorem Call.apply_prog : (call.apply outcome).op = call.op ∧
    (call.apply outcome).prog = outcome.prog := by
  unfold Call.apply
  cases outcome.event <;> exact ⟨rfl, rfl⟩

/-- The calls after a step: the one that took it, and the others as before. -/
theorem getElem?_apply {call' : Call Op σ ε α}
    (h : (s.apply self call outcome).calls[other]? = some call') :
    (other = self ∧ call' = call.apply outcome) ∨ (other ≠ self ∧ s.calls[other]? =
        some call') := by
  unfold apply at h
  rw [List.getElem?_set] at h
  split_ifs at h with hsame
  · exact Or.inl ⟨hsame.symm, (Option.some.inj h).symm⟩
  · exact Or.inr ⟨Ne.symm hsame, h⟩

/-- A step logs nothing of the other calls. -/
theorem mem_log_apply_of_ne (hne : other ≠ self) :
    other ∈ (s.apply self call outcome).log ↔ other ∈ s.log := by
  unfold apply
  cases outcome.event <;> simp [hne]

/-- A call is in the log if it was, or if the step wrote. -/
theorem mem_log_apply_self : decide (self ∈ (s.apply self call outcome).log) =
    outcome.event.spends (decide (self ∈ s.log)) := by
  unfold apply
  cases outcome.event <;> simp [Prog.Event.spends]

/-- Transactions begun and ended stay in balance. -/
theorem Call.balance_apply {terms : Prog.Terms σ} {spent : Bool} {tx : Option (Tx σ)}
    (hchanges : Prog.Changes terms spent s.committed tx outcome)
    (hcounted : call.begun = call.ended + if tx.isSome then 1 else 0) :
    (call.apply outcome).begun =
      (call.apply outcome).ended + if outcome.tx.isSome then 1 else 0 := by
  unfold Prog.Changes at hchanges
  unfold Call.apply
  cases hevent : outcome.event <;> simp only [hevent] at hchanges ⊢
  case quiet => rw [hchanges.1, hcounted]
  case began =>
    rw [hchanges.1] at hcounted
    simp [hcounted, hchanges.2.1]
  case ended =>
    rw [if_pos hchanges.1] at hcounted
    simp [hcounted, hchanges.2.1]
  case wrote =>
    rw [if_pos hchanges.1] at hcounted
    simp [hcounted, hchanges.2.1]

/-- A transaction that a step leaves open was open before, or the connection was free. -/
theorem open_of_changes {terms : Prog.Terms σ} {spent : Bool}
    (hchanges : Prog.Changes terms spent s.committed (s.own self) outcome)
    (hconnection : (s.own self).isSome ∨ s.tx = none ∨
      outcome.event ≠ .began ∧ outcome.committed = s.committed) (hsome : outcome.tx.isSome) :
    (s.own self).isSome ∨ s.tx = none := by
  unfold Prog.Changes at hchanges
  rcases hconnection with hown | hfree | ⟨hbegan, -⟩
  · exact Or.inl hown
  · exact Or.inr hfree
  · cases hevent : outcome.event <;> simp only [hevent] at hchanges
    case quiet => exact Or.inl (hchanges.1 ▸ hsome)
    case began => exact absurd hevent hbegan
    case ended => simp [hchanges.2.1] at hsome
    case wrote => simp [hchanges.2.1] at hsome

/-- What a step does to the committed tables, every operation relies on. -/
theorem Compatible.rely_of_changes (hcompatible : Compatible terms history) {op : Op} {spent : Bool}
    {tx : Option (Tx σ)} (hchanges : Prog.Changes (terms op) spent s.committed tx outcome)
    (other : Op) : (terms other).rely s.committed outcome.committed := by
  unfold Prog.Changes at hchanges
  cases hevent : outcome.event <;> simp only [hevent] at hchanges
  case quiet =>
    rcases hchanges.2 with hsame | ⟨-, htouch⟩
    · rw [hsame]
      exact (hcompatible.refl other).refl _
    · exact hcompatible.touch _ other _ _ htouch
  case began =>
    rw [hchanges.2.2]
    exact (hcompatible.refl other).refl _
  case ended =>
    rw [hchanges.2.2]
    exact (hcompatible.refl other).refl _
  case wrote => exact hcompatible.effect _ other _ _ hchanges.2.2.2

/-- The log stays free of repetitions. -/
theorem nodup_log_apply {terms : Prog.Terms σ} {tx : Option (Tx σ)} (hnodup : s.log.Nodup)
    (hchanges : Prog.Changes terms (decide (self ∈ s.log)) s.committed tx outcome) :
    (s.apply self call outcome).log.Nodup := by
  unfold Prog.Changes at hchanges
  unfold apply
  cases hevent : outcome.event <;> simp only [hevent] at hchanges ⊢
  case wrote =>
    refine hnodup.append (List.nodup_singleton _) ?_
    simpa using hchanges.2.2.1
  all_goals exact hnodup

/-- A step keeps the history, and adds its operation to the writers where it wrote. -/
theorem Compatible.history_apply (hcompatible : Compatible terms history) {spent : Bool}
    {tx : Option (Tx σ)} (hhistory : history s.writers s.committed)
    (hcall : s.calls[self]? = some call)
    (hchanges : Prog.Changes (terms call.op) spent s.committed tx outcome) :
    history (s.apply self call outcome).writers (s.apply self call outcome).committed := by
  have hmap : (s.log.filterMap fun other ↦
      ((s.apply self call outcome).calls[other]?).map (·.op)) = s.writers := by
    simp only [map_op_apply hcall]
    rfl
  unfold Prog.Changes at hchanges
  unfold writers
  cases hevent : outcome.event <;> simp only [hevent] at hchanges
  case quiet =>
    simp only [apply, hevent] at hmap ⊢
    rw [hmap]
    rcases hchanges.2 with hsame | ⟨-, htouch⟩
    · rw [hsame]
      exact hhistory
    · exact hcompatible.keeps _ _ _ _ hhistory htouch
  case began =>
    simp only [apply, hevent] at hmap ⊢
    rw [hmap, hchanges.2.2]
    exact hhistory
  case ended =>
    simp only [apply, hevent] at hmap ⊢
    rw [hmap, hchanges.2.2]
    exact hhistory
  case wrote =>
    have hself := map_op_apply hcall outcome self
    simp only [hcall, Option.map_some] at hself
    simp only [apply, hevent] at hmap hself ⊢
    rw [List.filterMap_append, hmap, List.filterMap_cons, hself, List.filterMap_nil]
    exact hcompatible.commits _ _ _ _ hhistory hchanges.2.2.2

end Apply

/-- A step of a call keeps a sound database. -/
theorem Sound.advance (h : s.Sound terms history) (hcompatible : Compatible terms history)
    {txDone : ε} {program : Op → Prog σ ε α} {answer : Answer ε} {s' : Database Op σ ε α}
    (hpermitted : ∀ call, s.calls[self]? = some call →
      call.prog.Permits (terms call.op).faulty answer)
    (hstep : s.step txDone program (.advance self answer) = some s') : s'.Sound terms history := by
  obtain ⟨call, outcome, hcall, rfl, hready, hchanges, hconnection⟩ :=
    h.advance_cases hcompatible hpermitted hstep
  have hlt := (List.getElem?_eq_some_iff.mp hcall).1
  have hlength : (s.apply self call outcome).calls.length = s.calls.length := by simp [apply]
  have hopen := open_of_changes hchanges hconnection
  -- Only the owner of a transaction, or a call that found the connection free, changes the
  -- committed tables.
  have hothers : ∀ other, other ≠ self → s.own other = none ∨ outcome.committed = s.committed := by
    intro other hne
    rcases hconnection with hown | hfree | ⟨-, hsame⟩
    · exact Or.inl (own_eq_none_of_ne hown hne)
    · exact Or.inl (own_eq_none hfree other)
    · exact Or.inr hsame
  constructor
  case ready =>
    intro other call' hcall'
    rcases getElem?_apply hcall' with ⟨rfl, rfl⟩ | ⟨hother, hcall'⟩
    · rw [own_apply_self, mem_log_apply_self, Call.apply_prog.1, Call.apply_prog.2]
      exact hready
    · have hold := h.ready other call' hcall'
      rw [own_apply_of_ne call hopen hother, decide_eq_decide.mpr (mem_log_apply_of_ne hother)]
      rcases hothers other hother with hown | hsame
      · rw [hown] at hold ⊢
        have := hcompatible.trans call'.op
        exact hold.relies (hcompatible.rely_of_changes hchanges call'.op)
      · change call'.prog.Ready _ _ _ outcome.committed _
        rw [hsame]
        exact hold
  case counted =>
    intro other call' hcall'
    rcases getElem?_apply hcall' with ⟨rfl, rfl⟩ | ⟨hother, hcall'⟩
    · rw [own_apply_self]
      exact Call.balance_apply hchanges (h.counted other call hcall)
    · rw [own_apply_of_ne call hopen hother]
      exact h.counted other call' hcall'
  case owned =>
    intro owner tx htx
    rw [hlength]
    simp only [apply] at htx
    split at htx
    · obtain ⟨rfl, -⟩ := Prod.mk.inj (Option.some.inj htx)
      exact hlt
    · split_ifs at htx
      exact h.owned owner tx htx
  case logged =>
    intro other hmem
    rw [hlength]
    by_cases hother : other = self
    · exact hother ▸ hlt
    · exact h.logged other ((mem_log_apply_of_ne hother).mp hmem)
  case nodup => exact nodup_log_apply h.nodup hchanges
  case history => exact hcompatible.history_apply h.history hcall hchanges

/-- Every run of sound programs is sound. -/
theorem sound_of_steps (hcompatible : Compatible terms history) {txDone : ε}
    {program : Op → Prog σ ε α}
    (hprogram : ∀ (op : Op) (tables : σ), (program op).wp (terms op) closed ⟨false, tables, none⟩)
    {faulty : Ctx → Prop} (hfaulty : ∀ op, (terms op).faulty = faulty) {initial : σ}
    (hinitial : history [] initial)
    (hrun : Steps (step txDone program) (Permitted faulty) { committed := initial } s) :
    s.Sound terms history := by
  refine hrun.invariant (P := fun s ↦ s.Sound terms history) ?_ ?_
  · intro s s' label hs hpermitted hstep
    cases label with
    | call op => exact hs.call hcompatible hprogram hstep
    | advance self answer =>
      refine hs.advance hcompatible ?_ hstep
      intro call hcall
      rw [hfaulty]
      exact hpermitted call hcall
  · refine ⟨?_, ?_, ?_, ?_, List.nodup_nil, hinitial⟩
    · intro self call hcall
      cases hcall
    · intro self call hcall
      cases hcall
    · intro self tx htx
      cases htx
    · intro self hmem
      cases hmem

/-- The operations that have committed are among those that were called. -/
theorem forall_mem_writers {allowed : Database Op σ ε α → DatabaseLabel Op ε → Prop} {P : Op → Prop}
    (hallowed : ∀ (s : Database Op σ ε α) (op : Op), allowed s (.call op) → P op) {txDone : ε}
    {program : Op → Prog σ ε α} {initial : σ}
    (hrun : Steps (step txDone program) allowed { committed := initial } s) :
    ∀ op ∈ s.writers, P op := by
  have hcalls : ∀ call ∈ s.calls, P call.op := by
    refine hrun.invariant (P := fun s ↦ ∀ call ∈ s.calls, P call.op) ?_ ?_
    · intro s s' label hs hlabel hstep
      cases label with
      | call op =>
        obtain rfl := Option.some.inj hstep
        exact List.forall_mem_append.mpr ⟨hs, List.forall_mem_singleton.mpr (hallowed s op hlabel)⟩
      | advance self answer =>
        simp only [step, Option.bind_eq_bind, Option.bind_eq_some_iff] at hstep
        obtain ⟨call, hcall, hstep⟩ := hstep
        split_ifs at hstep
        obtain ⟨outcome, -, happly⟩ := Option.bind_eq_some_iff.mp hstep
        obtain rfl := Option.some.inj happly
        intro other hother
        rcases List.mem_or_eq_of_mem_set hother with hold | rfl
        · exact hs other hold
        · rw [Call.apply_prog.1]
          exact hs call (List.mem_of_getElem? hcall)
    · intro call hcall
      cases hcall
  intro op hop
  obtain ⟨self, -, hself⟩ := List.mem_filterMap.mp hop
  obtain ⟨call, hcall, rfl⟩ := Option.map_eq_some_iff.mp hself
  exact hcalls call (List.mem_of_getElem? hcall)

end Database

end CodexQueueBot.Lib
