import CodexQueueBot.Lib.Transaction

/-!
# Programs that nothing disturbs

A program that runs alone, and none of whose calls fails from outside, has only its own errors left.
`Ends` is its weakest precondition: what a postcondition asks of the committed tables and of the
open transaction that the program starts with. It is a total one, so that a program which needs the
connection while it holds it has none. `Ends.run` says that it holds after every run with fine
answers, and `Ends.exists_run` that there is such a run.
-/

set_option autoImplicit false
set_option relaxedAutoImplicit false

namespace CodexQueueBot.Lib

/-- Answers with which no call fails from outside. -/
def Fine {ε : Type} (answers : List (Answer ε)) : Prop :=
  ∀ answer ∈ answers, ∃ number, answer = .fine number

namespace Prog

variable {σ ε α β : Type}

/-- The weakest precondition of a program that nothing disturbs. -/
def Ends (txDone : ε) :
    Prog σ ε α → (α → σ → Option (Tx σ) → Prop) → σ → Option (Tx σ) → Prop
  | ret value, post, committed, tx => post value committed tx
  | draw next, post, committed, tx =>
    ∀ number, (next (some number)).Ends txDone post committed tx
  | beginTx _ readOnly next, post, committed, tx =>
    tx = none ∧ (next none).Ends txDone post committed (some ⟨readOnly, committed⟩)
  | stmt _ run next, post, committed, tx =>
    match tx with
    | none => (next (.error txDone)).Ends txDone post committed none
    | some tx =>
      match run tx.tables with
      | .error error => (next (.error error)).Ends txDone post committed (some tx)
      | .ok (reply, tables) =>
        (next (.ok reply)).Ends txDone post committed (some { tx with tables })
  | direct _ run next, post, committed, tx =>
    tx = none ∧
      match run committed with
      | .error error => (next (.error error)).Ends txDone post committed none
      | .ok (reply, tables) => (next (.ok reply)).Ends txDone post tables none
  | commit _ next, post, committed, tx =>
    match tx with
    | none => (next (some txDone)).Ends txDone post committed none
    | some tx =>
      (next none).Ends txDone post (if tx.readOnly then committed else tx.tables) none
  | rollback next, post, committed, _ => next.Ends txDone post committed none

variable {txDone : ε} {committed : σ} {tx : Option (Tx σ)}

/-- The precondition of a program that goes on with another one. -/
theorem ends_bind (prog : Prog σ ε α) (k : α → Prog σ ε β)
    (post : β → σ → Option (Tx σ) → Prop) :
    (prog.bind k).Ends txDone post committed tx ↔
      prog.Ends txDone (fun value ↦ (k value).Ends txDone post) committed tx := by
  induction prog generalizing committed tx with
  | ret value => rfl
  | draw next ih => exact forall_congr' fun number ↦ ih _
  | beginTx ctx readOnly next ih => exact and_congr_right fun _ ↦ ih _
  | stmt ctx run next ih =>
    cases tx with
    | none => exact ih _
    | some tx =>
      simp only [bind, Ends]
      cases run tx.tables <;> exact ih _
  | direct ctx run next ih =>
    simp only [bind, Ends]
    refine and_congr_right fun _ ↦ ?_
    cases run committed <;> exact ih _
  | commit ctx next ih => cases tx <;> exact ih _
  | rollback next ih => exact ih

variable {post : α → σ → Option (Tx σ) → Prop}

/-- A weaker postcondition has a weaker precondition. -/
theorem Ends.mono {prog : Prog σ ε α} {post' : α → σ → Option (Tx σ) → Prop}
    (himp : ∀ value committed tx, post value committed tx → post' value committed tx)
    (h : prog.Ends txDone post committed tx) : prog.Ends txDone post' committed tx := by
  induction prog generalizing committed tx with
  | ret value => exact himp _ _ _ h
  | draw next ih => exact fun number ↦ ih _ (h number)
  | beginTx ctx readOnly next ih => exact ⟨h.1, ih _ h.2⟩
  | stmt ctx run next ih =>
    cases tx with
    | none => exact ih _ h
    | some tx =>
      simp only [Ends] at h ⊢
      cases hrun : run tx.tables <;>
      · rw [hrun] at h
        exact ih _ h
  | direct ctx run next ih =>
    rw [Ends] at h ⊢
    obtain ⟨rfl, h⟩ := h
    refine ⟨rfl, ?_⟩
    cases hrun : run committed <;>
    · rw [hrun] at h
      exact ih _ h
  | commit ctx next ih => cases tx <;> exact ih _ h
  | rollback next ih => exact ih h

/-- A step with a fine answer leads to a program whose precondition holds. -/
theorem Ends.next {prog : Prog σ ε α} (h : prog.Ends txDone post committed tx) {number : ℕ}
    {outcome : Outcome σ ε α}
    (hnext : prog.next txDone committed tx (.fine number) = some outcome) :
    outcome.prog.Ends txDone post outcome.committed outcome.tx := by
  cases prog with
  | ret value => cases hnext
  | draw next =>
    obtain rfl := Option.some.inj hnext
    exact h number
  | beginTx ctx readOnly next =>
    obtain ⟨rfl, h⟩ := h
    obtain rfl := Option.some.inj hnext
    exact h
  | stmt ctx run next =>
    cases tx with
    | none =>
      obtain rfl := Option.some.inj hnext
      exact h
    | some tx =>
      simp only [Prog.next, Ends] at hnext h
      cases hrun : run tx.tables <;>
      · rw [hrun] at hnext h
        obtain rfl := Option.some.inj hnext
        exact h
  | direct ctx run next =>
    rw [Ends] at h
    obtain ⟨rfl, h⟩ := h
    simp only [Prog.next] at hnext
    cases hrun : run committed <;>
    · rw [hrun] at hnext h
      obtain rfl := Option.some.inj hnext
      exact h
  | commit ctx next =>
    cases tx with
    | none =>
      obtain rfl := Option.some.inj hnext
      exact h
    | some tx =>
      simp only [Prog.next, Ends] at hnext h
      split_ifs at hnext h <;>
      · obtain rfl := Option.some.inj hnext
        exact h
  | rollback next =>
    obtain rfl := Option.some.inj hnext
    exact h

/-- A program with a precondition that holds is not stuck. -/
theorem Ends.exists_next {prog : Prog σ ε α} (h : prog.Ends txDone post committed tx)
    (number : ℕ) : (∃ value, prog = .ret value) ∨
      ∃ outcome, prog.next txDone committed tx (.fine number) = some outcome := by
  cases prog with
  | ret value => exact Or.inl ⟨value, rfl⟩
  | draw next => exact Or.inr ⟨_, rfl⟩
  | beginTx ctx readOnly next =>
    obtain ⟨rfl, -⟩ := h
    exact Or.inr ⟨_, rfl⟩
  | stmt ctx run next =>
    cases tx with
    | none => exact Or.inr ⟨_, rfl⟩
    | some tx =>
      simp only [Prog.next]
      cases run tx.tables <;> exact Or.inr ⟨_, rfl⟩
  | direct ctx run next =>
    rw [Ends] at h
    obtain ⟨rfl, -⟩ := h
    simp only [Prog.next]
    cases run committed <;> exact Or.inr ⟨_, rfl⟩
  | commit ctx next =>
    cases tx with
    | none => exact Or.inr ⟨_, rfl⟩
    | some tx =>
      simp only [Prog.next]
      split_ifs <;> exact Or.inr ⟨_, rfl⟩
  | rollback next => exact Or.inr ⟨_, rfl⟩

/-- What holds after a program whose calls may fail holds after it when none does. -/
theorem ends_of_wp {faulty : Ctx → Prop} {effect touch : σ → σ → Prop} {prog : Prog σ ε α}
    {post : α → Phase σ → Prop} {spent : Bool}
    (h : prog.wp ⟨faulty, Eq, effect, touch⟩ post ⟨spent, committed, tx⟩) :
    prog.Ends txDone (fun value committed tx ↦ ∃ spent, post value ⟨spent, committed, tx⟩)
      committed tx := by
  induction prog generalizing spent committed tx with
  | ret value => exact ⟨spent, h⟩
  | draw next ih => exact fun number ↦ ih _ (h _)
  | beginTx ctx readOnly next ih => exact ⟨h.1, ih _ (h.2 committed rfl).2⟩
  | stmt ctx run next ih =>
    rw [wp] at h
    obtain ⟨tx, rfl, -, h⟩ := h
    simp only [Ends]
    cases hrun : run tx.tables <;>
    · rw [hrun] at h
      exact ih _ h
  | direct ctx run next ih =>
    obtain ⟨rfl, h⟩ := h
    have h := (h committed rfl).2
    rw [Ends]
    refine ⟨rfl, ?_⟩
    cases hrun : run committed with
    | error error =>
      rw [hrun] at h
      exact ih _ h
    | ok reply =>
      rw [hrun] at h
      exact ih _ h.2
  | commit ctx next ih =>
    obtain ⟨tx, rfl, -, h⟩ := h
    simp only [Ends]
    split_ifs at h ⊢
    · exact ih _ h
    · exact ih _ h.2.2
  | rollback next ih => exact ih h.2

variable {faulty : Ctx → Prop} [DecidablePred faulty]

/-- Every run with fine answers ends where the precondition says. -/
theorem Ends.run {answers : List (Answer ε)} {prog : Prog σ ε α} {value : α} {committed' : σ}
    (h : prog.Ends txDone post committed tx) (hfine : Fine answers)
    (hrun : prog.run txDone faulty answers committed tx = some (value, committed')) :
    ∃ tx', post value committed' tx' := by
  induction answers generalizing prog committed tx with
  | nil =>
    cases prog <;> cases hrun
    exact ⟨tx, h⟩
  | cons answer answers ih =>
    obtain ⟨⟨number, rfl⟩, hrest⟩ := List.forall_mem_cons.mp hfine
    rcases h.exists_next number with ⟨value', rfl⟩ | ⟨outcome, hnext⟩
    · cases hrun
      exact ⟨tx, h⟩
    · rw [Prog.run] at hrun
      · rw [if_pos (show prog.Permits faulty (.fine number) from trivial), hnext] at hrun
        exact ih (h.next hnext) hrest hrun
      · rintro value' rfl
        cases hnext

/-- There is a run with fine answers. -/
theorem Ends.exists_run {prog : Prog σ ε α} (h : prog.Ends txDone post committed tx) :
    ∃ answers value committed', Fine answers ∧
      prog.run txDone faulty answers committed tx = some (value, committed') := by
  revert committed tx
  refine step_induction (P := fun prog ↦ ∀ {committed : σ} {tx : Option (Tx σ)},
    prog.Ends txDone post committed tx → ∃ answers value committed', Fine answers ∧
      prog.run txDone faulty answers committed tx = some (value, committed')) txDone ?_ prog
  intro prog ih committed tx h
  rcases h.exists_next 0 with ⟨value, rfl⟩ | ⟨outcome, hnext⟩
  · exact ⟨[], value, committed, by simp [Fine], rfl⟩
  · obtain ⟨answers, value, committed', hfine, hrun⟩ := ih _ _ _ _ hnext (h.next hnext)
    refine ⟨.fine 0 :: answers, value, committed', List.forall_mem_cons.mpr ⟨⟨0, rfl⟩, hfine⟩, ?_⟩
    rw [Prog.run]
    · rw [if_pos (show prog.Permits faulty (.fine 0) from trivial), hnext]
      exact hrun
    · rintro value rfl
      cases hnext

end Prog

end CodexQueueBot.Lib
