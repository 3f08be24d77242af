import CodexQueueBot.Lib.Transaction

/-!
# Programs that are cut off

A program that has a database for itself may be cut off at any moment; its open transaction is then
rolled back, and the next program finds the committed tables. `cwp` is the weakest precondition of
a program under a crash condition, which every change of the committed tables has to meet, so that
it holds whenever the program is cut off. The program may commit more than once. `Lives` are the
tables that a sequence of programs leaves, each cut off anywhere, and `Lives.invariant` says that
a crash condition of every program is kept. A program that is not cut off comes to its end
(`exists_finish`).

`zoom` runs a program over tables on a larger state that they are a part of.
-/

set_option autoImplicit false
set_option relaxedAutoImplicit false

namespace CodexQueueBot.Lib

/-- A program that runs alone: what is left of it, the committed tables and its transaction. -/
structure Process (σ ε α : Type) where
  prog : Prog σ ε α
  committed : σ
  tx : Option (Tx σ) := none

namespace Process

variable {σ ε α : Type}

/-- A step of a program that runs alone. -/
def step (txDone : ε) (process : Process σ ε α) (answer : Answer ε) : Option (Process σ ε α) :=
  (process.prog.next txDone process.committed process.tx answer).map fun outcome ↦
    ⟨outcome.prog, outcome.committed, outcome.tx⟩

/-- The answers to a program whose calls fail from outside only where `faulty` says so. -/
def Allowed (faulty : Prop) (_ : Process σ ε α) : Answer ε → Prop
  | .fine _ => True
  | .fault _ => faulty

/-- Where every call may fail, every answer is allowed. -/
theorem allowed_true (process : Process σ ε α) (answer : Answer ε) :
    process.Allowed True answer := by
  cases answer <;> exact trivial

end Process

/-- A transaction on a part of the state, as one on the whole. -/
def Tx.within {σ τ : Type} (put : σ → τ → τ) (whole : τ) (tx : Tx σ) : Tx τ where
  readOnly := tx.readOnly
  tables := put tx.tables whole

namespace Prog

variable {σ τ ε α β : Type} {faulty : Prop} {crash : σ → Prop}

/-! ### Preconditions under a crash condition -/

/-- The weakest precondition of a program that runs alone: every change of the committed tables
meets the crash condition. -/
def cwp (faulty : Prop) (crash : σ → Prop) :
    Prog σ ε α → (α → σ → Option (Tx σ) → Prop) → σ → Option (Tx σ) → Prop
  | ret value, post, committed, tx => post value committed tx
  | draw next, post, committed, tx =>
    (faulty → (next none).cwp faulty crash post committed tx) ∧
      ∀ number, (next (some number)).cwp faulty crash post committed tx
  | beginTx _ readOnly next, post, committed, tx =>
    tx = none ∧ (faulty → ∀ error, (next (some error)).cwp faulty crash post committed none) ∧
      (next none).cwp faulty crash post committed (some ⟨readOnly, committed⟩)
  | stmt _ run next, post, committed, tx =>
    ∃ own, tx = some own ∧
      (faulty → ∀ error, (next (.error error)).cwp faulty crash post committed tx) ∧
      match run own.tables with
      | .error error => (next (.error error)).cwp faulty crash post committed tx
      | .ok (reply, tables) =>
        (next (.ok reply)).cwp faulty crash post committed (some { own with tables })
  | direct _ run next, post, committed, tx =>
    tx = none ∧ (faulty → ∀ error, (next (.error error)).cwp faulty crash post committed none) ∧
      match run committed with
      | .error error => (next (.error error)).cwp faulty crash post committed none
      | .ok (reply, tables) => crash tables ∧ (next (.ok reply)).cwp faulty crash post tables none
  | commit _ next, post, committed, tx =>
    ∃ own, tx = some own ∧
      (faulty → ∀ error, (next (some error)).cwp faulty crash post committed none) ∧
      if own.readOnly then (next none).cwp faulty crash post committed none
      else crash own.tables ∧ (next none).cwp faulty crash post own.tables none
  | rollback next, post, committed, tx =>
    tx.isSome ∧ next.cwp faulty crash post committed none

variable {post post' : α → σ → Option (Tx σ) → Prop} {committed : σ} {tx : Option (Tx σ)}

/-- The precondition of a program that goes on with another one. -/
theorem cwp_bind (prog : Prog σ ε α) (k : α → Prog σ ε β) (post : β → σ → Option (Tx σ) → Prop)
    (committed : σ) (tx : Option (Tx σ)) :
    (prog.bind k).cwp faulty crash post committed tx ↔
      prog.cwp faulty crash (fun value ↦ (k value).cwp faulty crash post) committed tx := by
  induction prog generalizing committed tx with
  | ret value => rfl
  | draw next ih => simp only [bind, cwp, ih]
  | beginTx ctx readOnly next ih => simp only [bind, cwp, ih]
  | stmt ctx run next ih => simp only [bind, cwp, ih]
  | direct ctx run next ih => simp only [bind, cwp, ih]
  | commit ctx next ih => simp only [bind, cwp, ih]
  | rollback next ih => simp only [bind, cwp, ih]

/-- A weaker postcondition has a weaker precondition. -/
theorem cwp_mono {prog : Prog σ ε α}
    (himp : ∀ value committed tx, post value committed tx → post' value committed tx)
    (h : prog.cwp faulty crash post committed tx) :
    prog.cwp faulty crash post' committed tx := by
  induction prog generalizing committed tx with
  | ret value => exact himp value committed tx h
  | draw next ih => exact ⟨fun hfaulty ↦ ih _ (h.1 hfaulty), fun number ↦ ih _ (h.2 number)⟩
  | beginTx ctx readOnly next ih =>
    exact ⟨h.1, fun hfaulty error ↦ ih _ (h.2.1 hfaulty error), ih _ h.2.2⟩
  | stmt ctx run next ih =>
    rw [cwp] at h ⊢
    obtain ⟨own, htx, hfault, hfine⟩ := h
    refine ⟨own, htx, fun hfaulty error ↦ ih _ (hfault hfaulty error), ?_⟩
    revert hfine
    cases run own.tables <;> exact ih _
  | direct ctx run next ih =>
    rw [cwp] at h ⊢
    obtain ⟨htx, hfault, hfine⟩ := h
    refine ⟨htx, fun hfaulty error ↦ ih _ (hfault hfaulty error), ?_⟩
    revert hfine
    cases run committed with
    | error error => exact ih _
    | ok reply => exact fun hfine ↦ ⟨hfine.1, ih _ hfine.2⟩
  | commit ctx next ih =>
    obtain ⟨own, htx, hfault, hfine⟩ := h
    refine ⟨own, htx, fun hfaulty error ↦ ih _ (hfault hfaulty error), ?_⟩
    split_ifs at hfine ⊢
    · exact ih _ hfine
    · exact ⟨hfine.1, ih _ hfine.2⟩
  | rollback next ih => exact ⟨h.1, ih h.2⟩

/-! ### Soundness -/

variable {txDone : ε}

/-- A step of a program keeps its precondition and the crash condition. -/
theorem cwp_step {process process' : Process σ ε α} {answer : Answer ε}
    (hcrash : crash process.committed)
    (h : process.prog.cwp faulty crash post process.committed process.tx)
    (hallowed : process.Allowed faulty answer)
    (hstep : process.step txDone answer = some process') :
    crash process'.committed ∧
      process'.prog.cwp faulty crash post process'.committed process'.tx := by
  obtain ⟨prog, committed, tx⟩ := process
  obtain ⟨outcome, hnext, rfl⟩ := Option.map_eq_some_iff.mp hstep
  dsimp only at hcrash h hnext ⊢
  cases prog with
  | ret value => cases hnext
  | draw next =>
    cases answer with
    | fine number =>
      obtain rfl := Option.some.inj hnext
      exact ⟨hcrash, h.2 number⟩
    | fault error =>
      obtain rfl := Option.some.inj hnext
      exact ⟨hcrash, h.1 hallowed⟩
  | beginTx ctx readOnly next =>
    obtain ⟨rfl, hfault, hfine⟩ := h
    cases answer with
    | fine number =>
      obtain rfl := Option.some.inj hnext
      exact ⟨hcrash, hfine⟩
    | fault error =>
      obtain rfl := Option.some.inj hnext
      exact ⟨hcrash, hfault hallowed error⟩
  | stmt ctx run next =>
    rw [cwp] at h
    obtain ⟨own, rfl, hfault, hfine⟩ := h
    cases answer with
    | fine number =>
      simp only [Prog.next] at hnext
      cases hrun : run own.tables with
      | error error =>
        simp only [hrun] at hnext hfine
        obtain rfl := Option.some.inj hnext
        exact ⟨hcrash, hfine⟩
      | ok reply =>
        simp only [hrun] at hnext hfine
        obtain rfl := Option.some.inj hnext
        exact ⟨hcrash, hfine⟩
    | fault error =>
      obtain rfl := Option.some.inj hnext
      exact ⟨hcrash, hfault hallowed error⟩
  | direct ctx run next =>
    rw [cwp] at h
    obtain ⟨rfl, hfault, hfine⟩ := h
    cases answer with
    | fine number =>
      simp only [Prog.next] at hnext
      cases hrun : run committed with
      | error error =>
        simp only [hrun] at hnext hfine
        obtain rfl := Option.some.inj hnext
        exact ⟨hcrash, hfine⟩
      | ok reply =>
        simp only [hrun] at hnext hfine
        obtain rfl := Option.some.inj hnext
        exact hfine
    | fault error =>
      obtain rfl := Option.some.inj hnext
      exact ⟨hcrash, hfault hallowed error⟩
  | commit ctx next =>
    obtain ⟨own, rfl, hfault, hfine⟩ := h
    cases answer with
    | fine number =>
      simp only [Prog.next] at hnext
      by_cases hreadOnly : own.readOnly
      · simp only [hreadOnly, if_true] at hnext hfine
        obtain rfl := Option.some.inj hnext
        exact ⟨hcrash, hfine⟩
      · simp only [hreadOnly] at hnext hfine
        obtain rfl := Option.some.inj hnext
        exact hfine
    | fault error =>
      obtain rfl := Option.some.inj hnext
      exact ⟨hcrash, hfault hallowed error⟩
  | rollback next =>
    obtain rfl := Option.some.inj hnext
    exact ⟨hcrash, h.2⟩

/-- However far a program comes, the crash condition holds, and where it ends its postcondition
does. -/
theorem cwp_steps {process process' : Process σ ε α}
    (hrun : Steps (Process.step txDone) (Process.Allowed faulty) process process')
    (h : process.prog.cwp faulty crash post process.committed process.tx)
    (hcrash : crash process.committed) :
    crash process'.committed ∧
      process'.prog.cwp faulty crash post process'.committed process'.tx := by
  refine hrun.invariant (P := fun process ↦ crash process.committed ∧
    process.prog.cwp faulty crash post process.committed process.tx) ?_ ⟨hcrash, h⟩
  exact fun process process' answer hprocess hallowed hstep ↦
    cwp_step hprocess.1 hprocess.2 hallowed hstep

/-- A program whose calls all go through comes to its end. -/
theorem exists_finish (txDone : ε) {prog : Prog σ ε α}
    (h : prog.cwp faulty crash post committed tx) :
    ∃ value committed' tx', Steps (Process.step txDone) (Process.Allowed faulty)
      ⟨prog, committed, tx⟩ ⟨ret value, committed', tx'⟩ := by
  -- After one step, the rest of the program is a smaller one.
  have hcons : ∀ {next : Prog σ ε α} {committed₁ : σ} {tx₁ : Option (Tx σ)} {prog : Prog σ ε α}
      {committed : σ} {tx : Option (Tx σ)},
      Process.step txDone ⟨prog, committed, tx⟩ (.fine 0) = some ⟨next, committed₁, tx₁⟩ →
      (∃ value committed' tx', Steps (Process.step txDone) (Process.Allowed faulty)
        ⟨next, committed₁, tx₁⟩ ⟨ret value, committed', tx'⟩) →
      ∃ value committed' tx', Steps (Process.step txDone) (Process.Allowed faulty)
        ⟨prog, committed, tx⟩ ⟨ret value, committed', tx'⟩ := by
    rintro next committed₁ tx₁ prog committed tx hstep ⟨value, committed', tx', hrest⟩
    exact ⟨value, committed', tx', (Steps.single trivial hstep).trans hrest⟩
  induction prog generalizing committed tx with
  | ret value => exact ⟨value, committed, tx, .refl⟩
  | draw next ih => exact hcons rfl (ih _ (h.2 _))
  | beginTx ctx readOnly next ih =>
    obtain ⟨rfl, -, hfine⟩ := h
    exact hcons rfl (ih _ hfine)
  | stmt ctx run next ih =>
    rw [cwp] at h
    obtain ⟨own, rfl, -, hfine⟩ := h
    cases hrun : run own.tables with
    | error error =>
      simp only [hrun] at hfine
      exact hcons (by simp only [Process.step, Prog.next, hrun, Option.map_some]) (ih _ hfine)
    | ok reply =>
      simp only [hrun] at hfine
      exact hcons (by simp only [Process.step, Prog.next, hrun, Option.map_some]) (ih _ hfine)
  | direct ctx run next ih =>
    rw [cwp] at h
    obtain ⟨rfl, -, hfine⟩ := h
    cases hrun : run committed with
    | error error =>
      simp only [hrun] at hfine
      exact hcons (by simp only [Process.step, Prog.next, hrun, Option.map_some]) (ih _ hfine)
    | ok reply =>
      simp only [hrun] at hfine
      exact hcons (by simp only [Process.step, Prog.next, hrun, Option.map_some]) (ih _ hfine.2)
  | commit ctx next ih =>
    obtain ⟨own, rfl, -, hfine⟩ := h
    split_ifs at hfine with hreadOnly
    · exact hcons (by simp only [Process.step, Prog.next, hreadOnly, if_true, Option.map_some])
        (ih _ hfine)
    · exact hcons (by simp [Process.step, Prog.next, hreadOnly]) (ih _ hfine.2)
  | rollback next ih => exact hcons rfl (ih h.2)

/-! ### A sequence of programs -/

/-- The tables that a sequence of programs leaves, when each is cut off at any moment. -/
inductive Lives {ι : Type} (program : ι → Prog σ ε α) (txDone : ε) (committed : σ) : σ → Prop
  | refl : Lives program txDone committed committed
  | restart {committed₁ : σ} (choice : ι) (process : Process σ ε α)
      (hbefore : Lives program txDone committed committed₁)
      (hrun : Steps (Process.step txDone) (Process.Allowed True) ⟨program choice, committed₁, none⟩
        process) : Lives program txDone committed process.committed

/-- What holds at first holds of whatever the programs leave, if each of them has a crash condition
that implies it. -/
theorem Lives.invariant {ι : Type} {program : ι → Prog σ ε α} {committed' : σ} {P : σ → Prop}
    (hprogram : ∀ choice committed, P committed → ∃ crash post, crash committed ∧
      (∀ new, crash new → P new) ∧ (program choice).cwp True crash post committed none)
    (h : Lives program txDone committed committed') (hinitial : P committed) : P committed' := by
  induction h with
  | refl => exact hinitial
  | restart choice process _ hrun ih =>
    obtain ⟨crash, post, hcrash, himp, hcwp⟩ := hprogram choice _ ih
    exact himp _ (cwp_steps hrun hcwp hcrash).1

/-! ### Programs on a part of the state -/

/-- A program on tables that are a part of a larger state. -/
def zoom (view : τ → Except ε σ) (put : σ → τ → τ) : Prog σ ε α → Prog τ ε α
  | ret value => ret value
  | draw next => draw fun reply ↦ (next reply).zoom view put
  | beginTx ctx readOnly next => beginTx ctx readOnly fun reply ↦ (next reply).zoom view put
  | stmt ctx run next =>
    stmt ctx (fun whole ↦ do
      let (reply, tables) ← run (← view whole)
      return (reply, put tables whole)) fun reply ↦ (next reply).zoom view put
  | direct ctx run next =>
    direct ctx (fun whole ↦ do
      let (reply, tables) ← run (← view whole)
      return (reply, put tables whole)) fun reply ↦ (next reply).zoom view put
  | commit ctx next => commit ctx fun reply ↦ (next reply).zoom view put
  | rollback next => rollback (next.zoom view put)

/-- The tables are a part of the state that can be put into `whole`: what is put last is seen. -/
structure Part (view : τ → Except ε σ) (put : σ → τ → τ) (whole : τ) : Prop where
  view_put : ∀ tables, view (put tables whole) = .ok tables
  put_put : ∀ tables new, put new (put tables whole) = put new whole

/-- A program that runs alone does on a part of the state what it does on the tables, and keeps a
crash condition that its effects keep. -/
theorem cwp_zoom {view : τ → Except ε σ} {put : σ → τ → τ} {whole : τ} (hpart : Part view put whole)
    {terms : Terms σ} {prog : Prog σ ε α} {spent : Bool} {tables : σ} {tx : Option (Tx σ)}
    {crash : τ → Prop} {post : α → Phase σ → Prop} (hrely : ∀ tables, terms.rely tables tables)
    (hfaulty : faulty → ∀ ctx, terms.faulty ctx)
    (hkeep : ∀ tables new, terms.effect tables new ∨ terms.touch tables new →
      crash (put tables whole) → crash (put new whole))
    (hcrash : crash (put tables whole)) (h : prog.wp terms post ⟨spent, tables, tx⟩) :
    (prog.zoom view put).cwp faulty crash
      (fun value whole' own ↦ crash whole' ∧ ∃ phase, whole' = put phase.tables whole ∧
        own = phase.tx.map (Tx.within put whole) ∧ post value phase)
      (put tables whole) (tx.map (Tx.within put whole)) := by
  induction prog generalizing spent tables tx with
  | ret value => exact ⟨hcrash, ⟨spent, tables, tx⟩, rfl, rfl, h⟩
  | draw next ih => exact ⟨fun _ ↦ ih _ hcrash (h none), fun _ ↦ ih _ hcrash (h (some _))⟩
  | beginTx ctx readOnly next ih =>
    obtain ⟨htx, hnext⟩ := h
    obtain rfl : tx = none := htx
    obtain ⟨hfault, hfine⟩ := hnext tables (hrely tables)
    exact ⟨rfl, fun hf error ↦ ih _ hcrash (hfault error (hfaulty hf ctx)), ih _ hcrash hfine⟩
  | stmt ctx run next ih =>
    rw [wp] at h
    obtain ⟨tx, rfl, hfault, hfine⟩ := h
    rw [zoom, cwp]
    refine ⟨_, rfl, fun hf error ↦ ih _ hcrash (hfault error (hfaulty hf ctx)), ?_⟩
    dsimp only [Tx.within]
    rw [hpart.view_put]
    dsimp only [Bind.bind, Except.bind]
    revert hfine
    cases run tx.tables with
    | error error => exact ih _ hcrash
    | ok reply =>
      intro hfine
      dsimp only [pure, Except.pure]
      rw [hpart.put_put]
      exact ih _ hcrash hfine
  | direct ctx run next ih =>
    obtain ⟨htx, hnext⟩ := h
    obtain rfl : tx = none := htx
    obtain ⟨hfault, hfine⟩ := hnext tables (hrely tables)
    rw [zoom, cwp]
    refine ⟨rfl, fun hf error ↦ ih _ hcrash (hfault error (hfaulty hf ctx)), ?_⟩
    rw [hpart.view_put]
    dsimp only [Bind.bind, Except.bind]
    revert hfine
    cases run tables with
    | error error => exact ih _ hcrash
    | ok reply =>
      rintro ⟨htouch, hfine⟩
      dsimp only [pure, Except.pure]
      rw [hpart.put_put]
      have hnew := hkeep _ _ (.inr htouch) hcrash
      exact ⟨hnew, ih _ hnew hfine⟩
  | commit ctx next ih =>
    obtain ⟨tx, rfl, hfault, hfine⟩ := h
    refine ⟨_, rfl, fun hf error ↦ ih _ hcrash (hfault error (hfaulty hf ctx)), ?_⟩
    change if tx.readOnly then _ else _
    split_ifs at hfine ⊢ with hreadOnly
    · exact ih _ hcrash hfine
    · have hnew := hkeep _ _ (.inl hfine.2.1) hcrash
      exact ⟨hnew, ih _ hnew hfine.2.2⟩
  | rollback next ih =>
    obtain ⟨htx, hnext⟩ := h
    obtain ⟨tx, rfl⟩ := Option.isSome_iff_exists.mp htx
    exact ⟨rfl, ih hcrash hnext⟩

end Prog

end CodexQueueBot.Lib
