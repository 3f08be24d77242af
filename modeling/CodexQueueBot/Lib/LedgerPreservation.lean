import CodexQueueBot.Lib.LedgerInvariant

/-!
# Every act preserves the invariant of a ledger

The acts that are not turns of one worker add or remove a resource (`setCell_of_unused`), halt a
mode (`halt`), cancel tokens (`cancel`), let a process that is no worker join the pool (`join`), or
bring a new worker together with a change of its resource. `Arrival` collects what the last kind has
to respect, for the worker of a new run and for a guest alike. `Act.valid` is the preservation
theorem.
-/

set_option autoImplicit false
set_option relaxedAutoImplicit false

namespace CodexQueueBot.Lib

variable {K M : Type*} [DecidableEq K] [DecidableEq M]

/-! ### Resources, new workers, halts and cancellation -/

namespace Ledger.Valid

variable {L : Ledger K M} {key : K} {cell : Cell M}

omit [DecidableEq K] in
/-- A ledger without resources and workers is valid. -/
theorem of_vacant [DecidableEq K] (hcells : ∀ key, L.cells key = none) (hworkers : L.workers = [])
    (hslots : L.slots = 0) (hprocesses : L.processes = 0) : L.Valid := by
  have hnone : ∀ {i : ℕ} {worker : Worker K M}, ¬ L.workers[i]? = some worker := by
    simp [hworkers]
  have hvacant : ∀ {key : K} {cell : Cell M}, ¬ L.cells key = some cell := by
    simp [hcells]
  exact {
    present := fun _ _ hworker ↦ absurd hworker hnone
    alive := fun _ _ hworker ↦ absurd hworker hnone
    equipped := fun _ _ hworker ↦ absurd hworker hnone
    distinct := fun _ _ _ _ hworker ↦ absurd hworker hnone
    numbered := fun _ _ _ _ hworker ↦ absurd hworker hnone
    invited := fun _ _ hworker ↦ absurd hworker hnone
    counted := fun _ _ _ hcell ↦ absurd hcell hvacant
    served := fun _ _ _ hcell ↦ absurd hcell hvacant
    resigned := fun _ _ _ _ hworker ↦ absurd hworker hnone
    stale := fun _ _ _ _ hworker ↦ absurd hworker hnone
    owned := fun _ _ _ _ hcell ↦ absurd hcell hvacant
    holding := fun _ _ _ hworker ↦ absurd hworker hnone
    exclusive := fun _ _ _ _ hcell ↦ absurd hcell hvacant
    slots := by simp [hslots, hworkers]
    processes := by simp [hprocesses, hworkers] }

/-- Replacing a resource on which no live worker works by an idle one, adding it or removing it
preserves the invariant. -/
theorem setCell_of_unused (h : L.Valid) {entry : Option (Cell M)}
    (hunused : ∀ (i : ℕ) (worker : Worker K M), L.workers[i]? = some worker →
      worker.live = true → worker.key ≠ key)
    (hentry : ∀ cell, entry = some cell → cell.Idle) : (L.setCell key entry).Valid where
  present := by
    intro i worker hworker hlive
    obtain ⟨cell', hcell'⟩ := h.present i worker hworker hlive
    refine ⟨cell', ?_⟩
    show Function.update L.cells key entry worker.key = some cell'
    rwa [Function.update_of_ne (hunused i worker hworker hlive)]
  alive := h.alive
  equipped := h.equipped
  distinct := h.distinct
  numbered := by
    intro i worker cell' m hworker hlive hcell' hmode
    rcases update_cases hcell' with ⟨hkey, -⟩ | ⟨-, hcell'⟩
    · exact absurd hkey (hunused i worker hworker hlive)
    · exact h.numbered i worker cell' m hworker hlive hcell' hmode
  invited := h.invited
  counted := by
    intro key' cell' m hcell'
    rcases update_cases hcell' with ⟨rfl, heq⟩ | ⟨-, hcell'⟩
    · have hzero : (cell'.track m).workers = 0 := by
        by_contra hne
        exact (hentry cell' heq).quiet m (Or.inr (Nat.pos_of_ne_zero hne))
      rw [hzero]
      refine (List.countP_eq_zero.mpr ?_).symm
      intro worker hmem hserves
      obtain ⟨i, hworker⟩ := List.mem_iff_getElem?.mp hmem
      simp only [Worker.serves, Bool.and_eq_true, decide_eq_true_eq] at hserves
      exact hunused i worker hworker hserves.1.1 hserves.1.2
    · exact h.counted key' cell' m hcell'
  served := by
    intro key' cell' m hcell' hon
    rcases update_cases hcell' with ⟨rfl, heq⟩ | ⟨-, hcell'⟩
    · exact absurd (Or.inl hon) ((hentry cell' heq).quiet m)
    · exact h.served key' cell' m hcell' hon
  resigned := by
    intro i worker cell' m hworker hlive hinactive hcell' hmode
    rcases update_cases hcell' with ⟨hkey, -⟩ | ⟨-, hcell'⟩
    · exact absurd hkey (hunused i worker hworker hlive)
    · exact h.resigned i worker cell' m hworker hlive hinactive hcell' hmode
  stale := by
    intro i worker cell' m hworker hactive hcell' hmode
    rcases update_cases hcell' with ⟨hkey, -⟩ | ⟨-, hcell'⟩
    · exact absurd hkey (hunused i worker hworker (h.alive i worker hworker (Or.inl hactive)))
    · exact h.stale i worker cell' m hworker hactive hcell' hmode
  owned := by
    intro key' cell' claimant runID hcell' howner
    rcases update_cases hcell' with ⟨rfl, heq⟩ | ⟨-, hcell'⟩
    · rw [(hentry cell' heq).unowned] at howner
      cases howner
    · exact h.owned key' cell' claimant runID hcell' howner
  holding := by
    intro i worker cell' hworker hholds hcell'
    rcases update_cases hcell' with ⟨hkey, -⟩ | ⟨-, hcell'⟩
    · exact absurd hkey
        (hunused i worker hworker (h.alive i worker hworker (Or.inr (Or.inl hholds))))
    · exact h.holding i worker cell' hworker hholds hcell'
  exclusive := by
    intro key' cell' m other hcell' hne hbusy
    rcases update_cases hcell' with ⟨rfl, heq⟩ | ⟨-, hcell'⟩
    · exact (hentry cell' heq).quiet m hbusy.1
    · exact h.exclusive key' cell' m other hcell' hne hbusy
  slots := h.slots
  processes := h.processes

/-- No live worker works on a resource that does not exist. -/
theorem key_ne_of_vacant (h : L.Valid) (hvacant : L.cells key = none) (i : ℕ)
    (worker : Worker K M) (hworker : L.workers[i]? = some worker) (hlive : worker.live = true) :
    worker.key ≠ key := by
  rintro rfl
  obtain ⟨cell, hcell⟩ := h.present i worker hworker hlive
  rw [hvacant] at hcell
  cases hcell

/-- No live worker works on an idle resource, so the keys of the live workers differ from it. -/
theorem key_ne_of_idle (h : L.Valid) (hcell : L.cells key = some cell) (hidle : cell.Idle) (i : ℕ)
    (worker : Worker K M) (hworker : L.workers[i]? = some worker) (hlive : worker.live = true) :
    worker.key ≠ key := by
  rintro rfl
  rw [h.not_live_of_idle hworker hcell hidle] at hlive
  cases hlive

/-- Cancelling tokens preserves the invariant. -/
theorem cancel (h : L.Valid) (tokens : Set ℕ) :
    (L.cancel tokens).Valid where
  present := h.present
  alive := h.alive
  equipped := h.equipped
  distinct := h.distinct
  numbered := h.numbered
  invited := h.invited
  counted := h.counted
  served := h.served
  resigned := h.resigned
  stale := fun i worker cell m hworker hactive hcell hmode ↦
    (h.stale i worker cell m hworker hactive hcell hmode).imp_right (Or.inl ·)
  owned := h.owned
  holding := h.holding
  exclusive := h.exclusive
  slots := h.slots
  processes := h.processes

/-- Halting a mode of a resource preserves the invariant, because the run that was on has been
cancelled. -/
theorem halt (h : L.Valid) {m : M} (hcell : L.cells key = some cell)
    (hcancelled : ∀ token, (cell.track m).token = some token → token ∈ L.cancelled) :
    (L.setCell key (some (cell.setTrack m
      ⟨false, (cell.track m).runID + 1, (cell.track m).workers, none⟩))).Valid where
  present := by
    intro i worker hworker hlive
    obtain ⟨cell', hcell'⟩ := h.present i worker hworker hlive
    show ∃ cell', Function.update L.cells key _ worker.key = some cell'
    rw [Function.update_apply]
    split_ifs
    · exact ⟨_, rfl⟩
    · exact ⟨cell', hcell'⟩
  alive := h.alive
  equipped := h.equipped
  distinct := h.distinct
  numbered := by
    intro i worker cell' m' hworker hlive hcell' hmode
    rcases update_cases hcell' with ⟨hkey, heq⟩ | ⟨-, hcell'⟩
    · cases heq
      have hbefore := h.numbered i worker cell m' hworker hlive (hkey ▸ hcell) hmode
      simp only [Cell.setTrack, Function.update_apply]
      split_ifs with hm
      · subst hm
        exact Nat.le_succ_of_le hbefore
      · exact hbefore
    · exact h.numbered i worker cell' m' hworker hlive hcell' hmode
  invited := h.invited
  counted := by
    intro key' cell' m' hcell'
    rcases update_cases hcell' with ⟨rfl, heq⟩ | ⟨-, hcell'⟩
    · cases heq
      refine Eq.trans ?_ (h.counted _ _ m' hcell)
      simp only [Cell.setTrack, Function.update_apply]
      split_ifs with hm
      · rw [hm]
      · rfl
    · exact h.counted key' cell' m' hcell'
  served := by
    intro key' cell' m' hcell' hon
    rcases update_cases hcell' with ⟨rfl, heq⟩ | ⟨-, hcell'⟩
    · cases heq
      by_cases hm : m' = m
      · subst hm
        simp [Cell.setTrack] at hon
      · simp only [Cell.setTrack, Function.update_of_ne hm] at hon ⊢
        exact h.served _ _ m' hcell hon
    · exact h.served key' cell' m' hcell' hon
  resigned := by
    intro i worker cell' m' hworker hlive hinactive hcell' hmode
    rcases update_cases hcell' with ⟨hkey, heq⟩ | ⟨-, hcell'⟩
    · cases heq
      by_cases hm : m' = m
      · subst hm
        simp [Cell.setTrack, Track.Current]
      · simp only [Cell.setTrack, Function.update_of_ne hm]
        exact h.resigned i worker cell m' hworker hlive hinactive (hkey ▸ hcell) hmode
    · exact h.resigned i worker cell' m' hworker hlive hinactive hcell' hmode
  stale := by
    intro i worker cell' m' hworker hactive hcell' hmode
    rcases update_cases hcell' with ⟨hkey, heq⟩ | ⟨-, hcell'⟩
    · cases heq
      have hbefore := h.stale i worker cell m' hworker hactive (hkey ▸ hcell) hmode
      by_cases hm : m' = m
      · -- the run that was on is cancelled by its token
        subst hm
        refine Or.inr (hbefore.elim (fun hcurrent ↦ hcancelled _ ?_) id)
        exact (h.token_of_current hworker (h.alive i worker hworker (Or.inl hactive))
          (hkey ▸ hcell) hmode hcurrent).2
      · simp only [Cell.setTrack, Function.update_of_ne hm]
        exact hbefore
    · exact h.stale i worker cell' m' hworker hactive hcell' hmode
  owned := by
    intro key' cell' claimant runID hcell' howner
    rcases update_cases hcell' with ⟨rfl, heq⟩ | ⟨-, hcell'⟩
    · cases heq
      exact h.owned _ cell claimant runID hcell howner
    · exact h.owned key' cell' claimant runID hcell' howner
  holding := by
    intro i worker cell' hworker hholds hcell'
    rcases update_cases hcell' with ⟨hkey, heq⟩ | ⟨-, hcell'⟩
    · cases heq
      exact h.holding i worker cell hworker hholds (hkey ▸ hcell)
    · exact h.holding i worker cell' hworker hholds hcell'
  exclusive := by
    intro key' cell' first second hcell' hne hbusy
    rcases update_cases hcell' with ⟨rfl, heq⟩ | ⟨-, hcell'⟩
    · cases heq
      have hback : ∀ m', ((cell.setTrack m ⟨false, (cell.track m).runID + 1,
          (cell.track m).workers, none⟩).track m').Busy → (cell.track m').Busy := by
        intro m' hbusy
        simp only [Cell.setTrack, Function.update_apply] at hbusy
        split_ifs at hbusy with hm
        · subst hm
          exact hbusy.elim (fun hon ↦ by cases hon) Or.inr
        · exact hbusy
      exact h.exclusive _ cell first second hcell hne ⟨hback first hbusy.1, hback second hbusy.2⟩
    · exact h.exclusive key' cell' first second hcell' hne hbusy
  slots := h.slots
  processes := h.processes

/-- A process that is no worker may join the pool. -/
theorem join (h : L.Valid) {worker : Worker K M} (hgone : worker.Gone) :
    (L.addWorker worker).Valid := by
  have hback : ∀ {i : ℕ} {other : Worker K M}, (L.workers ++ [worker])[i]? = some other →
      other.live = true → L.workers[i]? = some other := by
    intro i other hother hlive
    rcases Pool.getElem?_concat_cases hother with ⟨-, rfl⟩ | hother
    · rw [hgone.live] at hlive
      cases hlive
    · exact hother
  have hforth : ∀ {i : ℕ} {other : Worker K M}, L.workers[i]? = some other →
      (L.workers ++ [worker])[i]? = some other := fun hother ↦ by
    rwa [List.getElem?_append_left (List.getElem?_eq_some_iff.mp hother).1]
  have halive : ∀ {i : ℕ} {other : Worker K M}, (L.workers ++ [worker])[i]? = some other →
      other.active = true ∨ other.holds = true ∨ other.slot = true → other.live = true := by
    intro i other hother hflag
    rcases Pool.getElem?_concat_cases hother with ⟨-, rfl⟩ | hother
    · simp [hgone.active, hgone.holds, hgone.slot] at hflag
    · exact h.alive i other hother hflag
  have hcount : ∀ property : Worker K M → Bool, property worker = false →
      (L.workers ++ [worker]).countP property = L.workers.countP property := fun property hlacks ↦
    by simp [hlacks]
  constructor
  case present => exact fun i other hother hlive ↦ h.present i other (hback hother hlive) hlive
  case alive => exact fun i other hother hflag ↦ halive hother hflag
  case equipped =>
    intro i other hother hprocess
    rcases Pool.getElem?_concat_cases hother with ⟨-, rfl⟩ | hother
    · rw [hgone.process] at hprocess
      cases hprocess
    · exact h.equipped i other hother hprocess
  case distinct =>
    exact fun i j first second hfirst hsecond hfirstLive hsecondLive ↦
      h.distinct i j first second (hback hfirst hfirstLive) (hback hsecond hsecondLive)
        hfirstLive hsecondLive
  case numbered =>
    exact fun i other cell m hother hlive ↦
      h.numbered i other cell m (hback hother hlive) hlive
  case invited => exact fun i other hother hlive ↦ h.invited i other (hback hother hlive) hlive
  case counted =>
    intro key cell m hcell
    refine (h.counted key cell m hcell).trans (hcount _ ?_).symm
    simp [Worker.serves, hgone.live]
  case served =>
    intro key cell m hcell hon
    obtain ⟨i, other, hother, hrest⟩ := h.served key cell m hcell hon
    exact ⟨i, other, hforth hother, hrest⟩
  case resigned =>
    exact fun i other cell m hother hlive ↦
      h.resigned i other cell m (hback hother hlive) hlive
  case stale =>
    exact fun i other cell m hother hactive ↦
      h.stale i other cell m (hback hother (halive hother (Or.inl hactive))) hactive
  case owned =>
    intro key cell claimant runID hcell howner
    obtain ⟨i, other, hother, hrest⟩ := h.owned key cell claimant runID hcell howner
    exact ⟨i, other, hforth hother, hrest⟩
  case holding =>
    exact fun i other cell hother hholds ↦
      h.holding i other cell (hback hother (halive hother (Or.inr (Or.inl hholds)))) hholds
  case exclusive => exact h.exclusive
  case slots => exact h.slots.trans (hcount _ hgone.slot).symm
  case processes => exact h.processes.trans (hcount _ hgone.process).symm

end Ledger.Valid

/-! ### New workers -/

/-- A new worker and the change of its resource: it carries a number no live worker of its claimant
carries, its own track counts it and is on if it belongs to a mode, and it owns the resource if it
is a guest. -/
structure Arrival (worker : Worker K M) (cell after : Cell M) : Prop where
  live : worker.live = true
  slot : worker.slot = false
  process : worker.process = false
  others : ∀ m, worker.claimant ≠ .mode m → after.track m = cell.track m
  numbers : ∀ m, (cell.track m).runID ≤ (after.track m).runID
  quiet : ∀ m, ¬ (cell.track m).on = true ∨ worker.claimant ≠ .mode m
  track : ∀ m, worker.claimant = .mode m → worker.active = true ∧
    (after.track m).on = true ∧ (after.track m).runID = worker.runID ∧
    (cell.track m).runID < worker.runID ∧
    (after.track m).workers = (cell.track m).workers + 1 ∧
    (after.track m).token = some worker.token
  others_quiet : ∀ m, worker.claimant = .mode m → ∀ other, other ≠ m → ¬ (cell.track other).Busy
  guest : worker.claimant = .guest → worker.active = false ∧ worker.holds = true ∧
    cell.owner = none ∧ after.owner = some (.guest, worker.runID)
  owner : ∀ m, worker.claimant = .mode m → worker.holds = false ∧ after.owner = cell.owner

section Arrivals

variable {L : Ledger K M} {worker : Worker K M} {cell after : Cell M}

/-- The arrival of a worker preserves the invariant. -/
theorem Ledger.Valid.arrival (h : L.Valid) {guests : ℕ} (hcell : L.cells worker.key = some cell)
    (harrival : Arrival worker cell after) (hguests : L.guests ≤ guests)
    (hnew : worker.claimant = .guest → L.guests < worker.runID ∧ worker.runID ≤ guests) :
    Ledger.Valid ⟨Function.update L.cells worker.key (some after), L.workers ++ [worker], L.slots,
      L.processes, guests, L.cancelled⟩ := by
  have hforth : ∀ {i : ℕ} {other : Worker K M}, L.workers[i]? = some other →
      (L.workers ++ [worker])[i]? = some other := fun hother ↦ by
    rwa [List.getElem?_append_left (List.getElem?_eq_some_iff.mp hother).1]
  have hself : (L.workers ++ [worker])[L.workers.length]? = some worker := by simp
  -- the number of the new worker exceeds those of the live workers of its claimant
  have hfresh : ∀ {i : ℕ} {other : Worker K M}, L.workers[i]? = some other → other.live = true →
      ¬ other.Same worker := by
    rintro i other hother hlive ⟨hkey, hclaimant, hrun⟩
    cases hmode : worker.claimant with
    | mode m =>
      have hbound := h.numbered i other cell m hother hlive (hkey ▸ hcell) (hclaimant.trans hmode)
      have hless := (harrival.track m hmode).2.2.2.1
      omega
    | guest =>
      have hbound := (h.invited i other hother hlive (hclaimant.trans hmode)).1
      have hless := (hnew hmode).1
      omega
  constructor
  case present =>
    intro i other hother hlive
    show ∃ cell', Function.update L.cells worker.key (some after) other.key = some cell'
    rw [Function.update_apply]
    split_ifs with hkey
    · exact ⟨after, rfl⟩
    · rcases Pool.getElem?_concat_cases hother with ⟨-, rfl⟩ | hother
      · exact absurd rfl hkey
      · exact h.present i other hother hlive
  case alive =>
    intro i other hother hflag
    rcases Pool.getElem?_concat_cases hother with ⟨-, rfl⟩ | hother
    · exact harrival.live
    · exact h.alive i other hother hflag
  case equipped =>
    intro i other hother hprocess
    rcases Pool.getElem?_concat_cases hother with ⟨-, rfl⟩ | hother
    · rw [harrival.process] at hprocess
      cases hprocess
    · exact h.equipped i other hother hprocess
  case distinct =>
    intro i j first second hfirst hsecond hfirstLive hsecondLive hsame
    rcases Pool.getElem?_concat_cases hfirst with ⟨hi, rfl⟩ | hfirstOld <;>
      rcases Pool.getElem?_concat_cases hsecond with ⟨hj, rfl⟩ | hsecondOld
    · rw [hi, hj]
    · exact absurd ⟨hsame.1.symm, hsame.2.1.symm, hsame.2.2.symm⟩ (hfresh hsecondOld hsecondLive)
    · exact absurd hsame (hfresh hfirstOld hfirstLive)
    · exact h.distinct i j first second hfirstOld hsecondOld hfirstLive hsecondLive hsame
  case numbered =>
    intro i other cell' m hother hlive hcell' hmode
    rcases Pool.getElem?_concat_cases hother with ⟨-, rfl⟩ | hother <;>
      rcases Ledger.Valid.update_cases hcell' with ⟨hkey, heq⟩ | ⟨hkey, hcell'⟩
    · cases heq
      exact (harrival.track m hmode).2.2.1.ge
    · exact absurd rfl hkey
    · cases heq
      exact (h.numbered i other cell m hother hlive (hkey ▸ hcell) hmode).trans
        (harrival.numbers m)
    · exact h.numbered i other cell' m hother hlive hcell' hmode
  case invited =>
    intro i other hother hlive hguest
    rcases Pool.getElem?_concat_cases hother with ⟨-, rfl⟩ | hother
    · exact ⟨(hnew hguest).2, (harrival.guest hguest).2.1⟩
    · obtain ⟨hbound, hholds⟩ := h.invited i other hother hlive hguest
      exact ⟨hbound.trans hguests, hholds⟩
  case counted =>
    intro key cell' m hcell'
    show _ = (L.workers ++ [worker]).countP _
    rw [List.countP_append, List.countP_singleton]
    rcases Ledger.Valid.update_cases hcell' with ⟨rfl, heq⟩ | ⟨hkey, hcell'⟩
    · cases heq
      have hbefore := h.counted _ _ m hcell
      by_cases hmode : worker.claimant = .mode m
      · rw [(harrival.track m hmode).2.2.2.2.1]
        simp [Worker.serves, harrival.live, hmode, hbefore]
      · rw [harrival.others m hmode]
        simp [Worker.serves, hmode, hbefore]
    · rw [h.counted key cell' m hcell']
      simp [Worker.serves, hkey.symm]
  case served =>
    intro key cell' m hcell' hon
    rcases Ledger.Valid.update_cases hcell' with ⟨rfl, heq⟩ | ⟨hkey, hcell'⟩
    · cases heq
      by_cases hmode : worker.claimant = .mode m
      · obtain ⟨hactive, -, hrun, -, -, htoken⟩ := harrival.track m hmode
        exact ⟨L.workers.length, worker, hself, harrival.live, hactive, rfl, hmode, hrun.symm,
          htoken⟩
      · rw [harrival.others m hmode] at hon ⊢
        obtain ⟨i, other, hother, hrest⟩ := h.served _ _ m hcell hon
        exact ⟨i, other, hforth hother, hrest⟩
    · obtain ⟨i, other, hother, hrest⟩ := h.served key cell' m hcell' hon
      exact ⟨i, other, hforth hother, hrest⟩
  case resigned =>
    intro i other cell' m hother hlive hinactive hcell' hmode hcurrent
    rcases Pool.getElem?_concat_cases hother with ⟨-, rfl⟩ | hother <;>
      rcases Ledger.Valid.update_cases hcell' with ⟨hkey, heq⟩ | ⟨hkey, hcell'⟩
    · rw [(harrival.track m hmode).1] at hinactive
      cases hinactive
    · exact hkey rfl
    · cases heq
      by_cases hworkerMode : worker.claimant = .mode m
      · obtain ⟨-, -, hrun, -⟩ := harrival.track m hworkerMode
        exact hfresh hother hlive ⟨hkey, hmode.trans hworkerMode.symm, hcurrent.2.symm.trans hrun⟩
      · rw [harrival.others m hworkerMode] at hcurrent
        exact h.resigned i other cell m hother hlive hinactive (hkey ▸ hcell) hmode hcurrent
    · exact h.resigned i other cell' m hother hlive hinactive hcell' hmode hcurrent
  case stale =>
    intro i other cell' m hother hactive hcell' hmode
    rcases Pool.getElem?_concat_cases hother with ⟨-, rfl⟩ | hother <;>
      rcases Ledger.Valid.update_cases hcell' with ⟨hkey, heq⟩ | ⟨hkey, hcell'⟩
    · cases heq
      obtain ⟨-, hon, hrun, -⟩ := harrival.track m hmode
      exact Or.inl ⟨hon, hrun⟩
    · exact absurd rfl hkey
    · cases heq
      have hbefore := h.stale i other cell m hother hactive (hkey ▸ hcell) hmode
      rcases harrival.quiet m with hoff | hworkerMode
      · exact hbefore.imp_left fun hcurrent ↦ absurd hcurrent.1 hoff
      · rwa [harrival.others m hworkerMode]
    · exact h.stale i other cell' m hother hactive hcell' hmode
  case owned =>
    intro key cell' claimant runID hcell' howner
    rcases Ledger.Valid.update_cases hcell' with ⟨rfl, heq⟩ | ⟨hkey, hcell'⟩
    · cases heq
      cases hmode : worker.claimant with
      | mode m =>
        rw [(harrival.owner m hmode).2] at howner
        obtain ⟨i, other, hother, hrest⟩ := h.owned _ _ claimant runID hcell howner
        exact ⟨i, other, hforth hother, hrest⟩
      | guest =>
        obtain ⟨-, hholds, -, hafter⟩ := harrival.guest hmode
        rw [hafter] at howner
        cases howner
        exact ⟨L.workers.length, worker, hself, hholds, rfl, hmode, rfl⟩
    · obtain ⟨i, other, hother, hrest⟩ := h.owned key cell' claimant runID hcell' howner
      exact ⟨i, other, hforth hother, hrest⟩
  case holding =>
    intro i other cell' hother hholds hcell'
    rcases Pool.getElem?_concat_cases hother with ⟨-, rfl⟩ | hother <;>
      rcases Ledger.Valid.update_cases hcell' with ⟨hkey, heq⟩ | ⟨hkey, hcell'⟩
    · cases heq
      cases hmode : other.claimant with
      | mode m =>
        rw [(harrival.owner m hmode).1] at hholds
        cases hholds
      | guest => exact (harrival.guest hmode).2.2.2
    · exact absurd rfl hkey
    · cases heq
      have hbefore := h.holding i other cell hother hholds (hkey ▸ hcell)
      cases hmode : worker.claimant with
      | mode m => rw [(harrival.owner m hmode).2, hbefore]
      | guest =>
        rw [(harrival.guest hmode).2.2.1] at hbefore
        cases hbefore
    · exact h.holding i other cell' hother hholds hcell'
  case exclusive =>
    intro key cell' first second hcell' hne hbusy
    rcases Ledger.Valid.update_cases hcell' with ⟨rfl, heq⟩ | ⟨-, hcell'⟩
    · cases heq
      cases hmode : worker.claimant with
      | mode m =>
        -- one of two different modes is not that of the new worker, and was quiet
        have hquiet : ∀ other, other ≠ m → ¬ (after.track other).Busy := by
          intro other hother
          rw [harrival.others other (by rw [hmode]; exact fun heq ↦ hother (by cases heq; rfl))]
          exact harrival.others_quiet m hmode other hother
        by_cases hfirst : first = m
        · exact hquiet second (fun heq ↦ hne (hfirst.trans heq.symm)) hbusy.2
        · exact hquiet first hfirst hbusy.1
      | guest =>
        have hsame : ∀ m, after.track m = cell.track m := fun m ↦
          harrival.others m (by rw [hmode]; exact fun heq ↦ by cases heq)
        rw [hsame, hsame] at hbusy
        exact h.exclusive _ cell first second hcell hne hbusy
    · exact h.exclusive key cell' first second hcell' hne hbusy
  case slots =>
    show L.slots = (L.workers ++ [worker]).countP _
    rw [List.countP_append, List.countP_singleton, harrival.slot, h.slots]
    simp
  case processes =>
    show L.processes = (L.workers ++ [worker]).countP _
    rw [List.countP_append, List.countP_singleton, harrival.process, h.processes]
    simp

end Arrivals

/-! ### Every act preserves the invariant -/

/-- A turn that leaves the resource as it is preserves the invariant. -/
theorem Ledger.Valid.turn_self {L : Ledger K M} (h : L.Valid) {i slots processes : ℕ}
    {worker next : Worker K M} {cell : Cell M} (hworker : L.workers[i]? = some worker)
    (hlive : worker.live = true) (hcell : L.cells worker.key = some cell)
    (hturn : Turn worker next cell cell)
    (hslots : slots + worker.slot.toNat = L.slots + next.slot.toNat)
    (hprocesses : processes + worker.process.toNat = L.processes + next.process.toNat) :
    ((L.setWorker i next).setCounts slots processes).Valid := by
  have hturned := h.turn hworker hlive hcell hturn hslots hprocesses
  rwa [← hcell, Function.update_eq_self] at hturned

omit [DecidableEq K] [DecidableEq M] in
/-- The condition of a turn that leaves the resource, the ownership and the run as they are. -/
theorem Turn.of_equipment {worker next : Worker K M} {cell : Cell M}
    (hkey : next.key = worker.key) (hclaimant : next.claimant = worker.claimant)
    (hrun : next.runID = worker.runID) (htoken : next.token = worker.token)
    (hactive : next.active = worker.active) (hholds : next.holds = worker.holds)
    (hlive : next.live = true)
    (hequipped : next.process = true → next.slot = true ∧ next.holds = true)
    (hguest : worker.claimant = .guest → worker.holds = true)
    (hcurrent : ∀ m, worker.claimant = .mode m → (cell.track m).Current worker.runID →
      worker.active = true) : Turn worker next cell cell where
  key := hkey
  claimant := hclaimant
  runID := hrun
  token := htoken
  active := fun h ↦ hactive ▸ h
  alive := fun _ ↦ hlive
  equipped := hequipped
  guest := fun _ hclaims ↦ hholds.trans (hguest hclaims)
  others := fun _ _ ↦ rfl
  numbers := fun _ ↦ rfl
  workers := fun _ _ ↦ by rw [hlive]; rfl
  tokens := fun _ hon ↦ ⟨hon, rfl⟩
  current := fun m hmode hcur ↦ by
    rw [hactive]
    exact ⟨fun _ ↦ hcurrent m hmode hcur, fun _ ↦ hcur.1⟩
  stale := fun _ _ _ ↦ rfl
  owner := Or.inl ⟨rfl, hholds⟩

omit [DecidableEq K] in
/-- The arrival of the worker of a new run. -/
theorem Arrival.of_start {key : K} {cell : Cell M} {m : M} {token : ℕ}
    (hoff : (cell.track m).on = false)
    (hothers : ∀ other, other ≠ m → ¬ (cell.track other).Busy) :
    Arrival (⟨key, .mode m, (cell.track m).runID + 1, token, true, true, false, false, false⟩)
      cell (cell.setTrack m
        ⟨true, (cell.track m).runID + 1, (cell.track m).workers + 1, some token⟩) where
  live := rfl
  slot := rfl
  process := rfl
  others := fun other hother ↦ Function.update_of_ne (fun heq ↦ hother (by rw [heq])) _ _
  numbers := fun other ↦ by
    simp only [Cell.setTrack, Function.update_apply]
    split_ifs with heq
    · subst heq
      exact Nat.le_succ _
    · exact le_rfl
  quiet := fun other ↦ by
    by_cases heq : other = m
    · subst heq
      exact Or.inl (by simp [hoff])
    · exact Or.inr fun hclaimant ↦ heq (by cases hclaimant; rfl)
  track := fun other hclaimant ↦ by
    cases hclaimant
    simp [Cell.setTrack]
  others_quiet := fun other hclaimant ↦ by
    cases hclaimant
    exact hothers
  guest := fun hclaimant ↦ by cases hclaimant
  owner := fun _ _ ↦ ⟨rfl, rfl⟩

omit [DecidableEq K] [DecidableEq M] in
/-- The arrival of a guest on an idle resource. -/
theorem Arrival.of_receive {key : K} {cell : Cell M} {runID token : ℕ} (hidle : cell.Idle) :
    Arrival (⟨key, .guest, runID, token, true, false, true, false, false⟩ : Worker K M) cell
      { cell with owner := some (.guest, runID) } where
  live := rfl
  slot := rfl
  process := rfl
  others := fun _ _ ↦ rfl
  numbers := fun _ ↦ le_rfl
  quiet := fun m ↦ Or.inl fun hon ↦ hidle.quiet m (Or.inl hon)
  track := fun _ hclaimant ↦ by cases hclaimant
  others_quiet := fun _ hclaimant ↦ by cases hclaimant
  guest := fun _ ↦ ⟨rfl, rfl, hidle.unowned, rfl⟩
  owner := fun _ hclaimant ↦ by cases hclaimant

namespace Ledger.Valid

variable {L : Ledger K M} {i : ℕ} {worker : Worker K M} {cell : Cell M} {m : M}

/-- What a live worker of a valid ledger brings into a turn that changes only its equipment. -/
theorem equipment (h : L.Valid) (hworker : L.workers[i]? = some worker)
    (hlive : worker.live = true) (hcell : L.cells worker.key = some cell) {slot process : Bool}
    (hequipped : process = true → slot = true ∧ worker.holds = true) :
    Turn worker { worker with slot, process } cell cell :=
  Turn.of_equipment rfl rfl rfl rfl rfl rfl hlive hequipped
    (fun hguest ↦ (h.invited i worker hworker hlive hguest).2)
    fun _ hmode hcurrent ↦ (h.token_of_current hworker hlive hcell hmode hcurrent).1

/-- The worker of the run that is on may end that run. -/
theorem turn_leaveCurrent (h : L.Valid) (hworker : L.workers[i]? = some worker)
    (hlive : worker.live = true) (hmode : worker.claimant = .mode m)
    (hcurrent : (cell.track m).Current worker.runID) :
    Turn worker { worker with active := false } cell (cell.setTrack m
      ⟨false, (cell.track m).runID, (cell.track m).workers, none⟩) where
  key := rfl
  claimant := rfl
  runID := rfl
  token := rfl
  active := fun hactive ↦ by cases hactive
  alive := fun _ ↦ hlive
  equipped := h.equipped i worker hworker
  guest := fun _ hguest ↦ (h.invited i worker hworker hlive hguest).2
  others := fun other hother ↦ Function.update_of_ne (by rintro rfl; exact hother hmode) _ _
  numbers := fun other ↦ by
    simp only [Cell.setTrack, Function.update_apply]
    split_ifs with heq
    · rw [heq]
    · rfl
  workers := fun other hother ↦ by
    cases hmode.symm.trans hother
    simp [Cell.setTrack, hlive]
  tokens := fun other hon ↦ by
    simp only [Cell.setTrack, Function.update_apply] at hon ⊢
    split_ifs at hon ⊢
    exact ⟨hon, rfl⟩
  current := fun other hother _ ↦ by
    cases hmode.symm.trans hother
    simp [Cell.setTrack]
  stale := fun other hother hstale ↦ by
    cases hmode.symm.trans hother
    exact absurd hcurrent hstale
  owner := Or.inl ⟨rfl, rfl⟩

/-- A worker may give up a run that is not on any more. -/
theorem turn_leaveStale (h : L.Valid) (hworker : L.workers[i]? = some worker)
    (hlive : worker.live = true) (hmode : worker.claimant = .mode m)
    (hstale : ¬ (cell.track m).Current worker.runID) :
    Turn worker { worker with active := false } cell cell where
  key := rfl
  claimant := rfl
  runID := rfl
  token := rfl
  active := fun hactive ↦ by cases hactive
  alive := fun _ ↦ hlive
  equipped := h.equipped i worker hworker
  guest := fun _ hguest ↦ (h.invited i worker hworker hlive hguest).2
  others := fun _ _ ↦ rfl
  numbers := fun _ ↦ rfl
  workers := fun _ _ ↦ by simp [hlive]
  tokens := fun _ hon ↦ ⟨hon, rfl⟩
  current := fun other hother hcurrent ↦ by
    cases hmode.symm.trans hother
    exact absurd hcurrent hstale
  stale := fun _ _ _ ↦ rfl
  owner := Or.inl ⟨rfl, rfl⟩

/-- A worker whose equipment and run stay as they are may take a free resource, or give it back
unless it runs a process or is a guest that stays. -/
theorem turn_owner (h : L.Valid) (hworker : L.workers[i]? = some worker)
    (hlive : worker.live = true) (hcell : L.cells worker.key = some cell) {holds : Bool}
    {owner : Option (Claimant M × ℕ)} (hprocess : worker.process = true → holds = true)
    (hguest : worker.claimant = .guest → holds = true)
    (howner : (cell.owner = none ∧ owner = some (worker.claimant, worker.runID) ∧ holds = true) ∨
      (worker.holds = true ∧ holds = false ∧ owner = none)) :
    Turn worker { worker with holds } cell { cell with owner } where
  key := rfl
  claimant := rfl
  runID := rfl
  token := rfl
  active := id
  alive := fun _ ↦ hlive
  equipped := fun hprocessing ↦
    ⟨(h.equipped i worker hworker hprocessing).1, hprocess hprocessing⟩
  guest := fun _ hclaims ↦ hguest hclaims
  others := fun _ _ ↦ rfl
  numbers := fun _ ↦ rfl
  workers := fun _ _ ↦ by simp [hlive]
  tokens := fun _ hon ↦ ⟨hon, rfl⟩
  current := fun _ hmode hcurrent ↦
    ⟨fun _ ↦ (h.token_of_current hworker hlive hcell hmode hcurrent).1, fun _ ↦ hcurrent.1⟩
  stale := fun _ _ _ ↦ rfl
  owner := Or.inr howner

/-- A worker that has given everything back may end. -/
theorem turn_retire (h : L.Valid) (hworker : L.workers[i]? = some worker)
    (hlive : worker.live = true) (hcell : L.cells worker.key = some cell)
    (hmode : worker.claimant = .mode m) (hactive : worker.active = false)
    (hholds : worker.holds = false) (hslot : worker.slot = false)
    (hprocess : worker.process = false) :
    Turn worker { worker with live := false } cell (cell.setTrack m
      { cell.track m with workers := (cell.track m).workers - 1 }) where
  key := rfl
  claimant := rfl
  runID := rfl
  token := rfl
  active := id
  alive := fun hflag ↦ by simp [hactive, hholds, hslot] at hflag
  equipped := fun hprocessing ↦ by rw [hprocess] at hprocessing; cases hprocessing
  guest := fun hfalse ↦ by cases hfalse
  others := fun other hother ↦ Function.update_of_ne (by rintro rfl; exact hother hmode) _ _
  numbers := fun other ↦ by
    simp only [Cell.setTrack, Function.update_apply]
    split_ifs with heq
    · rw [heq]
    · rfl
  workers := fun other hother ↦ by
    cases hmode.symm.trans hother
    have hserves : worker.serves worker.key m = true := by simp [Worker.serves, hlive, hmode]
    have hpositive := Pool.countP_pos_of_getElem? hworker hserves
    rw [← h.counted _ _ m hcell] at hpositive
    simp only [Cell.setTrack, Function.update_self, Bool.toNat_false]
    omega
  tokens := fun other hon ↦ by
    simp only [Cell.setTrack, Function.update_apply] at hon ⊢
    split_ifs at hon ⊢ with heq
    · rw [heq]
      exact ⟨hon, rfl⟩
    · exact ⟨hon, rfl⟩
  current := fun other hother hcurrent ↦
    absurd hcurrent (h.resigned i worker cell other hworker hlive hactive hcell hother)
  stale := fun other hother _ ↦ by
    cases hmode.symm.trans hother
    simp [Cell.setTrack]
  owner := Or.inl ⟨rfl, rfl⟩

omit [DecidableEq K] [DecidableEq M] in
/-- A guest that has given its equipment back may leave. -/
theorem turn_dismiss (hguest : worker.claimant = .guest) (hholds : worker.holds = true)
    (hactive : worker.active = false) (hslot : worker.slot = false)
    (hprocess : worker.process = false) :
    Turn worker { worker with live := false, holds := false } cell { cell with owner := none } where
  key := rfl
  claimant := rfl
  runID := rfl
  token := rfl
  active := id
  alive := fun hflag ↦ by simp [hactive, hslot] at hflag
  equipped := fun hprocessing ↦ by rw [hprocess] at hprocessing; cases hprocessing
  guest := fun hfalse ↦ by cases hfalse
  others := fun _ _ ↦ rfl
  numbers := fun _ ↦ rfl
  workers := fun _ hmode ↦ by rw [hguest] at hmode; cases hmode
  tokens := fun _ hon ↦ ⟨hon, rfl⟩
  current := fun _ hmode ↦ by rw [hguest] at hmode; cases hmode
  stale := fun _ hmode ↦ by rw [hguest] at hmode; cases hmode
  owner := Or.inr (Or.inr ⟨hholds, rfl, rfl⟩)

/-- The slots in use include that of a worker. -/
theorem slots_pos (h : L.Valid) (hworker : L.workers[i]? = some worker)
    (hslot : worker.slot = true) : 0 < L.slots :=
  h.slots ▸ Pool.countP_pos_of_getElem? hworker hslot

/-- The processes include that of a worker. -/
theorem processes_pos (h : L.Valid) (hworker : L.workers[i]? = some worker)
    (hprocess : worker.process = true) : 0 < L.processes :=
  h.processes ▸ Pool.countP_pos_of_getElem? hworker hprocess

end Ledger.Valid

/-- Every act preserves the invariant. -/
theorem Act.valid {courteous : Bool} {L L' : Ledger K M} (hact : Act courteous L L')
    (h : L.Valid) : L'.Valid := by
  cases hact with
  | openCell hvacant hidle =>
    exact h.setCell_of_unused (h.key_ne_of_vacant hvacant) fun _ heq ↦ by cases heq; exact hidle
  | closeCell hcell hidle =>
    exact h.setCell_of_unused (h.key_ne_of_idle hcell hidle) fun _ heq ↦ by cases heq
  | start hcell hoff hothers =>
    exact h.arrival hcell (Arrival.of_start hoff hothers) le_rfl fun heq ↦ by cases heq
  | halt hcell hcancelled => exact h.halt hcell hcancelled
  | leaveCurrent hworker hcell hmode hlive hcurrent =>
    exact h.turn hworker hlive hcell (h.turn_leaveCurrent hworker hlive hmode hcurrent) rfl rfl
  | leaveStale hworker hcell hmode hlive hstale =>
    exact h.turn_self hworker hlive hcell (h.turn_leaveStale hworker hlive hmode hstale) rfl rfl
  | take hworker hcell hlive hfree =>
    exact h.turn hworker hlive hcell (h.turn_owner hworker hlive hcell (fun _ ↦ rfl)
      (fun _ ↦ rfl) (Or.inl ⟨hfree, rfl, rfl⟩)) rfl rfl
  | drop hworker hcell hmode hholds hprocess =>
    have hlive := h.alive _ _ hworker (Or.inr (Or.inl hholds))
    exact h.turn hworker hlive hcell (h.turn_owner hworker hlive hcell
      (fun hprocessing ↦ by rw [hprocess] at hprocessing; cases hprocessing)
      (fun hguest ↦ by rw [hmode] at hguest; cases hguest)
      (Or.inr ⟨hholds, rfl, rfl⟩)) rfl rfl
  | @enter i worker hworker hlive hslot =>
    obtain ⟨cell, hcell⟩ := h.present i worker hworker hlive
    refine h.turn_self hworker hlive hcell (h.equipment hworker hlive hcell fun hprocessing ↦
      ⟨rfl, (h.equipped i worker hworker hprocessing).2⟩) ?_ rfl
    simp [hslot]
  | @yield i worker hworker hslot hprocess =>
    have hlive := h.alive i worker hworker (Or.inr (Or.inr hslot))
    obtain ⟨cell, hcell⟩ := h.present i worker hworker hlive
    have hpositive := h.slots_pos hworker hslot
    refine h.turn_self hworker hlive hcell (h.equipment hworker hlive hcell fun hprocessing ↦ by
      rw [hprocess] at hprocessing; cases hprocessing) ?_ rfl
    simp only [hslot, Bool.toNat_true, Bool.toNat_false]
    omega
  | @launch i worker hworker hholds hslot hprocess =>
    have hlive := h.alive i worker hworker (Or.inr (Or.inl hholds))
    obtain ⟨cell, hcell⟩ := h.present i worker hworker hlive
    refine h.turn_self hworker hlive hcell (h.equipment hworker hlive hcell fun _ ↦
      ⟨hslot, hholds⟩) rfl ?_
    simp [hprocess]
  | @finish i worker hworker hprocess =>
    obtain ⟨hslot, hholds⟩ := h.equipped i worker hworker hprocess
    have hlive := h.alive i worker hworker (Or.inr (Or.inl hholds))
    obtain ⟨cell, hcell⟩ := h.present i worker hworker hlive
    have hslots := h.slots_pos hworker hslot
    have hprocesses := h.processes_pos hworker hprocess
    refine h.turn_self hworker hlive hcell (h.equipment hworker hlive hcell fun hfalse ↦ by
      cases hfalse) ?_ ?_
    · simp only [hslot, Bool.toNat_true, Bool.toNat_false]
      omega
    · simp only [hprocess, Bool.toNat_true, Bool.toNat_false]
      omega
  | retire hworker hcell hmode hlive hactive hholds hslot hprocess =>
    exact h.turn hworker hlive hcell (h.turn_retire hworker hlive hcell hmode hactive hholds hslot
      hprocess) rfl rfl
  | receive hcell hidle =>
    exact h.arrival hcell (Arrival.of_receive hidle) (Nat.le_succ _)
      fun _ ↦ ⟨Nat.lt_succ_self _, le_rfl⟩
  | dismiss hworker hcell hguest hholds hactive hslot hprocess =>
    have hlive := h.alive _ _ hworker (Or.inr (Or.inl hholds))
    exact h.turn hworker hlive hcell
      (Ledger.Valid.turn_dismiss hguest hholds hactive hslot hprocess) rfl rfl
  | cancel tokens => exact h.cancel tokens
  | join hgone => exact h.join hgone

/-- Finitely many acts preserve the invariant. -/
theorem Act.valid_of_reflTransGen {courteous : Bool} {L L' : Ledger K M}
    (hacts : Relation.ReflTransGen (Act courteous) L L') (h : L.Valid) : L'.Valid := by
  induction hacts with
  | refl => exact h
  | tail _ hact ih => exact hact.valid ih

end CodexQueueBot.Lib
