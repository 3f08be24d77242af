import CodexQueueBot.Lib.Ledger

/-!
# The invariant of a ledger of exclusive runs, and turns of one worker

`Ledger.Valid` is the invariant of `Ledger`. Most acts are turns of one live worker: the worker and
its resource change together and nothing else does. `Turn` collects what such a change has to
respect, and `Ledger.Valid.turn` is the one proof behind all of them. `LedgerPreservation` treats
the remaining acts and assembles the preservation theorem.
-/

set_option autoImplicit false
set_option relaxedAutoImplicit false

namespace CodexQueueBot.Lib

variable {K M : Type*} [DecidableEq K] [DecidableEq M]

/-! ### The invariant -/

/-- The invariant of a ledger. -/
structure Ledger.Valid (L : Ledger K M) : Prop where
  /-- A live worker works on a resource that exists. -/
  present : ∀ (i : ℕ) (worker : Worker K M), L.workers[i]? = some worker → worker.live = true →
    ∃ cell, L.cells worker.key = some cell
  /-- A worker that has not given up its run, or has something to give back, is alive. -/
  alive : ∀ (i : ℕ) (worker : Worker K M), L.workers[i]? = some worker →
    worker.active = true ∨ worker.holds = true ∨ worker.slot = true → worker.live = true
  /-- A process has a slot and the resource. -/
  equipped : ∀ (i : ℕ) (worker : Worker K M), L.workers[i]? = some worker →
    worker.process = true → worker.slot = true ∧ worker.holds = true
  /-- A run has at most one live worker. -/
  distinct : ∀ (i j : ℕ) (worker other : Worker K M), L.workers[i]? = some worker →
    L.workers[j]? = some other → worker.live = true → other.live = true →
    worker.Same other → i = j
  /-- The number of a live run does not exceed that of its track. -/
  numbered : ∀ (i : ℕ) (worker : Worker K M) (cell : Cell M) (m : M),
    L.workers[i]? = some worker → worker.live = true → L.cells worker.key = some cell →
    worker.claimant = .mode m → worker.runID ≤ (cell.track m).runID
  /-- A live guest is numbered and uses its resource. -/
  invited : ∀ (i : ℕ) (worker : Worker K M), L.workers[i]? = some worker → worker.live = true →
    worker.claimant = .guest → worker.runID ≤ L.guests ∧ worker.holds = true
  /-- A track counts its live workers. -/
  counted : ∀ (key : K) (cell : Cell M) (m : M), L.cells key = some cell →
    (cell.track m).workers = L.workers.countP (Worker.serves key m)
  /-- A run that is on has a worker that has not given it up. -/
  served : ∀ (key : K) (cell : Cell M) (m : M), L.cells key = some cell →
    (cell.track m).on = true → ∃ (i : ℕ) (worker : Worker K M), L.workers[i]? = some worker ∧
      worker.live = true ∧ worker.active = true ∧ worker.key = key ∧
      worker.claimant = .mode m ∧ worker.runID = (cell.track m).runID ∧
      (cell.track m).token = some worker.token
  /-- A worker that has given up its run does not carry the run that is on. -/
  resigned : ∀ (i : ℕ) (worker : Worker K M) (cell : Cell M) (m : M),
    L.workers[i]? = some worker → worker.live = true → worker.active = false →
    L.cells worker.key = some cell → worker.claimant = .mode m →
    ¬ (cell.track m).Current worker.runID
  /-- A worker whose run is over without its doing has been cancelled. -/
  stale : ∀ (i : ℕ) (worker : Worker K M) (cell : Cell M) (m : M),
    L.workers[i]? = some worker → worker.active = true → L.cells worker.key = some cell →
    worker.claimant = .mode m →
    (cell.track m).Current worker.runID ∨ worker.token ∈ L.cancelled
  /-- An owner is a worker that holds the resource. -/
  owned : ∀ (key : K) (cell : Cell M) (claimant : Claimant M) (runID : ℕ),
    L.cells key = some cell → cell.owner = some (claimant, runID) →
    ∃ (i : ℕ) (worker : Worker K M), L.workers[i]? = some worker ∧ worker.holds = true ∧
      worker.key = key ∧ worker.claimant = claimant ∧ worker.runID = runID
  /-- A worker that holds the resource is its owner. -/
  holding : ∀ (i : ℕ) (worker : Worker K M) (cell : Cell M), L.workers[i]? = some worker →
    worker.holds = true → L.cells worker.key = some cell →
    cell.owner = some (worker.claimant, worker.runID)
  /-- Two modes are never busy together. -/
  exclusive : ∀ (key : K) (cell : Cell M) (m other : M), L.cells key = some cell →
    m ≠ other → ¬ ((cell.track m).Busy ∧ (cell.track other).Busy)
  /-- The slots in use are those of the workers. -/
  slots : L.slots = L.workers.countP (·.slot)
  /-- The processes are those of the workers. -/
  processes : L.processes = L.workers.countP (·.process)

namespace Ledger.Valid

variable {L : Ledger K M}

omit [DecidableEq K] [DecidableEq M] in
/-- The entries of a rewritten table of resources. -/
theorem update_cases {cells : K → Option (Cell M)} [DecidableEq K] {key key' : K} {cell : Cell M}
    {entry : Option (Cell M)} (h : Function.update cells key entry key' = some cell) :
    (key' = key ∧ entry = some cell) ∨ (key' ≠ key ∧ cells key' = some cell) := by
  rw [Function.update_apply] at h
  split_ifs at h with hkey
  · exact Or.inl ⟨hkey, h⟩
  · exact Or.inr ⟨hkey, h⟩

/-- The owner of a resource is a given live worker of it exactly when that worker holds it. -/
theorem owner_iff_holds (h : L.Valid) {i : ℕ} {worker : Worker K M} {cell : Cell M}
    (hworker : L.workers[i]? = some worker) (hlive : worker.live = true)
    (hcell : L.cells worker.key = some cell) :
    cell.owner = some (worker.claimant, worker.runID) ↔ worker.holds = true := by
  constructor
  · intro howner
    obtain ⟨j, other, hother, hholds, hsame⟩ := h.owned _ _ _ _ hcell howner
    have hotherLive := h.alive j other hother (Or.inr (Or.inl hholds))
    obtain rfl := h.distinct j i other worker hother hworker hotherLive hlive hsame
    obtain rfl := Option.some.inj (hother.symm.trans hworker)
    exact hholds
  · intro hholds
    exact h.holding i worker cell hworker hholds hcell

/-- The token of a track that is on is that of the live worker which carries its run. -/
theorem token_of_current (h : L.Valid) {i : ℕ} {worker : Worker K M} {cell : Cell M} {m : M}
    (hworker : L.workers[i]? = some worker) (hlive : worker.live = true)
    (hcell : L.cells worker.key = some cell) (hmode : worker.claimant = .mode m)
    (hcurrent : (cell.track m).Current worker.runID) :
    worker.active = true ∧ (cell.track m).token = some worker.token := by
  obtain ⟨j, other, hother, hotherLive, hactive, hkey, hclaimant, hrun, htoken⟩ :=
    h.served _ _ m hcell hcurrent.1
  have hsame : other.Same worker :=
    ⟨hkey, hclaimant.trans hmode.symm, hrun.trans hcurrent.2⟩
  obtain rfl := h.distinct j i other worker hother hworker hotherLive hlive hsame
  obtain rfl := Option.some.inj (hother.symm.trans hworker)
  exact ⟨hactive, htoken⟩

/-- Two live workers that carry the run that is on are the same worker. -/
theorem eq_of_current (h : L.Valid) {i j : ℕ} {worker other : Worker K M} {track : Track} {m : M}
    (hworker : L.workers[i]? = some worker) (hother : L.workers[j]? = some other)
    (hlive : worker.live = true) (hotherLive : other.live = true) (hkey : worker.key = other.key)
    (hmode : worker.claimant = .mode m) (hotherMode : other.claimant = .mode m)
    (hcurrent : track.Current worker.runID) (hotherCurrent : track.Current other.runID) :
    i = j :=
  h.distinct i j worker other hworker hother hlive hotherLive
    ⟨hkey, hmode.trans hotherMode.symm, hcurrent.2.symm.trans hotherCurrent.2⟩

/-- The track of a live worker is busy. -/
theorem busy_of_live (h : L.Valid) {i : ℕ} {worker : Worker K M} {cell : Cell M} {m : M}
    (hworker : L.workers[i]? = some worker) (hlive : worker.live = true)
    (hcell : L.cells worker.key = some cell) (hmode : worker.claimant = .mode m) :
    (cell.track m).Busy := by
  have hserves : worker.serves worker.key m = true := by
    simp [Worker.serves, hlive, hmode]
  have hpositive := Pool.countP_pos_of_getElem? hworker hserves
  rw [← h.counted _ _ m hcell] at hpositive
  exact Or.inr hpositive

/-- The track of an owner is busy. -/
theorem busy_of_owner (h : L.Valid) {key : K} {cell : Cell M} {m : M} {runID : ℕ}
    (hcell : L.cells key = some cell) (howner : cell.owner = some (.mode m, runID)) :
    (cell.track m).Busy := by
  obtain ⟨i, worker, hworker, hholds, rfl, hmode, -⟩ := h.owned key cell _ _ hcell howner
  exact h.busy_of_live hworker (h.alive i worker hworker (Or.inr (Or.inl hholds))) hcell hmode

/-- No live worker works on an idle resource. -/
theorem not_live_of_idle (h : L.Valid) {i : ℕ} {worker : Worker K M} {cell : Cell M}
    (hworker : L.workers[i]? = some worker) (hcell : L.cells worker.key = some cell)
    (hidle : cell.Idle) : worker.live = false := by
  by_contra hdead
  have hlive : worker.live = true := by simpa using hdead
  cases hclaimant : worker.claimant with
  | mode m => exact hidle.quiet m (h.busy_of_live hworker hlive hcell hclaimant)
  | guest =>
    have howner := h.holding i worker cell hworker (h.invited i worker hworker hlive hclaimant).2
      hcell
    rw [hidle.unowned] at howner
    cases howner

end Ledger.Valid

/-! ### Turns of one worker -/

/-- A turn of a live worker: how the worker and its resource may change together. -/
structure Turn (worker next : Worker K M) (cell after : Cell M) : Prop where
  key : next.key = worker.key
  claimant : next.claimant = worker.claimant
  runID : next.runID = worker.runID
  token : next.token = worker.token
  active : next.active = true → worker.active = true
  alive : next.active = true ∨ next.holds = true ∨ next.slot = true → next.live = true
  equipped : next.process = true → next.slot = true ∧ next.holds = true
  guest : next.live = true → worker.claimant = .guest → next.holds = true
  others : ∀ m, worker.claimant ≠ .mode m → after.track m = cell.track m
  numbers : ∀ m, (after.track m).runID = (cell.track m).runID
  workers : ∀ m, worker.claimant = .mode m →
    (after.track m).workers + 1 = (cell.track m).workers + next.live.toNat
  tokens : ∀ m, (after.track m).on = true →
    (cell.track m).on = true ∧ (after.track m).token = (cell.track m).token
  /-- The worker of the run that is on keeps it on exactly as long as it does not give it up. -/
  current : ∀ m, worker.claimant = .mode m → (cell.track m).Current worker.runID →
    ((after.track m).on = true ↔ next.active = true)
  /-- Any other worker leaves the run that is on alone. -/
  stale : ∀ m, worker.claimant = .mode m → ¬ (cell.track m).Current worker.runID →
    (after.track m).on = (cell.track m).on
  /-- The ownership stays, or is taken, or is given back by its owner. -/
  owner : (after.owner = cell.owner ∧ next.holds = worker.holds) ∨
    (cell.owner = none ∧ after.owner = some (worker.claimant, worker.runID) ∧
      next.holds = true) ∨
    (worker.holds = true ∧ next.holds = false ∧ after.owner = none)

namespace Turn

variable {worker next : Worker K M} {cell after : Cell M}

omit [DecidableEq K] in
/-- A turn makes no track busy. -/
theorem busy (hturn : Turn worker next cell after) {m : M} (hbusy : (after.track m).Busy) :
    (cell.track m).Busy := by
  by_cases hmode : worker.claimant = .mode m
  · rcases hbusy with hon | hworkers
    · exact Or.inl (hturn.tokens m hon).1
    · have hcount := hturn.workers m hmode
      have hbound : next.live.toNat ≤ 1 := Bool.toNat_le next.live
      exact Or.inr (by omega)
  · rwa [hturn.others m hmode] at hbusy

end Turn

section Turns

variable {L : Ledger K M} {i : ℕ} {worker next : Worker K M} {cell after : Cell M}

/-- Assumes: a turn of a live worker. The workers of every track are still counted. -/
theorem Turn.counted (hturn : Turn worker next cell after) (h : L.Valid)
    (hworker : L.workers[i]? = some worker) (hlive : worker.live = true)
    (hcell : L.cells worker.key = some cell) {key : K} {cell' : Cell M} (m : M)
    (hcell' : Function.update L.cells worker.key (some after) key = some cell') :
    (cell'.track m).workers = (L.workers.set i next).countP (Worker.serves key m) := by
  have hcount := Pool.countP_set_add (Worker.serves key m) next hworker
  rcases Ledger.Valid.update_cases hcell' with ⟨rfl, heq⟩ | ⟨hkey, hcell'⟩
  · cases heq
    have hbefore := h.counted _ _ m hcell
    by_cases hmode : worker.claimant = .mode m
    · have hworkers := hturn.workers m hmode
      have hserves : (worker.serves worker.key m).toNat = 1 := by
        simp [Worker.serves, hlive, hmode]
      have hnext : (next.serves worker.key m).toNat = next.live.toNat := by
        simp [Worker.serves, hturn.key, hturn.claimant, hmode]
      omega
    · have hserves : (worker.serves worker.key m).toNat = 0 := by simp [Worker.serves, hmode]
      have hnext : (next.serves worker.key m).toNat = 0 := by
        simp [Worker.serves, hturn.claimant, hmode]
      rw [hturn.others m hmode]
      omega
  · have hbefore := h.counted _ _ m hcell'
    have hserves : (worker.serves key m).toNat = 0 := by simp [Worker.serves, hkey.symm]
    have hnext : (next.serves key m).toNat = 0 := by simp [Worker.serves, hturn.key, hkey.symm]
    omega

/-- Assumes: a turn of a live worker. A run that is on still has a worker that has not given it
up. -/
theorem Turn.served (hturn : Turn worker next cell after) (h : L.Valid)
    (hworker : L.workers[i]? = some worker) (hcell : L.cells worker.key = some cell)
    {key : K} {cell' : Cell M} (m : M)
    (hcell' : Function.update L.cells worker.key (some after) key = some cell')
    (hon : (cell'.track m).on = true) :
    ∃ (j : ℕ) (other : Worker K M), (L.workers.set i next)[j]? = some other ∧
      other.live = true ∧ other.active = true ∧ other.key = key ∧ other.claimant = .mode m ∧
      other.runID = (cell'.track m).runID ∧ (cell'.track m).token = some other.token := by
  have hlt : i < L.workers.length := (List.getElem?_eq_some_iff.mp hworker).1
  rcases Ledger.Valid.update_cases hcell' with ⟨rfl, heq⟩ | ⟨hkey, hcell'⟩
  · cases heq
    obtain ⟨hwas, htoken⟩ := hturn.tokens m hon
    obtain ⟨j, other, hother, hlive, hactive, hkey, hmode, hrun, hsome⟩ :=
      h.served _ _ m hcell hwas
    by_cases hj : j = i
    · subst hj
      obtain rfl := Option.some.inj (hworker.symm.trans hother)
      have hstays := (hturn.current m hmode ⟨hwas, hrun.symm⟩).mp hon
      exact ⟨j, next, List.getElem?_set_self hlt, hturn.alive (Or.inl hstays), hstays, hturn.key,
        hturn.claimant.trans hmode, by rw [hturn.runID, hrun, hturn.numbers],
        by rw [htoken, hsome, hturn.token]⟩
    · exact ⟨j, other, by rwa [List.getElem?_set_ne (Ne.symm hj)], hlive, hactive, hkey, hmode,
        by rw [hrun, hturn.numbers], by rw [htoken, hsome]⟩
  · obtain ⟨j, other, hother, hlive, hactive, hotherKey, hrest⟩ := h.served _ _ m hcell' hon
    have hj : j ≠ i := by
      rintro rfl
      obtain rfl := Option.some.inj (hworker.symm.trans hother)
      exact hkey hotherKey.symm
    exact ⟨j, other, by rwa [List.getElem?_set_ne hj.symm], hlive, hactive, hotherKey, hrest⟩

/-- Assumes: a turn of a live worker. A worker whose run is over without its doing has still been
cancelled. -/
theorem Turn.cancelled (hturn : Turn worker next cell after) (h : L.Valid)
    (hworker : L.workers[i]? = some worker) (hlive : worker.live = true)
    (hcell : L.cells worker.key = some cell) {j : ℕ} {other : Worker K M} {cell' : Cell M} {m : M}
    (hother : (L.workers.set i next)[j]? = some other) (hactive : other.active = true)
    (hcell' : Function.update L.cells worker.key (some after) other.key = some cell')
    (hmode : other.claimant = .mode m) :
    (cell'.track m).Current other.runID ∨ other.token ∈ L.cancelled := by
  rcases Pool.getElem?_set_cases hother with ⟨rfl, rfl⟩ | ⟨hj, hother⟩ <;>
    rcases Ledger.Valid.update_cases hcell' with ⟨hkey, heq⟩ | ⟨hkey, hcell'⟩
  · cases heq
    have hwas : worker.claimant = .mode m := hturn.claimant.symm.trans hmode
    rw [hturn.token]
    refine (h.stale j worker cell m hworker (hturn.active hactive) hcell hwas).imp_left ?_
    intro hcurrent
    exact ⟨(hturn.current m hwas hcurrent).mpr hactive,
      by rw [hturn.numbers, hcurrent.2, hturn.runID]⟩
  · exact absurd hturn.key hkey
  · cases heq
    have hotherLive := h.alive j other hother (Or.inl hactive)
    refine (h.stale j other cell m hother hactive (hkey ▸ hcell) hmode).imp_left ?_
    intro hcurrent
    refine ⟨?_, by rw [hturn.numbers, hcurrent.2]⟩
    by_cases hwas : worker.claimant = .mode m
    · rw [hturn.stale m hwas]
      · exact hcurrent.1
      · intro hworkerCurrent
        exact hj (h.eq_of_current hother hworker hotherLive hlive hkey hmode hwas hcurrent
          hworkerCurrent)
    · rw [hturn.others m hwas]
      exact hcurrent.1
  · exact h.stale j other cell' m hother hactive hcell' hmode

/-- Assumes: a turn of a live worker. An owner is still a worker that holds the resource. -/
theorem Turn.owned (hturn : Turn worker next cell after) (h : L.Valid)
    (hworker : L.workers[i]? = some worker) (hcell : L.cells worker.key = some cell)
    {key : K} {cell' : Cell M} {claimant : Claimant M} {runID : ℕ}
    (hcell' : Function.update L.cells worker.key (some after) key = some cell')
    (howner : cell'.owner = some (claimant, runID)) :
    ∃ (j : ℕ) (other : Worker K M), (L.workers.set i next)[j]? = some other ∧
      other.holds = true ∧ other.key = key ∧ other.claimant = claimant ∧
      other.runID = runID := by
  have hself : (L.workers.set i next)[i]? = some next :=
    List.getElem?_set_self (List.getElem?_eq_some_iff.mp hworker).1
  rcases Ledger.Valid.update_cases hcell' with ⟨rfl, heq⟩ | ⟨hkey, hcell'⟩
  · cases heq
    rcases hturn.owner with ⟨hsame, hholds⟩ | ⟨-, htaken, hholds⟩ | ⟨-, -, hfree⟩
    · rw [hsame] at howner
      obtain ⟨j, other, hother, hotherHolds, hrest⟩ := h.owned _ _ _ _ hcell howner
      by_cases hj : j = i
      · subst hj
        obtain rfl := Option.some.inj (hworker.symm.trans hother)
        exact ⟨j, next, hself, hholds.trans hotherHolds, hturn.key,
          hturn.claimant.trans hrest.2.1, hturn.runID.trans hrest.2.2⟩
      · exact ⟨j, other, by rwa [List.getElem?_set_ne (Ne.symm hj)], hotherHolds, hrest⟩
    · rw [htaken] at howner
      cases howner
      exact ⟨i, next, hself, hholds, hturn.key, hturn.claimant, hturn.runID⟩
    · rw [hfree] at howner
      cases howner
  · obtain ⟨j, other, hother, hotherHolds, hrest⟩ := h.owned _ _ _ _ hcell' howner
    have hj : j ≠ i := by
      rintro rfl
      obtain rfl := Option.some.inj (hworker.symm.trans hother)
      exact hkey hrest.1.symm
    exact ⟨j, other, by rwa [List.getElem?_set_ne hj.symm], hotherHolds, hrest⟩

/-- Assumes: a turn of a live worker. A worker that holds the resource is still its owner. -/
theorem Turn.holding (hturn : Turn worker next cell after) (h : L.Valid)
    (hworker : L.workers[i]? = some worker) (hlive : worker.live = true)
    (hcell : L.cells worker.key = some cell) {j : ℕ} {other : Worker K M} {cell' : Cell M}
    (hother : (L.workers.set i next)[j]? = some other) (hholds : other.holds = true)
    (hcell' : Function.update L.cells worker.key (some after) other.key = some cell') :
    cell'.owner = some (other.claimant, other.runID) := by
  rcases Pool.getElem?_set_cases hother with ⟨rfl, rfl⟩ | ⟨hj, hother⟩ <;>
    rcases Ledger.Valid.update_cases hcell' with ⟨hkey, heq⟩ | ⟨hkey, hcell'⟩
  · cases heq
    rw [hturn.claimant, hturn.runID]
    rcases hturn.owner with ⟨hsame, hheld⟩ | ⟨-, htaken, -⟩ | ⟨-, hdropped, -⟩
    · rw [hsame]
      exact h.holding j worker cell hworker (hheld ▸ hholds) hcell
    · exact htaken
    · rw [hdropped] at hholds
      cases hholds
  · exact absurd hturn.key hkey
  · cases heq
    have hbefore := h.holding j other cell hother hholds (hkey ▸ hcell)
    rcases hturn.owner with ⟨hsame, -⟩ | ⟨hnone, -, -⟩ | ⟨hheld, -, -⟩
    · rw [hsame]
      exact hbefore
    · rw [hnone] at hbefore
      cases hbefore
    · have hmine := h.holding i worker cell hworker hheld hcell
      rw [hmine, Option.some.injEq, Prod.mk.injEq] at hbefore
      have hotherLive := h.alive j other hother (Or.inr (Or.inl hholds))
      exact absurd (h.distinct j i other worker hother hworker hotherLive hlive
        ⟨hkey, hbefore.1.symm, hbefore.2.symm⟩) hj
  · exact h.holding j other cell' hother hholds hcell'

/-- A turn of a live worker preserves the invariant, if the slots and processes change with the
worker's own. -/
theorem Ledger.Valid.turn (h : L.Valid) {slots processes : ℕ}
    (hworker : L.workers[i]? = some worker) (hlive : worker.live = true)
    (hcell : L.cells worker.key = some cell) (hturn : Turn worker next cell after)
    (hslots : slots + worker.slot.toNat = L.slots + next.slot.toNat)
    (hprocesses : processes + worker.process.toNat = L.processes + next.process.toNat) :
    Ledger.Valid ⟨Function.update L.cells worker.key (some after), L.workers.set i next, slots,
      processes, L.guests, L.cancelled⟩ where
  present := by
    intro j other hother hotherLive
    show ∃ cell', Function.update L.cells worker.key (some after) other.key = some cell'
    rw [Function.update_apply]
    split_ifs with hkey
    · exact ⟨after, rfl⟩
    · rcases Pool.getElem?_set_cases hother with ⟨rfl, rfl⟩ | ⟨-, hother⟩
      · exact absurd hturn.key hkey
      · exact h.present j other hother hotherLive
  alive := by
    intro j other hother
    rcases Pool.getElem?_set_cases hother with ⟨rfl, rfl⟩ | ⟨-, hother⟩
    · exact hturn.alive
    · exact h.alive j other hother
  equipped := by
    intro j other hother
    rcases Pool.getElem?_set_cases hother with ⟨rfl, rfl⟩ | ⟨-, hother⟩
    · exact hturn.equipped
    · exact h.equipped j other hother
  distinct := by
    intro j k first second hfirst hsecond hfirstLive hsecondLive hsame
    have hback : ∀ {j : ℕ} {other : Worker K M}, (L.workers.set i next)[j]? = some other →
        other.live = true → ∃ before : Worker K M, L.workers[j]? = some before ∧
          before.live = true ∧ before.Same other := by
      intro j other hother hotherLive
      rcases Pool.getElem?_set_cases hother with ⟨rfl, rfl⟩ | ⟨-, hother⟩
      · exact ⟨worker, hworker, hlive, hturn.key.symm, hturn.claimant.symm, hturn.runID.symm⟩
      · exact ⟨other, hother, hotherLive, rfl, rfl, rfl⟩
    obtain ⟨a, ha, haLive, haSame⟩ := hback hfirst hfirstLive
    obtain ⟨b, hb, hbLive, hbSame⟩ := hback hsecond hsecondLive
    refine h.distinct j k a b ha hb haLive hbLive ⟨?_, ?_, ?_⟩
    · rw [haSame.1, hbSame.1, hsame.1]
    · rw [haSame.2.1, hbSame.2.1, hsame.2.1]
    · rw [haSame.2.2, hbSame.2.2, hsame.2.2]
  numbered := by
    intro j other cell' m hother hotherLive hcell' hmode
    rcases Pool.getElem?_set_cases hother with ⟨rfl, rfl⟩ | ⟨-, hother⟩ <;>
      rcases update_cases hcell' with ⟨hkey, heq⟩ | ⟨hkey, hcell'⟩
    · cases heq
      rw [hturn.numbers, hturn.runID]
      exact h.numbered j worker cell m hworker hlive hcell (hturn.claimant.symm.trans hmode)
    · exact absurd hturn.key hkey
    · cases heq
      rw [hturn.numbers]
      exact h.numbered j other cell m hother hotherLive (hkey ▸ hcell) hmode
    · exact h.numbered j other cell' m hother hotherLive hcell' hmode
  invited := by
    intro j other hother hotherLive hguest
    rcases Pool.getElem?_set_cases hother with ⟨rfl, rfl⟩ | ⟨-, hother⟩
    · have hwas : worker.claimant = .guest := hturn.claimant.symm.trans hguest
      rw [hturn.runID]
      exact ⟨(h.invited j worker hworker hlive hwas).1, hturn.guest hotherLive hwas⟩
    · exact h.invited j other hother hotherLive hguest
  counted := fun _ _ m hcell' ↦ hturn.counted h hworker hlive hcell m hcell'
  served := fun _ _ m hcell' hon ↦ hturn.served h hworker hcell m hcell' hon
  resigned := by
    intro j other cell' m hother hotherLive hinactive hcell' hmode hcurrent
    rcases Pool.getElem?_set_cases hother with ⟨rfl, rfl⟩ | ⟨-, hother⟩ <;>
      rcases update_cases hcell' with ⟨hkey, heq⟩ | ⟨hkey, hcell'⟩
    · cases heq
      have hwas : worker.claimant = .mode m := hturn.claimant.symm.trans hmode
      have hbefore : (cell.track m).Current worker.runID :=
        ⟨(hturn.tokens m hcurrent.1).1,
          (hturn.numbers m).symm.trans (hcurrent.2.trans hturn.runID)⟩
      have hstays := (hturn.current m hwas hbefore).mp hcurrent.1
      rw [hinactive] at hstays
      cases hstays
    · exact hkey hturn.key
    · cases heq
      exact h.resigned j other cell m hother hotherLive hinactive (hkey ▸ hcell) hmode
        ⟨(hturn.tokens m hcurrent.1).1, (hturn.numbers m).symm.trans hcurrent.2⟩
    · exact h.resigned j other cell' m hother hotherLive hinactive hcell' hmode hcurrent
  stale := fun _ _ _ _ hother hactive hcell' hmode ↦
    hturn.cancelled h hworker hlive hcell hother hactive hcell' hmode
  owned := fun _ _ _ _ hcell' howner ↦ hturn.owned h hworker hcell hcell' howner
  holding := fun _ _ _ hother hholds hcell' ↦
    hturn.holding h hworker hlive hcell hother hholds hcell'
  exclusive := by
    intro key cell' m other hcell' hne hbusy
    rcases update_cases hcell' with ⟨rfl, heq⟩ | ⟨-, hcell'⟩
    · cases heq
      exact h.exclusive _ cell m other hcell hne ⟨hturn.busy hbusy.1, hturn.busy hbusy.2⟩
    · exact h.exclusive key cell' m other hcell' hne hbusy
  slots := by
    have hcount := Pool.countP_set_add (·.slot) next hworker
    have hbefore := h.slots
    show slots = (L.workers.set i next).countP (·.slot)
    omega
  processes := by
    have hcount := Pool.countP_set_add (·.process) next hworker
    have hbefore := h.processes
    show processes = (L.workers.set i next).countP (·.process)
    omega

end Turns

end CodexQueueBot.Lib
