import CodexQueueBot.Jobs.Activity
import CodexQueueBot.Jobs.Totality
import CodexQueueBot.Jobs.Waits

/-!
# Freedom from deadlock

Queue and ad-hoc requests take the target first and then a slot; keepalive requests take the slot
first, but give it back before they wait for the target. So whoever has a slot never waits, whoever
owns a target waits at most for a slot, and a wait that is not over leads to a goroutine further up
in this order: from a target to its owner, from the slots to one of their users. At its end some
goroutine can move.
-/

set_option autoImplicit false
set_option relaxedAutoImplicit false

namespace CodexQueueBot.Jobs

open Lib

/-- A worker or a `RunAdhoc` call that has steps left. -/
def Proc.Unfinished : Proc → Prop
  | .queue w => w.pc ≠ .exited
  | .keepalive w => w.pc ≠ .exited
  | .adhoc call => ∀ result, call.pc ≠ .returned result
  | .start _ | .edit _ | .wait _ => False

/-- The channel on which a goroutine waits for a target or a slot. -/
def Proc.blockedOn : Proc → Option Nat
  | .queue ⟨_, _, _, .awaitTarget changed⟩ | .queue ⟨_, _, _, .awaitSlot changed⟩ => some changed
  | .keepalive ⟨_, _, _, .awaitTarget changed⟩ => some changed
  | .keepalive ⟨_, _, _, .awaitSlot changed⟩ => some changed
  | .adhoc ⟨_, _, _, _, _, .awaitSlot changed⟩ => some changed
  | _ => none

/-- Whoever waits does so for a slot or for a target. -/
theorem Proc.blockedOn_cases {proc : Proc} {channel : Nat} (h : proc.blockedOn = some channel) :
    proc.slotWait = some channel ∨ ∃ key, proc.targetWait = some (key, channel) := by
  unfold blockedOn at h
  split at h <;> cases h
  · exact Or.inr ⟨_, rfl⟩
  · exact Or.inl rfl
  · exact Or.inr ⟨_, rfl⟩
  · exact Or.inl rfl
  · exact Or.inl rfl

/-- Whoever waits has steps left. -/
theorem Proc.unfinished_of_blockedOn {proc : Proc} {channel : Nat}
    (h : proc.blockedOn = some channel) : proc.Unfinished := by
  unfold blockedOn at h
  split at h <;> cases h <;> simp [Unfinished]

/-- Whoever has a slot does not wait. -/
theorem Proc.blockedOn_of_slot {proc : Proc} (h : proc.view.slot = true) :
    proc.blockedOn = none := by
  unfold blockedOn
  split <;> first | rfl | cases h

/-- Whoever holds a target waits at most for a slot. -/
theorem Proc.slotWait_of_holds {proc : Proc} (hholds : proc.view.holds = true) {channel : Nat}
    (h : proc.blockedOn = some channel) : proc.slotWait = some channel := by
  unfold blockedOn at h
  split at h <;> cases h <;> first | rfl | cases hholds

/-- A live goroutine has steps left. -/
theorem Proc.unfinished_of_live {proc : Proc} (h : proc.view.live = true) : proc.Unfinished := by
  cases proc with
  | queue w =>
    obtain ⟨key, runID, context, pc⟩ := w
    rintro rfl
    cases h
  | keepalive w =>
    obtain ⟨key, runID, context, pc⟩ := w
    rintro rfl
    cases h
  | adhoc call =>
    obtain ⟨key, runID, context, target, started, pc⟩ := call
    rintro result rfl
    cases h
  | start call | edit call | wait call => cases h

namespace System

variable [Go.NetURL] {s s' : System} {label : Label}

/-- A goroutine can move. -/
def Enabled (s : System) (i : Nat) : Prop :=
  ∃ (input : Input) (s' : System), s.step (.advance i input) = some s'

/-- The key of a live goroutine has a target. -/
theorem key_mem_of_live (h : s.Reachable) {i : Nat} {proc : Proc}
    (hproc : s.procs[i]? = some proc) (hlive : proc.view.live = true) :
    proc.view.key ∈ s.manager.targets := by
  obtain ⟨cell, hcell⟩ := h.valid.present i _ (view_getElem? hproc) hlive
  obtain ⟨job, _, _, hjob, -⟩ := Manager.cell_eq_some.mp hcell
  exact (h.tabled.jobs _).mp (Table.mem_of_lookup hjob)

/-- A goroutine with steps left can move, unless it waits on an open channel. -/
theorem enabled_of_closed (h : s.Reachable) {i : Nat} {proc : Proc}
    (hproc : s.procs[i]? = some proc) (hunfinished : proc.Unfinished)
    (hclosed : ∀ channel, proc.blockedOn = some channel →
      s.manager.channelClosed channel = true) : s.Enabled i := by
  have hkey := key_mem_of_live h hproc
  have hmoves : ∃ input effect,
      proc.step s.manager s.procs.length i input = some effect := by
    cases proc with
    | queue w =>
      obtain ⟨key, runID, context, pc⟩ := w
      refine QueueWorker.enabled h.tabled hkey hunfinished ?_ ?_
      · rintro channel rfl
        exact hclosed channel rfl
      · rintro channel rfl
        exact hclosed channel rfl
    | keepalive w =>
      obtain ⟨key, runID, context, pc⟩ := w
      refine KeepaliveWorker.enabled h.tabled hkey hunfinished ?_ ?_
      · rintro channel rfl
        exact hclosed channel rfl
      · rintro channel rfl
        exact hclosed channel rfl
    | adhoc call =>
      obtain ⟨key, runID, context, target, started, pc⟩ := call
      refine AdhocCall.enabled h.tabled hunfinished ?_
      rintro channel rfl
      exact hclosed channel rfl
    | start call | edit call | wait call => exact hunfinished.elim
  obtain ⟨input, effect, heffect⟩ := hmoves
  refine ⟨input, s.apply i effect, ?_⟩
  simp only [System.step, hproc, heffect, Option.bind_eq_bind, Option.bind_some, Option.pure_def]

/-- Some worker or `RunAdhoc` call can move. -/
def Moving (s : System) : Prop :=
  ∃ (i : Nat) (proc : Proc), s.procs[i]? = some proc ∧ proc.Unfinished ∧ s.Enabled i

/-- Whoever has a slot can move. -/
theorem enabled_of_slot (h : s.Reachable) {i : Nat} {proc : Proc}
    (hproc : s.procs[i]? = some proc) (hslot : proc.view.slot = true) :
    proc.Unfinished ∧ s.Enabled i := by
  have hlive := h.valid.alive i _ (view_getElem? hproc) (Or.inr (Or.inr hslot))
  have hunfinished := Proc.unfinished_of_live hlive
  refine ⟨hunfinished, enabled_of_closed h hproc hunfinished ?_⟩
  intro channel hblocked
  rw [Proc.blockedOn_of_slot hslot] at hblocked
  cases hblocked

/-- While a goroutine waits for a slot on an open channel, a user of a slot can move. -/
theorem moving_of_slotWait (h : s.Reachable) (hlimit : 0 < s.manager.maxParallel) {i : Nat}
    {proc : Proc} (hproc : s.procs[i]? = some proc) {channel : Nat}
    (hwait : proc.slotWait = some channel)
    (hopen : s.manager.channelClosed channel ≠ true) : s.Moving := by
  have hawaits := (h.attentive.hears i proc hproc).slot channel hwait
  have hfull : s.manager.maxParallel ≤ s.manager.slotsInUse := by
    by_contra hfree
    exact hopen (List.contains_iff_mem.mpr (hawaits.closed hfree))
  have hpos : 0 < s.procs.countP (·.view.slot) := by
    have hslots : s.manager.slotsInUse = s.procs.countP (·.view.slot) :=
      h.valid.slots.trans List.countP_map
    omega
  obtain ⟨j, other, hother, hslot⟩ := Pool.exists_getElem?_of_countP_pos hpos
  obtain ⟨hunfinished, henabled⟩ := enabled_of_slot h hother hslot
  exact ⟨j, other, hother, hunfinished, henabled⟩

/-- Whoever holds a target can move, or somebody else can. -/
theorem moving_of_holds (h : s.Reachable) (hlimit : 0 < s.manager.maxParallel) {i : Nat}
    {proc : Proc} (hproc : s.procs[i]? = some proc) (hholds : proc.view.holds = true) :
    s.Moving := by
  have hlive := h.valid.alive i _ (view_getElem? hproc) (Or.inr (Or.inl hholds))
  have hunfinished := Proc.unfinished_of_live hlive
  by_cases hclosed : ∀ channel, proc.blockedOn = some channel →
      s.manager.channelClosed channel = true
  · exact ⟨i, proc, hproc, hunfinished, enabled_of_closed h hproc hunfinished hclosed⟩
  · push Not at hclosed
    obtain ⟨channel, hblocked, hopen⟩ := hclosed
    exact moving_of_slotWait h hlimit hproc (Proc.slotWait_of_holds hholds hblocked) hopen

/-- While a goroutine waits for a target on an open channel, its owner or somebody else can move. -/
theorem moving_of_targetWait (h : s.Reachable) (hlimit : 0 < s.manager.maxParallel) {i : Nat}
    {proc : Proc} (hproc : s.procs[i]? = some proc) {key : String} {channel : Nat}
    (hwait : proc.targetWait = some (key, channel))
    (hopen : s.manager.channelClosed channel ≠ true) : s.Moving := by
  obtain ⟨hlive, rfl⟩ := Proc.live_of_targetWait hwait
  obtain ⟨cell, hcell⟩ := h.valid.present i _ (view_getElem? hproc) hlive
  obtain ⟨job, keepalive, arbiter, -, -, harbiter, rfl⟩ := Manager.cell_eq_some.mp hcell
  have hawaits := (h.attentive.hears i proc hproc).target _ channel arbiter hwait harbiter
  have howner : arbiter.owner ≠ .none := by
    by_contra hfree
    exact hopen (List.contains_iff_mem.mpr (hawaits.closed (not_not.mpr hfree)))
  obtain ⟨⟨claimant, runID⟩, hclaim⟩ :=
    Option.ne_none_iff_exists'.mp (mt TargetArbiter.claim_eq_none.mp howner)
  obtain ⟨j, worker, hworker, hholds, -⟩ := h.valid.owned _ _ claimant runID hcell hclaim
  obtain ⟨other, hother, rfl⟩ := exists_proc_of_view hworker
  exact moving_of_holds h hlimit hother hholds

/-- A step keeps the limit positive. -/
theorem step_limit (h : s.Reachable) (hlawful : s.Lawful label) (hstep : s.step label = some s')
    (hlimit : 0 < s.manager.maxParallel) : 0 < s'.manager.maxParallel := by
  rcases step_signals h.tabled hlawful hstep with hsignals | ⟨-, heq⟩ | hedited
  · exact hsignals.limit hlimit
  · rw [heq]
    exact hlimit
  · rw [hedited.limit]
    exact hlimit

omit [Go.NetURL] in
/-- The limit of a new system is the one in its settings. -/
theorem maxParallel_init (settings : Manager.Settings) (targets : List Target) :
    (init settings targets).manager.maxParallel = settings.maxParallel := by
  have hadd : ∀ (targets : List Target) (m : Manager),
      (targets.foldl Manager.addTarget m).maxParallel = m.maxParallel := by
    intro targets
    induction targets with
    | nil => exact fun _ ↦ rfl
    | cons target targets ih => exact fun m ↦ ih _
  exact hadd targets _

/-- Where the limit is positive at first it stays so. -/
theorem limit_pos {settings : Manager.Settings} {targets : List Target}
    (hlimit : 1 ≤ settings.maxParallel)
    (hnames : (targets.map fun target ↦ Manager.normalizeName target.name).Nodup)
    (hrun : Steps step Lawful (init settings targets) s) : 0 < s.manager.maxParallel := by
  have hboth : s.Reachable ∧ 0 < s.manager.maxParallel := by
    refine hrun.invariant (P := fun s ↦ s.Reachable ∧ 0 < s.manager.maxParallel) ?_ ?_
    · rintro s s' label ⟨hreach, hpos⟩ hlawful hstep
      exact ⟨hreach.step hlawful hstep, step_limit hreach hlawful hstep hpos⟩
    · refine ⟨⟨settings, targets, hnames, .refl⟩, ?_⟩
      rw [maxParallel_init]
      exact Int.lt_iff_add_one_le.mpr hlimit
  exact hboth.2

/-- Freedom from deadlock: with at least one slot, whenever a worker or an accepted `RunAdhoc` call
has steps left, one of them can move without any call of an operation. Whoever has a slot neither
waits for a target nor for another slot, and can move. -/
theorem deadlock_free {settings : Manager.Settings} {targets : List Target}
    (hlimit : 1 ≤ settings.maxParallel)
    (hnames : (targets.map fun target ↦ Manager.normalizeName target.name).Nodup)
    (hrun : Steps step Lawful (init settings targets) s) :
    ((∃ (i : Nat) (proc : Proc), s.procs[i]? = some proc ∧ proc.Unfinished) → s.Moving) ∧
    ∀ (i : Nat) (proc : Proc), s.procs[i]? = some proc → proc.view.slot = true →
      proc.blockedOn = none ∧ s.Enabled i := by
  have hreach : s.Reachable := ⟨settings, targets, hnames, hrun⟩
  have hpos := limit_pos hlimit hnames hrun
  refine ⟨?_, ?_⟩
  · rintro ⟨i, proc, hproc, hunfinished⟩
    by_cases hclosed : ∀ channel, proc.blockedOn = some channel →
        s.manager.channelClosed channel = true
    · exact ⟨i, proc, hproc, hunfinished, enabled_of_closed hreach hproc hunfinished hclosed⟩
    · push Not at hclosed
      obtain ⟨channel, hblocked, hopen⟩ := hclosed
      rcases Proc.blockedOn_cases hblocked with hslot | ⟨key, htarget⟩
      · exact moving_of_slotWait hreach hpos hproc hslot hopen
      · exact moving_of_targetWait hreach hpos hproc htarget hopen
  · intro i proc hproc hslot
    exact ⟨Proc.blockedOn_of_slot hslot, (enabled_of_slot hreach hproc hslot).2⟩

omit [Go.NetURL] in
/-- While a queue worker on `b` waits for the slot that the one on `a` uses, somebody can move. -/
theorem deadlock_free_slotTaken :
    ∃ (s : System) (proc : Proc), Steps (@step Go.NetURL.emptyOnly) Lawful sample s ∧
      s.procs[3]? = some proc ∧ proc.blockedOn = some s.manager.parallelChanged ∧
      @Moving Go.NetURL.emptyOnly s := by
  let _ := Go.NetURL.emptyOnly
  obtain ⟨s, hrun, htest⟩ := @Steps.exists_of_runLabels _ _ step Lawful calm lawful_of_calm
    slotTaken sample (fun s ↦ s.procs[3]?.any (·.blockedOn = some s.manager.parallelChanged))
    (by decide +kernel)
  obtain ⟨proc, hproc, hblocked⟩ := (Option.any_eq_true _ _).mp htest
  have hblocked : proc.blockedOn = some s.manager.parallelChanged := by simpa using hblocked
  exact ⟨s, proc, hrun, hproc, hblocked, (deadlock_free (by decide) (by decide) hrun).1
    ⟨3, proc, hproc, Proc.unfinished_of_blockedOn hblocked⟩⟩

end System

end CodexQueueBot.Jobs
