import CodexQueueBot.Jobs.Refinement

/-!
# The system refines the ledger

The remaining steps of the system as acts on the ledger: `RunAdhoc`, the stop operations, the start
of a run, the edits of targets and the cancellation of contexts. `System.step_acts` collects them:
every lawful step is a sequence of acts. Since acts preserve the invariant of ledgers, it holds in
every reachable state (`System.Reachable.valid`); the modules on exclusion, accounting and activity
read their results off it.

A run may be started on a target that an ad-hoc request owns: the sections of `startQueue` and
`startKeepalive` which start a run do not look at the arbiter. A step is `Courteous` if it does not
do that, and courteous steps are courteous acts.
-/

set_option autoImplicit false
set_option relaxedAutoImplicit false

namespace CodexQueueBot.Jobs

open Lib Relation

/-! ### Ad-hoc requests -/

namespace Manager

variable {courteous : Bool} {m m' : Manager} {workers : List (Worker String Mode)} {i : Nat}
  {w : Worker String Mode} {cell : Cell Mode} {key : String} {now : Time}

/-- A process is given back where one is counted. -/
theorem giveBackProcess_of_pos (hpos : 0 < m.currentProcesses) :
    m.giveBackProcess true = { m with currentProcesses := m.currentProcesses - 1 } :=
  if_pos ⟨rfl, hpos⟩

/-- No process is given back where none was started. -/
theorem giveBackProcess_false : m.giveBackProcess false = m :=
  if_neg fun h ↦ Bool.false_ne_true h.1

/-- A slot is given back where one is counted. -/
theorem giveBackSlot_of_pos (hpos : 0 < m.slotsInUse) :
    m.giveBackSlot true = { m with slotsInUse := m.slotsInUse - 1 }.signalParallelLocked :=
  if_pos ⟨rfl, hpos⟩

/-- No slot is given back where none was acquired. -/
theorem giveBackSlot_false : m.giveBackSlot false = m :=
  if_neg fun h ↦ Bool.false_ne_true h.1

/-- Giving back the slot and the process of an ad-hoc request. -/
theorem acts_giveBack (hi : i < workers.length) (hvalid : (m.stage workers i w).Valid) :
    ReflTransGen (Act courteous) (m.stage workers i w)
      (((m.giveBackProcess w.process).giveBackSlot w.slot).stage workers i
        { w with slot := false, process := false }) := by
  have hworker : (m.stage workers i w).workers[i]? = some w := stage_worker hi
  cases hprocess : w.process with
  | true =>
    have hslot := (hvalid.equipped i w hworker hprocess).1
    have hprocesses : 0 < m.currentProcesses := hvalid.processes_pos hworker hprocess
    have hslots : 0 < m.slotsInUse := hvalid.slots_pos hworker hslot
    rw [hslot, giveBackProcess_of_pos hprocesses,
      giveBackSlot_of_pos (m := { m with currentProcesses := m.currentProcesses - 1 }) hslots]
    exact .single (act_finish hi hprocess)
  | false =>
    cases hslot : w.slot with
    | true =>
      have hslots : 0 < m.slotsInUse := hvalid.slots_pos hworker hslot
      rw [giveBackProcess_false, giveBackSlot_of_pos hslots]
      have hyield : Act courteous _ _ := act_yield (m := m) hi hslot hprocess
      rw [hprocess] at hyield
      exact .single hyield
    | false =>
      have heq : { w with slot := false, process := false } = w := by
        cases w
        simp only at hslot hprocess
        simp [hslot, hprocess]
      rw [giveBackProcess_false, giveBackSlot_false, heq]

/-- The end of an ad-hoc request. -/
theorem act_dismiss (hi : i < workers.length) (hcell : m.cell w.key = some cell)
    (hguest : w.claimant = .guest) (hholds : w.holds = true) (hactive : w.active = false)
    (hslot : w.slot = false) (hprocess : w.process = false) (arbiter : TargetArbiter) :
    Act courteous (m.stage workers i w)
      ((m.freed w.key arbiter).stage workers i { w with live := false, holds := false }) := by
  rw [stage_set (m := m.freed w.key arbiter) (w := w), stage_freed hcell]
  exact Act.dismiss (stage_worker hi) hcell hguest hholds hactive hslot hprocess

/-- `finishAdhocRequest` with the cancellation before it. -/
theorem acts_finishAdhocRequest [Go.NetURL] (hi : i < workers.length)
    (hvalid : (m.stage workers i w).Valid) (hguest : w.claimant = .guest)
    (hholds : w.holds = true) (hactive : w.active = false) {cancel : Option Nat}
    (hfinish : (m.callCancel cancel).finishAdhocRequest w.key w.runID w.slot w.process =
      some m') :
    ReflTransGen (Act courteous) (m.stage workers i w) (m'.stage workers i
      { w with live := false, holds := false, slot := false, process := false }) := by
  have hlive : w.live = true := hvalid.alive i w (stage_worker hi) (Or.inr (Or.inl hholds))
  have hcancel : Act courteous (m.stage workers i w) ((m.callCancel cancel).stage workers i w) :=
    act_callCancel cancel
  have hback : ReflTransGen (Act courteous) (m.stage workers i w) (stage _ workers i _) :=
    (ReflTransGen.single hcancel).trans (acts_giveBack hi (hcancel.valid hvalid))
  have hvalid' := Act.valid_of_reflTransGen hback hvalid
  obtain ⟨cell, hcell⟩ := cell_of_stage hi hvalid' hlive
  have hclaim := (hvalid'.owner_iff_holds (stage_worker hi) hlive hcell).mpr hholds
  rcases finishAdhocRequest_cases hfinish with ⟨arbiter, -, -, hshown⟩ | ⟨hother, -⟩
  · rw [hshown.stage]
    exact hback.tail (act_dismiss hi hcell hguest hholds hactive rfl rfl arbiter)
  · obtain ⟨_, _, arbiter, -, -, harbiter, rfl⟩ := cell_eq_some.mp hcell
    rw [giveBackSlot_arbiters, giveBackProcess_arbiters] at harbiter
    have howned := TargetArbiter.claim_eq_some.mp hclaim
    rw [hguest] at howned
    exact absurd howned (hother arbiter harbiter)

end Manager

section

variable [Go.NetURL] {courteous : Bool} {m : Manager} {workers : List (Worker String Mode)}
  {i self : Nat} {input : Input} {effect : Effect}

open Manager

/-- Every step of a `RunAdhoc` call is a sequence of acts. -/
theorem AdhocCall.step_acts {call : AdhocCall} (hi : i < workers.length)
    (hvalid : (m.stage workers i call.view).Valid) (hstep : call.step m self input = some effect) :
    effect.spawned = [] ∧ ReflTransGen (Act courteous) (m.stage workers i call.view)
      (effect.manager.stage workers i effect.proc.view) := by
  obtain ⟨key, runID, context, target, started, pc⟩ := call
  unfold AdhocCall.step at hstep
  cases pc <;> simp only [Option.bind_eq_bind, Option.bind_eq_some_iff, Prod.exists] at hstep
  case acquire =>
    rcases hacquire : m.acquire with ⟨m₁, _ | changed⟩ <;> simp only [hacquire] at hstep <;>
      cases hstep
    · rcases acquire_cases hacquire with ⟨-, -, rfl⟩ | ⟨-, hcontra, -⟩
      · exact ⟨rfl, .single (act_enter hi rfl rfl)⟩
      · cases hcontra
    · rcases acquire_cases hacquire with ⟨-, hcontra, -⟩ | ⟨-, -, rfl⟩
      · cases hcontra
      · exact ⟨rfl, .refl⟩
  case awaitSlot =>
    obtain ⟨woken, -, hstep⟩ := hstep
    cases hstep
    cases woken <;> exact ⟨rfl, .refl⟩
  case checkContext =>
    cases hstep
    refine ⟨rfl, ?_⟩
    dsimp only
    split_ifs <;> exact .refl
  case confirm =>
    obtain ⟨m₁, confirmed, hsection, hstep⟩ := hstep
    rcases confirmAdhoc_cases hsection with ⟨rfl, arbiter, -, -, hshown⟩ | ⟨rfl, rfl, -⟩ <;>
      cases hstep <;> refine ⟨rfl, ?_⟩
    · rw [hshown.stage]
      exact .single (act_launch hi rfl rfl rfl)
    · exact .refl
  case running | workerDone =>
    cases hstep
    exact ⟨rfl, .refl⟩
  case finishRequest slotAcquired processStarted result =>
    obtain ⟨m₁, hsection, hstep⟩ := hstep
    cases hstep
    refine ⟨rfl, ?_⟩
    exact acts_finishAdhocRequest hi hvalid rfl rfl rfl hsection
  case returned => cases hstep

end

/-! ### Stop operations -/

namespace Manager

variable {courteous : Bool} {m m' : Manager} {workers : List (Worker String Mode)}
  {cell : Cell Mode} {key : String} {now : Time}

/-- The track of a stopped job. -/
theorem track_stopJob (job : Job) (now : Time) :
    (stopJob job now).track = ⟨false, job.runID + 1, job.workers, none⟩ := by
  unfold stopJob
  split_ifs with hrunning
  · rfl
  · simp [Job.track, hrunning]

/-- The track of a stopped keepalive job. -/
theorem track_stopKeepaliveJob (keepalive : KeepaliveJob) (now : Time) :
    (stopKeepaliveJob keepalive now).track =
      ⟨false, keepalive.runID + 1, keepalive.workers, none⟩ := by
  unfold stopKeepaliveJob
  split_ifs with hon
  · rfl
  · simp [KeepaliveJob.track, hon]

/-- Stop operations are cancellations and halts. -/
theorem Stops.acts (h : Stops now m m') (htabled : m.Tabled) :
    ReflTransGen (Act courteous) (m.ledger workers) (m'.ledger workers) := by
  induction h with
  | refl => exact .refl
  | @queue m₁ m₂ key hstops hstop ih =>
    refine ih.trans ?_
    rcases stopQueueLocked_cases hstop with ⟨job, arbiter, hjob, harbiter, -, rfl⟩ | ⟨-, rfl⟩
    · obtain ⟨cell, hcell⟩ := (htabled.of_domain hstops.domain).cell_of_job hjob
      have hqueue := track_queue_of_cell hcell hjob
      rw [ledger_callCancel, ledger_resignalled_self (m := m₁.setJob key _) harbiter,
        ledger_setJob hcell, track_stopJob]
      refine (ReflTransGen.single (Act.cancel { context | context ∈ job.cancel.toList })).tail ?_
      have hact := @Act.halt _ _ _ _ courteous ((m₁.ledger workers).cancel
        { context | context ∈ job.cancel.toList }) key cell .queue hcell
      rw [hqueue] at hact
      refine hact ?_
      intro token htoken
      exact Or.inr (Option.mem_toList.mpr htoken)
    · exact .refl
  | @keepalive m₁ m₂ key hstops hstop ih =>
    refine ih.trans ?_
    rcases stopKeepaliveLocked_cases hstop with
      ⟨keepalive, arbiter, hkeepalive, harbiter, -, rfl⟩ | ⟨-, rfl⟩
    · obtain ⟨cell, hcell⟩ := (htabled.of_domain hstops.domain).cell_of_keepalive hkeepalive
      have hkeep := track_keepalive_of_cell hcell hkeepalive
      rw [ledger_callCancel, ledger_resignalled_self (m := m₁.setKeepalive key _) harbiter,
        ledger_setKeepalive hcell, track_stopKeepaliveJob]
      refine (ReflTransGen.single
        (Act.cancel { context | context ∈ keepalive.cancel.toList })).tail ?_
      have hact := @Act.halt _ _ _ _ courteous ((m₁.ledger workers).cancel
        { context | context ∈ keepalive.cancel.toList }) key cell .keepalive hcell
      rw [hkeep] at hact
      refine hact ?_
      intro token htoken
      exact Or.inr (Option.mem_toList.mpr htoken)
    · exact .refl
  | @adhoc m₁ key hstops ih =>
    refine ih.trans ?_
    rcases stopAdhocLocked_cases m₁ key with ⟨arbiter, harbiter, -, heq⟩ | ⟨-, heq⟩
    · obtain ⟨cell, hcell⟩ := (htabled.of_domain hstops.domain).cell_of_arbiter harbiter
      have howner := owner_of_cell hcell harbiter
      have hsame : (m₁.setArbiter key { arbiter with cancel := none }).ledger workers =
          m₁.ledger workers := by
        rw [ledger_setArbiter hcell]
        have hcell' : { cell with owner := TargetArbiter.claim { arbiter with cancel := none } } =
            cell := by
          rw [show TargetArbiter.claim { arbiter with cancel := none } = cell.owner from
            howner.symm]
        rw [hcell', setCell_self hcell]
      rw [heq, ledger_callCancel, hsame]
      exact .single (Act.cancel _)
    · rw [heq]

/-! ### The start of a run -/

/-- The section of a start call would start a run of a mode on a target. -/
def Startable (m : Manager) (mode : Mode) (key : String) : Prop :=
  m.shuttingDown = false ∧ key ∈ m.targets ∧ ∃ job keepalive, m.jobs.lookup key = some job ∧
    m.keepalives.lookup key = some keepalive ∧ job.state ≠ .running ∧
    keepalive.state = .stopped ∧
    match mode with
    | .queue => keepalive.workers = 0
    | .keepalive => job.workers = 0

/-- The target is not owned by an ad-hoc request. -/
def NotAdhoc (m : Manager) (key : String) : Prop :=
  ∀ arbiter, m.arbiters.lookup key = some arbiter → arbiter.owner ≠ .adhoc

/-- A target that is not owned by an ad-hoc request is not owned by a guest. -/
theorem NotAdhoc.owner (h : m.NotAdhoc key) (hcell : m.cell key = some cell) (runID : Nat) :
    cell.owner ≠ some (.guest, runID) := by
  obtain ⟨_, _, arbiter, -, -, harbiter, rfl⟩ := cell_eq_some.mp hcell
  intro hclaim
  exact h arbiter harbiter (TargetArbiter.claim_eq_some.mp hclaim).1

/-- A registration does not show in the track. -/
theorem track_addSubscriberLocked (job : Job) (subscriber : Subscriber) :
    (addSubscriberLocked job subscriber).track = job.track := by
  rw [addSubscriberLocked_eq]
  rfl

section

variable [Go.NetURL]

/-- What the sections of `Start` and `StartKeepalive` that answer for a key do in the ledger: they
start a run, or nothing shows. -/
def Answers (courteous : Bool) (m m' : Manager) (workers : List (Worker String Mode))
    (kind : StartKind) (key : String) (outcome : StartOutcome) : Prop :=
  match outcome with
  | .started _ runID context => Act courteous (m.ledger workers)
      (m'.ledger (workers ++ [(kind.worker key runID context).view]))
  | _ => m'.ledger workers = m.ledger workers

omit [Go.NetURL] in
/-- The section of a start call after a failed `prepareMode` in the ledger. -/
theorem answers_reject (htabled : m.Tabled) {kind : StartKind} {outcome : StartOutcome}
    (h : kind.reject m key = some (m', outcome)) :
    Answers courteous m m' workers kind key outcome := by
  cases kind with
  | queue subscriber =>
    rcases rejectQueue_cases h with ⟨rfl, name, rfl⟩ | ⟨target, job, -, hjob, -, -, rfl, rfl⟩
    · rfl
    · obtain ⟨cell, hcell⟩ := htabled.cell_of_job hjob
      exact ledger_setJob_self hcell hjob (track_addSubscriberLocked job subscriber)
  | keepalive =>
    cases h
    rfl

/-- The section of a start call after a successful `prepareMode` in the ledger. -/
theorem answers_commit (htabled : m.Tabled) {kind : StartKind} {outcome : StartOutcome}
    (hcourteous : courteous = true → m.Startable kind.mode key → m.NotAdhoc key)
    (h : kind.commit m key now = some (m', outcome)) :
    Answers courteous m m' workers kind key outcome := by
  cases kind with
  | queue subscriber =>
    rcases commitQueue_cases h with ⟨rfl, rfl | ⟨name, rfl⟩⟩ |
      ⟨target, job, -, hjob, -, rfl, rfl⟩ |
      ⟨target, job, keepalive, arbiter, hdown, htarget, hjob, hkeepalive, harbiter, hidle,
        hstopped, hworkers, rfl, hshown⟩
    · rfl
    · rfl
    · obtain ⟨cell, hcell⟩ := htabled.cell_of_job hjob
      exact ledger_setJob_self hcell hjob (track_addSubscriberLocked job subscriber)
    · have hcell := cell_of hjob hkeepalive harbiter
      show Act courteous _ _
      rw [hshown.ledger]
      show Act courteous _ (((m.setJob key _).resignalled key arbiter).ledger _)
      rw [ledger_resignalled_self (m := m.setJob key _) harbiter, ledger_setJob hcell]
      refine Act.start hcell (by simpa [cellOf, Job.track] using hidle) ?_ ?_
      · rintro (_ | _) hother
        · exact absurd rfl hother
        · show ¬ keepalive.track.Busy
          simp [KeepaliveJob.track_busy, hstopped, hworkers]
      · intro hcourteous' runID
        exact (hcourteous hcourteous' ⟨hdown, Table.mem_of_lookup htarget, job, keepalive, hjob,
          hkeepalive, hidle, hstopped, hworkers⟩).owner hcell runID
  | keepalive =>
    rcases commitKeepalive_cases h with ⟨rfl, rfl | ⟨name, rfl⟩⟩ |
      ⟨target, job, keepalive, arbiter, hdown, htarget, hjob, hkeepalive, harbiter, hstopped,
        hidle, hworkers, rfl, hshown⟩
    · rfl
    · rfl
    · have hcell := cell_of hjob hkeepalive harbiter
      show Act courteous _ _
      rw [hshown.ledger]
      show Act courteous _ (((m.setKeepalive key _).resignalled key arbiter).ledger _)
      rw [ledger_resignalled_self (m := m.setKeepalive key _) harbiter, ledger_setKeepalive hcell]
      refine Act.start hcell (by simpa [cellOf, KeepaliveJob.track] using hstopped) ?_ ?_
      · rintro (_ | _) hother
        · show ¬ job.track.Busy
          simp [Job.track_busy, hidle, hworkers]
        · exact absurd rfl hother
      · intro hcourteous' runID
        exact (hcourteous hcourteous' ⟨hdown, Table.mem_of_lookup htarget, job, keepalive, hjob,
          hkeepalive, hidle, hstopped, hworkers⟩).owner hcell runID

/-! ### Edits, reservations and settings -/

omit [Go.NetURL] in
/-- A ledger and a manager with the same resources and the same counts. -/
theorem ledger_eq_of_cell {entry : Option (Cell Mode)}
    (hcell : ∀ other, m'.cell other = if other = key then entry else m.cell other)
    (hslots : m'.slotsInUse = m.slotsInUse) (hprocesses : m'.currentProcesses = m.currentProcesses)
    (hguests : m'.nextAdhocRunID = m.nextAdhocRunID)
    (hcontexts : m'.contextDone = m.contextDone) :
    m'.ledger workers = (m.ledger workers).setCell key entry := by
  refine Ledger.ext (funext fun other ↦ ?_) rfl hslots hprocesses hguests ?_
  · show m'.cell other = Function.update m.cell key entry other
    rw [hcell, Function.update_apply]
  · show { context | m'.contextDone context = true } = { context | m.contextDone context = true }
    rw [hcontexts]

omit [Go.NetURL] in
/-- The records of a new target in the ledger. -/
theorem ledger_addRecords (target : Target) :
    ∃ cell : Cell Mode, cell.Idle ∧
      (m.addRecords key target).ledger workers = (m.ledger workers).setCell key (some cell) := by
  refine ⟨cellOf {} { scheduleChanged := m.nextChannel } { changed := m.nextChannel + 1 },
    idle_of_not_busy rfl, ledger_eq_of_cell ?_ rfl rfl rfl rfl⟩
  intro other
  simp only [Manager.cell, addRecords, Table.lookup_insert_apply]
  split_ifs <;> rfl

omit [Go.NetURL] in
/-- A target that is not busy has an idle resource. -/
theorem idle_of_targetBusyLocked (h : m.targetBusyLocked key = some false) :
    ∃ cell, m.cell key = some cell ∧ cell.Idle := by
  obtain ⟨job, keepalive, arbiter, hjob, hkeepalive, harbiter, hbusy⟩ := targetBusyLocked_cases h
  exact ⟨_, cell_of hjob hkeepalive harbiter, idle_of_not_busy hbusy.symm⟩

/-- `CreateTarget` opens a resource. -/
theorem acts_createTarget (htabled : m.Tabled) {target : Option Target} {persist : Persist}
    {result : Except Error Unit} (h : m.createTarget target persist = some (m', result)) :
    ReflTransGen (Act courteous) (m.ledger workers) (m'.ledger workers) := by
  rcases createTarget_cases h with ⟨rfl, -⟩ | ⟨saved, hfree, -, hshown⟩
  · exact .refl
  · have hvacant := htabled.cell_eq_none (AList.lookup_eq_none.mp hfree)
    obtain ⟨cell, hidle, hledger⟩ :=
      @ledger_addRecords m workers (normalizeName saved.name) saved
    rw [hshown.ledger]
    show ReflTransGen _ _ ((m.addTarget saved).ledger workers)
    rw [addTarget, hledger]
    exact .single (Act.openCell hvacant hidle)

omit [Go.NetURL] in
/-- The move of an idle target to a free key closes its resource and opens it again. -/
theorem acts_renameTarget {oldKey newKey : String}
    (hcell : m.cell oldKey = some cell) (hidle : cell.Idle) (hne : newKey ≠ oldKey)
    (hvacant : m.cell newKey = none) (h : m.renameTarget oldKey newKey = some m') :
    ReflTransGen (Act courteous) (m.ledger workers) (m'.ledger workers) := by
  obtain ⟨job, keepalive, arbiter, hjob, hkeepalive, harbiter, hm'⟩ := renameTarget_cases h
  obtain rfl := Option.some.inj (hcell.symm.trans (cell_of hjob hkeepalive harbiter))
  have hclose : Act courteous (m.ledger workers) ((m.ledger workers).setCell oldKey none) :=
    Act.closeCell hcell hidle
  have hopen : Act courteous ((m.ledger workers).setCell oldKey none)
      (((m.ledger workers).setCell oldKey none).setCell newKey
        (some (cellOf job keepalive arbiter))) := by
    refine Act.openCell ?_ hidle
    show Function.update m.cell oldKey none newKey = none
    rw [Function.update_of_ne hne, hvacant]
  have hledger : ((m.ledger workers).setCell oldKey none).setCell newKey
      (some (cellOf job keepalive arbiter)) = m'.ledger workers := by
    subst hm'
    refine Ledger.ext (funext fun other ↦ ?_) rfl rfl rfl rfl rfl
    show Function.update (Function.update m.cell oldKey none) newKey _ other = Manager.cell _ other
    simp only [Function.update_apply, Manager.cell, Table.lookup_insert_apply,
      Table.lookup_erase_apply]
    split_ifs <;> rfl
  rw [hledger] at hopen
  exact (ReflTransGen.single hclose).tail hopen

/-- The last section of `UpdateTarget` closes and opens a resource, or nothing shows. -/
theorem acts_updateTarget (htabled : m.Tabled) {id : Int} {target : Target} {persist : Persist}
    {result : Except Error Unit} (hid : m.Identifies id)
    (h : m.updateTarget id target persist = some (m', result)) :
    ReflTransGen (Act courteous) (m.ledger workers) (m'.ledger workers) := by
  rcases updateTarget_cases h with ⟨rfl, -⟩ |
    ⟨oldKey, saved, m₁, hkey, hbusy, hconflict, -, -, hmove, hshown⟩
  · exact .refl
  · have hfree := htabled.eq_or_free hid hkey hconflict
    generalize normalizeName saved.name = newKey at hconflict hmove hshown hfree
    obtain ⟨cell, hcell, hidle⟩ := idle_of_targetBusyLocked hbusy
    rw [hshown.ledger]
    show ReflTransGen _ _ (m₁.ledger workers)
    rcases hmove with ⟨rfl, rfl⟩ | ⟨hne, hrename⟩
    · exact .refl
    · exact acts_renameTarget hcell hidle hne
        (htabled.cell_eq_none (hfree.resolve_left hne)) hrename

/-- The last section of `DeleteTarget` closes a resource. -/
theorem acts_deleteTarget {id : Int} {persist : Persist} {result : Except Error Unit}
    (h : m.deleteTarget id persist = some (m', result)) :
    ReflTransGen (Act courteous) (m.ledger workers) (m'.ledger workers) := by
  rcases deleteTarget_cases h with ⟨rfl, -⟩ | ⟨key, -, hbusy, -, hshown⟩
  · exact .refl
  · obtain ⟨cell, hcell, hidle⟩ := idle_of_targetBusyLocked hbusy
    have hledger : m'.ledger workers = (m.ledger workers).setCell key none := by
      refine hshown.ledger.trans (ledger_eq_of_cell ?_ rfl rfl rfl rfl)
      intro other
      simp only [Manager.cell, Table.lookup_erase_apply]
      split_ifs <;> rfl
    rw [hledger]
    exact .single (Act.closeCell hcell hidle)

/-- The first section of `RunAdhoc` receives a guest, or nothing shows. -/
theorem acts_reserveAdhoc {id : Int} {reserved : Except Error Reservation}
    (h : m.reserveAdhoc id = some (m', reserved)) :
    (m' = m ∧ ∃ error, reserved = .error error) ∨
    (∃ reservation, reserved = .ok reservation ∧ ∀ started,
      Act courteous (m.ledger workers) (m'.ledger (workers ++
        [AdhocCall.view ⟨reservation.key, reservation.runID, reservation.context,
          reservation.target, started, .acquire⟩]))) := by
  rcases reserveAdhoc_cases h with hrefused |
    ⟨key, arbiter, -, -, -, hbusy, harbiter, rfl, hshown⟩
  · exact Or.inl hrefused
  · refine Or.inr ⟨_, rfl, fun started ↦ ?_⟩
    obtain ⟨cell, hcell, hidle⟩ := idle_of_targetBusyLocked hbusy
    rw [hshown.ledger]
    show Act courteous _ ((((m.setArbiter key _).ledger workers).addWorker _).setGuests
      (m.nextAdhocRunID + 1))
    rw [ledger_setArbiter hcell]
    exact Act.receive hcell hidle

omit [Go.NetURL] in
/-- Rescheduling keepalive jobs does not show. -/
theorem Reschedules.ledger {draw : String → Nat} (h : Reschedules now draw m m')
    (htabled : m.Tabled) : m'.ledger workers = m.ledger workers := by
  induction h with
  | refl => rfl
  | @round m₁ m₂ key hrounds hround ih =>
    rw [← ih]
    rcases rescheduleKeepalive_cases hround with ⟨keepalive, _, hkeepalive, -, rfl⟩ | rfl
    · obtain ⟨cell, hcell⟩ := (htabled.of_domain hrounds.domain).cell_of_keepalive hkeepalive
      exact ledger_setKeepalive_self hcell hkeepalive rfl
    · rfl

/-- `UpdateSettings` does not show. -/
theorem ledger_updateSettings (htabled : m.Tabled) {keepaliveMin keepaliveMax : Duration}
    {maxParallel : Int} {successMessage : String} {draw : String → Nat}
    (h : m.updateSettings keepaliveMin keepaliveMax maxParallel successMessage now draw =
      some m') : m'.ledger workers = m.ledger workers := by
  obtain ⟨m₁, m₂, hloop, hlimit, hshown⟩ := updateSettings_cases h
  have hfirst : m₁.ledger workers = m.ledger workers := hloop.ledger (htabled.of_domain rfl)
  rw [hshown.ledger]
  rcases hlimit with ⟨rfl, -⟩ | ⟨-, rfl⟩
  · exact hfirst
  · exact hfirst

omit [Go.NetURL] in
/-- `BeginShutdown` cancels contexts. -/
theorem acts_beginShutdown :
    ReflTransGen (Act courteous) (m.ledger workers) (m.beginShutdown.ledger workers) := by
  unfold beginShutdown
  split_ifs
  · exact .refl
  · have hledger := @ledger_cancelled { m with shuttingDown := true } workers m.activeCancels
    exact .single (hledger ▸ Act.cancel _)

omit [Go.NetURL] in
/-- The end of the root context cancels every context. -/
theorem act_rootDone :
    Act courteous (m.ledger workers) ({ m with rootDone := true }.ledger workers) := by
  have hledger : { m with rootDone := true }.ledger workers =
      (m.ledger workers).cancel Set.univ := by
    refine Ledger.ext rfl rfl rfl rfl rfl (Set.ext fun context ↦ ?_)
    simp [Manager.ledger, Ledger.cancel, contextDone]
  rw [hledger]
  exact Act.cancel _

end

end Manager

/-! ### Steps of the system -/

namespace System

/-- A step does not start a run on a target that an ad-hoc request owns. -/
def Courteous (s : System) : Label → Prop
  | .advance self _ => ∀ call key rest, s.procs[self]? = some (.start call) →
      call.pc = .commit → call.remaining = key :: rest →
      s.manager.Startable call.kind.mode key → s.manager.NotAdhoc key
  | _ => True

variable [Go.NetURL] {courteous : Bool} {s s' : System} {label : Label}

open Manager

omit [Go.NetURL] in
/-- A goroutine among the workers of the ledger. -/
theorem view_getElem? {self : Nat} {proc : Proc} (hproc : s.procs[self]? = some proc) :
    (s.procs.map Proc.view)[self]? = some proc.view := by
  rw [List.getElem?_map, hproc]
  rfl

omit [Go.NetURL] in
/-- The stage of a goroutine is the ledger of the system. -/
theorem stage_eq_ledger {self : Nat} {proc : Proc} (hproc : s.procs[self]? = some proc) :
    s.manager.stage (s.procs.map Proc.view) self proc.view = s.ledger := by
  obtain ⟨hlt, hget⟩ := List.getElem?_eq_some_iff.mp (view_getElem? hproc)
  rw [stage, ← hget, List.set_getElem_self]
  rfl

omit [Go.NetURL] in
/-- The acts of a step that changes the manager and adds a call. -/
theorem acts_spawn {m : Manager} {proc : Proc} (hview : proc.view = bystander)
    (h : ReflTransGen (Act courteous) s.ledger (m.ledger (s.procs.map Proc.view))) :
    ReflTransGen (Act courteous) s.ledger (s.spawn m proc).ledger := by
  have hledger : (s.spawn m proc).ledger =
      (m.ledger (s.procs.map Proc.view)).addWorker bystander := by
    simp [System.ledger, spawn, Manager.ledger, Ledger.addWorker, hview]
  rw [hledger]
  exact h.tail (Act.join bystander_gone)

omit [Go.NetURL] in
/-- The acts of a step of a goroutine that creates no other. -/
theorem acts_apply {self : Nat} {proc : Proc} {effect : Effect}
    (hproc : s.procs[self]? = some proc) (hspawned : effect.spawned = [])
    (h : ReflTransGen (Act courteous)
      (s.manager.stage (s.procs.map Proc.view) self proc.view)
      (effect.manager.stage (s.procs.map Proc.view) self effect.proc.view)) :
    ReflTransGen (Act courteous) s.ledger (s.apply self effect).ledger := by
  have hafter : effect.manager.stage (s.procs.map Proc.view) self effect.proc.view =
      (s.apply self effect).ledger := by
    simp [stage, System.ledger, apply, hspawned, List.map_set]
  rwa [stage_eq_ledger hproc, hafter] at h

omit [Go.NetURL] in
/-- The acts of a step of a call that does not create a worker. -/
theorem acts_apply_bystander {self : Nat} {proc : Proc} {effect : Effect}
    (hproc : s.procs[self]? = some proc) (hspawned : effect.spawned = [])
    (hview : proc.view = bystander) (hview' : effect.proc.view = bystander)
    (h : ∀ workers, ReflTransGen (Act courteous) (s.manager.ledger workers)
      (effect.manager.ledger workers)) :
    ReflTransGen (Act courteous) s.ledger (s.apply self effect).ledger := by
  refine acts_apply hproc hspawned ?_
  rw [hview, hview']
  exact h _

omit [Go.NetURL] in
/-- The acts of a start call that answers for a key. -/
theorem acts_conclude {self : Nat} {call : StartCall} {m : Manager} {key : String}
    {rest : List String} {outcome : StartOutcome} (hproc : s.procs[self]? = some (.start call))
    (h : ∀ workers, Answers courteous s.manager m workers call.kind key outcome) :
    ReflTransGen (Act courteous) s.ledger
      (s.apply self (call.conclude m s.procs.length self key rest outcome)).ledger := by
  cases outcome with
  | refused name | joined name runID | retry =>
    refine acts_apply_bystander hproc rfl rfl rfl fun workers ↦ ?_
    have hsame : m.ledger workers = s.manager.ledger workers := h workers
    show ReflTransGen _ _ (m.ledger workers)
    rw [hsame]
  | started name runID context =>
    have hviews : (s.procs.map Proc.view).set self bystander = s.procs.map Proc.view :=
      congrArg Ledger.workers (stage_eq_ledger hproc)
    have hafter : (s.apply self (call.conclude m s.procs.length self key rest
        (.started name runID context))).ledger = m.ledger (s.procs.map Proc.view ++
          [(call.kind.worker key runID context).view]) := by
      simp only [System.ledger, apply, StartCall.conclude, List.map_append, List.map_set,
        List.map_cons, List.map_nil]
      show m.ledger ((s.procs.map Proc.view).set self bystander ++ _) = _
      rw [hviews]
    rw [hafter]
    exact .single (h _)

/-- Every step of a start call is a sequence of acts. -/
theorem startCall_step_acts {self : Nat} {call : StartCall} {input : Input} {effect : Effect}
    (htabled : s.manager.Tabled) (hproc : s.procs[self]? = some (.start call))
    (hcourteous : courteous = true → ∀ key rest, call.pc = .commit →
      call.remaining = key :: rest → s.manager.Startable call.kind.mode key →
      s.manager.NotAdhoc key)
    (hstep : call.step s.manager s.procs.length self input = some effect) :
    ReflTransGen (Act courteous) s.ledger (s.apply self effect).ledger := by
  cases StartCall.step_takes hstep with
  | prepared key m₁ outcome pc hsection =>
    obtain ⟨m₂, hstops, hshown⟩ := prepareMode_cases hsection
    exact acts_apply_bystander hproc rfl rfl rfl fun workers ↦ hshown.ledger ▸ hstops.acts htabled
  | waited pc => exact acts_apply_bystander hproc rfl rfl rfl fun _ ↦ .refl
  | rejected key rest m₁ outcome hpc hremaining hsection =>
    exact acts_conclude hproc fun _ ↦ answers_reject htabled hsection
  | committed key rest m₁ outcome hpc hremaining hsection =>
    exact acts_conclude hproc fun _ ↦ answers_commit htabled
      (fun hcourteous' ↦ hcourteous hcourteous' key rest hpc hremaining) hsection

/-- Every step of an edit is a sequence of acts. -/
theorem editCall_step_acts {self : Nat} {call : EditCall} {input : Input} {effect : Effect}
    (htabled : s.manager.Tabled) (hproc : s.procs[self]? = some (.edit call))
    (hlawful : s.Lawful (.advance self input)) (hstep : call.step s.manager input = some effect) :
    ReflTransGen (Act courteous) s.ledger (s.apply self effect).ledger := by
  cases EditCall.step_takes hstep with
  | waited => exact acts_apply_bystander hproc rfl rfl rfl fun _ ↦ .refl
  | updated id target m₁ result hsection =>
    exact acts_apply_bystander hproc rfl rfl rfl fun _ ↦
      acts_updateTarget htabled (hlawful id target hproc) hsection
  | deleted id m₁ result hsection =>
    exact acts_apply_bystander hproc rfl rfl rfl fun _ ↦ acts_deleteTarget hsection

/-- A call of `UpdateTarget` or `DeleteTarget` is a sequence of acts. -/
theorem editCall_acts {kind : EditKind} {id : Int} {now : Time} (htabled : s.manager.Tabled)
    (h : s.editCall kind id now = some s') :
    ReflTransGen (Act courteous) s.ledger s'.ledger := by
  obtain ⟨pc, found, hsection, hprocs, -⟩ := editCall_manager h
  obtain ⟨m₂, hstops, hshown⟩ := stopTarget_cases hsection
  have hspawn : s'.ledger = (s.spawn s'.manager (.edit { kind, pc })).ledger := by
    rw [System.ledger, hprocs]
    rfl
  rw [hspawn]
  exact acts_spawn rfl (hshown.ledger ▸ hstops.acts htabled)

/-- Every lawful step of the system is a sequence of acts on its ledger, and of courteous acts if it
is courteous. -/
theorem step_acts (htabled : s.manager.Tabled) (hvalid : s.ledger.Valid)
    (hlawful : s.Lawful label) (hcourteous : courteous = true → s.Courteous label)
    (hstep : s.step label = some s') :
    ReflTransGen (Act courteous) s.ledger s'.ledger := by
  cases label
  case start | startKeepalive | wait =>
    cases hstep
    exact acts_spawn rfl .refl
  case stop names now =>
    simp only [System.step, Option.map_eq_some_iff] at hstep
    obtain ⟨⟨m₁, result⟩, hsection, rfl⟩ := hstep
    obtain ⟨m₂, hstops, hshown, -⟩ := stop_cases hsection
    show ReflTransGen _ _ (m₁.ledger _)
    rw [hshown.ledger]
    exact hstops.acts htabled
  case runAdhoc id now =>
    simp only [System.step, Option.bind_eq_bind, Option.bind_eq_some_iff, Option.pure_def,
      Prod.exists] at hstep
    obtain ⟨m₁, reserved, hsection, hstep⟩ := hstep
    rcases @acts_reserveAdhoc courteous _ _ (s.procs.map Proc.view) _ _ _ hsection with
      ⟨rfl, error, rfl⟩ | ⟨reservation, rfl, hreceive⟩
    · cases hstep
      exact .refl
    · cases hstep
      refine .single ?_
      have hviews : (s.procs ++ [Proc.adhoc ⟨reservation.key, reservation.runID,
          reservation.context,
          reservation.target, now, .acquire⟩]).map Proc.view = s.procs.map Proc.view ++
          [AdhocCall.view ⟨reservation.key, reservation.runID, reservation.context,
            reservation.target, now, .acquire⟩] := List.map_append
      show Act courteous _ (m₁.ledger ((s.procs ++ [_]).map Proc.view))
      rw [hviews]
      exact hreceive now
  case createTarget target persist =>
    simp only [System.step, Option.map_eq_some_iff] at hstep
    obtain ⟨⟨m₁, result⟩, hsection, rfl⟩ := hstep
    exact acts_createTarget htabled hsection
  case updateTarget id target now =>
    cases target with
    | none =>
      cases hstep
      exact .refl
    | some target => exact editCall_acts htabled hstep
  case deleteTarget id now => exact editCall_acts htabled hstep
  case updateSettings =>
    simp only [System.step, Option.map_eq_some_iff] at hstep
    obtain ⟨m₁, hsection, rfl⟩ := hstep
    show ReflTransGen _ _ (m₁.ledger _)
    rw [ledger_updateSettings htabled hsection]
    exact .refl
  case observe buffer =>
    simp only [System.step, Option.map_eq_some_iff] at hstep
    obtain ⟨⟨m₁, snapshot, id⟩, hsection, rfl⟩ := hstep
    obtain ⟨_, rfl⟩ := observe_cases hsection
    exact .refl
  case setMessenger | closeSubscription | receive =>
    cases hstep
    exact .refl
  case beginShutdown =>
    cases hstep
    exact acts_beginShutdown
  case cancelRoot =>
    cases hstep
    exact .single act_rootDone
  case cancelAdhoc call =>
    simp only [System.step] at hstep
    split at hstep
    · rename_i adhoc _
      cases hstep
      show ReflTransGen _ _ ((s.manager.callCancel (some adhoc.context)).ledger _)
      rw [ledger_callCancel]
      exact .single (Act.cancel _)
    · cases hstep
  case advance self input =>
    obtain ⟨proc, effect, hproc, heffect, rfl⟩ := step_advance hstep
    have hi : self < (s.procs.map Proc.view).length :=
      (List.getElem?_eq_some_iff.mp (view_getElem? hproc)).1
    rw [← stage_eq_ledger hproc] at hvalid
    cases proc with
    | queue worker =>
      obtain ⟨hspawned, hacts⟩ := QueueWorker.step_acts hi hvalid heffect
      exact acts_apply hproc hspawned hacts
    | keepalive worker =>
      obtain ⟨hspawned, hacts⟩ := KeepaliveWorker.step_acts hi hvalid heffect
      exact acts_apply hproc hspawned hacts
    | adhoc call =>
      obtain ⟨hspawned, hacts⟩ := AdhocCall.step_acts hi hvalid heffect
      exact acts_apply hproc hspawned hacts
    | start call =>
      exact startCall_step_acts htabled hproc
        (fun hcourteous' key rest ↦ hcourteous hcourteous' call key rest hproc) heffect
    | edit call => exact editCall_step_acts htabled hproc hlawful heffect
    | wait call =>
      simp only [Proc.step, WaitCall.step] at heffect
      split at heffect
      · cases heffect
      · split_ifs at heffect <;> cases heffect <;>
          exact acts_apply_bystander hproc rfl rfl rfl fun _ ↦ .refl

/-! ### The invariant of reachable states -/

omit [Go.NetURL] in
/-- The records of a new target keep a ledger without workers valid and its resources idle. -/
theorem valid_addRecords {m : Manager} (hvalid : (m.ledger []).Valid)
    (hidle : ∀ key cell, m.cell key = some cell → cell.Idle) (key : String) (target : Target) :
    ((m.addRecords key target).ledger []).Valid ∧
      ∀ other cell, (m.addRecords key target).cell other = some cell → cell.Idle := by
  obtain ⟨new, hnew, hledger⟩ := @ledger_addRecords m [] key target
  refine ⟨?_, ?_⟩
  · rw [hledger]
    refine hvalid.setCell_of_unused (fun _ _ hworker ↦ by cases hworker) ?_
    intro cell hcell
    cases hcell
    exact hnew
  · intro other cell hcell
    have hcells : (m.addRecords key target).cell other = Function.update m.cell key (some new)
        other := congrArg (fun L ↦ L.cells other) hledger
    rw [hcells] at hcell
    rcases Ledger.Valid.update_cases hcell with ⟨-, heq⟩ | ⟨-, hcell⟩
    · cases heq
      exact hnew
    · exact hidle other cell hcell

omit [Go.NetURL] in
/-- The ledger of a new system is valid. -/
theorem valid_init (settings : Settings) (targets : List Target) :
    (init settings targets).ledger.Valid := by
  have hadd : ∀ (targets : List Target) (m : Manager), (m.ledger []).Valid →
      (∀ key cell, m.cell key = some cell → cell.Idle) →
      ((targets.foldl addTarget m).ledger []).Valid := by
    intro targets
    induction targets with
    | nil => exact fun _ hvalid _ ↦ hvalid
    | cons target targets ih =>
      intro m hvalid hidle
      obtain ⟨hvalid', hidle'⟩ := valid_addRecords hvalid hidle (normalizeName target.name) target
      exact ih (m.addTarget target) hvalid' hidle'
  refine hadd targets _ (Ledger.Valid.of_vacant (fun _ ↦ rfl) rfl rfl rfl) ?_
  intro key cell hcell
  cases hcell

/-- The ledger of every reachable state is valid. -/
theorem Reachable.valid (h : s.Reachable) : s.ledger.Valid := by
  have hboth : s.manager.Tabled ∧ s.ledger.Valid := by
    refine h.invariant (P := fun s ↦ s.manager.Tabled ∧ s.ledger.Valid) ?_ ?_
    · intro settings targets hnames
      exact ⟨tabled_new settings hnames, valid_init settings targets⟩
    · intro s s' label hs hlawful hstep
      exact ⟨step_tabled hs.1 hlawful hstep, Act.valid_of_reflTransGen
        (@step_acts _ false _ _ _ hs.1 hs.2 hlawful (fun h ↦ by cases h) hstep) hs.2⟩
  exact hboth.2

end System

end CodexQueueBot.Jobs
