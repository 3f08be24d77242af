import CodexQueueBot.Jobs.Activity
import CodexQueueBot.Jobs.Addressing
import CodexQueueBot.Jobs.Index
import CodexQueueBot.Jobs.Totality

/-!
# What a stop reports and leaves

`stop` takes a list of names in any spelling, with repetitions, names of no target, and words that
stand for all targets. `stop_accounts` says that its report has each key that the list asks for
once, that the targets it calls stopped are those that were busy, and what it changes: the records
of the targets that the list addresses, and of these no job is left running and no keepalive job is
left on.

What `stop` asks of a target is not `targetBusyLocked`: it does not look at an arbiter that a mode
owns. In reachable states the two agree, because a mode owns a target only through a live worker
that the record of the mode counts (`Reachable.busy_of_owner`).
-/

set_option autoImplicit false
set_option relaxedAutoImplicit false

namespace CodexQueueBot.Jobs

open Lib

namespace Manager

variable {m m' : Manager} {key : String} {now : Time}

/-! ### Keys are normalised names -/

/-- Keys are the normalised names of their targets. -/
def Named (targets : Table String Target) : Prop :=
  ∀ (key : String) (target : Target), targets.lookup key = some target →
    normalizeName target.name = key

/-- A target is added under its normalised name. -/
theorem Named.insert {targets : Table String Target} (h : Named targets) (target : Target) :
    Named (targets.insert (normalizeName target.name) target) := by
  intro key existing hlookup
  rw [Table.lookup_insert_apply] at hlookup
  split_ifs at hlookup with heq
  · cases hlookup
    exact heq.symm
  · exact h key existing hlookup

/-- A target that is removed takes its name along. -/
theorem Named.erase {targets : Table String Target} (h : Named targets) (key : String) :
    Named (targets.erase key) := by
  intro other existing hlookup
  rw [Table.lookup_erase_apply] at hlookup
  split_ifs at hlookup
  exact h other existing hlookup

/-- `New` adds every target under its normalised name. -/
theorem named_new (settings : Settings) (targets : List Target) :
    Named (new settings targets).targets := by
  have hfold : ∀ (targets : List Target) (m : Manager), Named m.targets →
      Named (targets.foldl Manager.addTarget m).targets := by
    intro targets
    induction targets with
    | nil => exact fun m h ↦ h
    | cons target targets ih => exact fun m h ↦ ih _ (h.insert target)
  refine hfold targets _ ?_
  intro key target hlookup
  cases hlookup

section

variable [Go.NetURL]

/-- The sections that edit targets keep the names. -/
theorem Named.edits {s : System} {label : Label} (h : Named s.manager.targets)
    (hedits : s.Edits label m') : Named m'.targets := by
  cases hedits with
  | create hsection =>
    rcases createTarget_cases hsection with ⟨rfl, -⟩ | ⟨saved, -, -, hshown⟩
    · exact h
    · rw [show m'.targets = _ from congrArg Domain.targets hshown.domain]
      exact h.insert saved
  | update hproc hsection =>
    rcases updateTarget_cases hsection with ⟨rfl, -⟩ |
      ⟨oldKey, saved, m₁, -, -, -, -, -, hmove, hshown⟩
    · exact h
    · rw [show m'.targets = _ from congrArg Domain.targets hshown.domain]
      rcases hmove with ⟨-, rfl⟩ | ⟨-, hrename⟩
      · exact h.insert saved
      · obtain ⟨job, keepalive, arbiter, -, -, -, rfl⟩ := renameTarget_cases hrename
        exact (h.erase oldKey).insert saved
  | delete hproc hsection =>
    rcases deleteTarget_cases hsection with ⟨rfl, -⟩ | ⟨key, -, -, -, hshown⟩
    · exact h
    · rw [show m'.targets = _ from congrArg Domain.targets hshown.domain]
      exact h.erase key

end

/-! ### What a stop leaves alone -/

/-- The records of a key are the same. -/
structure SameRecords (m m' : Manager) (key : String) : Prop where
  job : m'.jobs.lookup key = m.jobs.lookup key
  keepalive : m'.keepalives.lookup key = m.keepalives.lookup key
  arbiter : m'.arbiters.lookup key = m.arbiters.lookup key

/-- A manager without its records, its contexts and channels, and what observers have seen. -/
def framed (m : Manager) : Manager :=
  { m with
    jobs := ∅
    keepalives := ∅
    arbiters := ∅
    cancelled := []
    closed := []
    nextChannel := 0
    nextEventID := 0
    observers := [] }

/-- Nothing but the records of some keys is changed. -/
structure Spared (m : Manager) (keys : List String) (m' : Manager) : Prop where
  others : ∀ key ∉ keys, m.SameRecords m' key
  framed : m'.framed = m.framed

/-- Nothing is changed. -/
theorem Spared.refl (m : Manager) (keys : List String) : m.Spared keys m :=
  ⟨fun _ _ ↦ ⟨rfl, rfl, rfl⟩, rfl⟩

/-- The settings of a manager. -/
def settings (m : Manager) : Settings where
  promptRunner := m.promptRunner
  messenger := m.messenger
  keepaliveMin := m.keepaliveMin
  keepaliveMax := m.keepaliveMax
  maxParallel := m.maxParallel
  successMessage := m.successMessage

/-- One change after the other. -/
theorem Spared.trans {keys : List String} {m₁ : Manager} (hfirst : m.Spared keys m₁)
    (hsecond : m₁.Spared keys m') : m.Spared keys m' := by
  refine ⟨fun key hkey ↦ ?_, hsecond.framed.trans hfirst.framed⟩
  have hold := hfirst.others key hkey
  have hnew := hsecond.others key hkey
  exact ⟨hnew.job.trans hold.job, hnew.keepalive.trans hold.keepalive,
    hnew.arbiter.trans hold.arbiter⟩

/-- The targets, the counters and the settings are not changed. -/
theorem Spared.kept {keys : List String} (h : m.Spared keys m') :
    m'.targets = m.targets ∧ m'.order = m.order ∧ m'.slotsInUse = m.slotsInUse ∧
      m'.currentProcesses = m.currentProcesses ∧ m'.settings = m.settings := by
  have htargets := congrArg Manager.targets h.framed
  have horder := congrArg Manager.order h.framed
  have hslots := congrArg Manager.slotsInUse h.framed
  have hprocesses := congrArg Manager.currentProcesses h.framed
  have hsettings := congrArg settings h.framed
  exact ⟨htargets, horder, hslots, hprocesses, hsettings⟩

/-- Fewer keys are among more. -/
theorem Spared.mono {keys keys' : List String} (h : m.Spared keys m') (hsubset : keys ⊆ keys') :
    m.Spared keys' m' :=
  ⟨fun key hkey ↦ h.others key fun hmem ↦ hkey (hsubset hmem), h.framed⟩

/-- No job of a key is running, and no keepalive job is not stopped. -/
structure Quiet (m : Manager) (key : String) : Prop where
  job : ∀ job, m.jobs.lookup key = some job → job.state ≠ .running
  keepalive : ∀ keepalive, m.keepalives.lookup key = some keepalive → keepalive.state = .stopped

/-- A key whose records are the same stays quiet. -/
theorem Quiet.of_same (h : m.Quiet key) (hsame : m.SameRecords m' key) : m'.Quiet key :=
  ⟨fun job hjob ↦ h.job job (hsame.job ▸ hjob),
    fun keepalive hkeepalive ↦ h.keepalive keepalive (hsame.keepalive ▸ hkeepalive)⟩

/-- Cancelling a context leaves the arbiters alone. -/
@[simp]
theorem callCancel_arbiters (cancel : Option Nat) :
    (m.callCancel cancel).arbiters = m.arbiters := by
  cases cancel <;> rfl

/-- Cancelling a context is no part of the frame. -/
@[simp]
theorem framed_callCancel (cancel : Option Nat) : (m.callCancel cancel).framed = m.framed := by
  cases cancel <;> rfl

/-- `stopQueueLocked` leaves no running job. -/
theorem spared_stopQueueLocked (h : m.stopQueueLocked key now = some m') :
    m.Spared [key] m' ∧ ∀ job, m'.jobs.lookup key = some job → job.state ≠ .running := by
  rcases stopQueueLocked_cases h with ⟨job, arbiter, -, -, -, rfl⟩ | ⟨hidle, rfl⟩
  · refine ⟨⟨fun other hother ↦ ?_, framed_callCancel _⟩, fun stopped hstopped ↦ ?_⟩
    · rw [List.mem_singleton] at hother
      refine ⟨?_, ?_, ?_⟩
      · rw [callCancel_jobs]
        exact AList.lookup_insert_ne hother
      · rw [callCancel_keepalives]
        rfl
      · rw [callCancel_arbiters]
        exact AList.lookup_insert_ne hother
    · rw [callCancel_jobs] at hstopped
      obtain rfl := Option.some.inj ((AList.lookup_insert m.jobs).symm.trans hstopped)
      unfold stopJob
      split_ifs with hrunning
      · exact State.noConfusion
      · exact hrunning
  · exact ⟨.refl _ _, fun job hjob ↦ (hidle job hjob).1⟩

/-- `stopKeepaliveLocked` leaves no keepalive job that is not stopped, and no job alone. -/
theorem spared_stopKeepaliveLocked (h : m.stopKeepaliveLocked key now = some m') :
    m.Spared [key] m' ∧ m'.jobs = m.jobs ∧
      ∀ keepalive, m'.keepalives.lookup key = some keepalive → keepalive.state = .stopped := by
  rcases stopKeepaliveLocked_cases h with ⟨keepalive, arbiter, -, -, -, rfl⟩ | ⟨hidle, rfl⟩
  · refine ⟨⟨fun other hother ↦ ?_, framed_callCancel _⟩, callCancel_jobs _,
      fun stopped hstopped ↦ ?_⟩
    · rw [List.mem_singleton] at hother
      refine ⟨?_, ?_, ?_⟩
      · rw [callCancel_jobs]
        rfl
      · rw [callCancel_keepalives]
        exact AList.lookup_insert_ne hother
      · rw [callCancel_arbiters]
        exact AList.lookup_insert_ne hother
    · rw [callCancel_keepalives] at hstopped
      obtain rfl := Option.some.inj ((AList.lookup_insert m.keepalives).symm.trans hstopped)
      unfold stopKeepaliveJob
      split_ifs with hon
      · rfl
      · exact not_not.mp hon
  · exact ⟨.refl _ _, rfl, fun keepalive hkeepalive ↦ (hidle keepalive hkeepalive).1⟩

/-- `stopAdhocLocked` touches the arbiter only. -/
theorem spared_stopAdhocLocked (m : Manager) (key : String) :
    m.Spared [key] (m.stopAdhocLocked key) ∧ (m.stopAdhocLocked key).jobs = m.jobs ∧
      (m.stopAdhocLocked key).keepalives = m.keepalives := by
  rcases stopAdhocLocked_cases m key with ⟨arbiter, -, -, heq⟩ | ⟨-, heq⟩
  · rw [heq]
    refine ⟨⟨fun other hother ↦ ?_, framed_callCancel _⟩, callCancel_jobs _,
      callCancel_keepalives _⟩
    rw [List.mem_singleton] at hother
    refine ⟨?_, ?_, ?_⟩
    · rw [callCancel_jobs]
      rfl
    · rw [callCancel_keepalives]
      rfl
    · rw [callCancel_arbiters]
      exact AList.lookup_insert_ne hother
  · rw [heq]
    exact ⟨.refl _ _, rfl, rfl⟩

/-- One round of the loop of `stop` quiets its target, and spares the others. -/
theorem spared_of_stopKey {result result' : StopResult}
    (h : stopKey now (m, result) key = some (m', result')) :
    m.Spared [key] m' ∧ m'.Quiet key := by
  obtain ⟨job, keepalive, m₁, m₂, -, -, hqueue, hkeepalive, rfl⟩ := stopKey_cases h
  obtain ⟨hspared₁, hjob⟩ := spared_stopQueueLocked hqueue
  obtain ⟨hspared₂, hjobs₂, hstopped⟩ := spared_stopKeepaliveLocked hkeepalive
  obtain ⟨hspared₃, hjobs₃, hkeepalives₃⟩ := spared_stopAdhocLocked m₂ key
  refine ⟨(hspared₁.trans hspared₂).trans hspared₃, ?_, ?_⟩
  · rw [hjobs₃, hjobs₂]
    exact hjob
  · rw [hkeepalives₃]
    exact hstopped

/-! ### What a stop reports -/

/-- A report with the name of a target that was busy, or not. -/
def StopResult.record (result : StopResult) (name : String) (busy : Bool) : StopResult :=
  if busy then { result with stopped := result.stopped ++ [name] }
  else { result with inactive := result.inactive ++ [name] }

/-- `stopQueueLocked` keeps the owner of the target. -/
theorem exists_stopQueueLocked (now : Time) {job : Job} {arbiter : TargetArbiter}
    (hjob : m.jobs.lookup key = some job) (harbiter : m.arbiters.lookup key = some arbiter) :
    ∃ m₁ changed, m.stopQueueLocked key now = some m₁ ∧ m₁.keepalives = m.keepalives ∧
      m₁.arbiters.lookup key = some { arbiter with changed } := by
  unfold stopQueueLocked
  simp only [hjob]
  split_ifs
  · exact ⟨m, arbiter.changed, rfl, rfl, harbiter⟩
  · rw [signalTargetLocked_eq (show (m.setJob key _).arbiters.lookup key = _ from harbiter)]
    refine ⟨_, m.nextChannel, rfl, callCancel_keepalives _, ?_⟩
    rw [callCancel_arbiters]
    exact AList.lookup_insert _

/-- `stopKeepaliveLocked` keeps the owner of the target. -/
theorem exists_stopKeepaliveLocked (now : Time) {keepalive : KeepaliveJob}
    {arbiter : TargetArbiter} (hkeepalive : m.keepalives.lookup key = some keepalive)
    (harbiter : m.arbiters.lookup key = some arbiter) :
    ∃ m₁ changed, m.stopKeepaliveLocked key now = some m₁ ∧
      m₁.arbiters.lookup key = some { arbiter with changed } := by
  unfold stopKeepaliveLocked
  simp only [hkeepalive]
  split_ifs
  · exact ⟨m, arbiter.changed, rfl, harbiter⟩
  · rw [signalTargetLocked_eq (show (m.setKeepalive key _).arbiters.lookup key = _ from harbiter)]
    refine ⟨_, m.nextChannel, rfl, ?_⟩
    rw [callCancel_arbiters]
    exact AList.lookup_insert _

/-- A target that a mode owns is busy by the record of the mode. -/
structure Attended (job : Job) (keepalive : KeepaliveJob) (arbiter : TargetArbiter) : Prop where
  queue : arbiter.owner = .queue → job.state = .running ∨ 0 < job.workers
  keepalive : arbiter.owner = .keepalive → keepalive.state ≠ .stopped ∨ 0 < keepalive.workers

/-- What `stop` asks of a target is whether it is busy, if a mode that owns it is. -/
theorem Attended.busyRecords_iff {job : Job} {keepalive : KeepaliveJob} {arbiter : TargetArbiter}
    (h : Attended job keepalive arbiter) : busyRecords job keepalive arbiter = true ↔
      (job.state = .running ∨ 0 < job.workers) ∨
        (keepalive.state ≠ .stopped ∨ 0 < keepalive.workers) ∨ arbiter.owner = .adhoc := by
  have howner : arbiter.owner ≠ .none → (job.state = .running ∨ 0 < job.workers) ∨
      (keepalive.state ≠ .stopped ∨ 0 < keepalive.workers) ∨ arbiter.owner = .adhoc := by
    intro hsome
    cases hcase : arbiter.owner with
    | none => exact absurd hcase hsome
    | queue => exact Or.inl (h.queue hcase)
    | keepalive => exact Or.inr (Or.inl (h.keepalive hcase))
    | adhoc => exact Or.inr (Or.inr rfl)
  constructor
  · intro hbusy
    simp only [busyRecords, Bool.or_eq_true, beq_iff_eq, decide_eq_true_eq, bne_iff_ne] at hbusy
    tauto
  · intro hactive
    simp only [busyRecords, Bool.or_eq_true, beq_iff_eq, decide_eq_true_eq, bne_iff_ne]
    rcases hactive with hqueue | hkeepalive | hadhoc
    · tauto
    · tauto
    · refine Or.inr ?_
      rw [hadhoc]
      exact RequestOwner.noConfusion

/-- One round of the loop of `stop` reports whether its target was busy. -/
theorem exists_stopKey (now : Time) {job : Job} {keepalive : KeepaliveJob}
    {arbiter : TargetArbiter} (hjob : m.jobs.lookup key = some job)
    (hkeepalive : m.keepalives.lookup key = some keepalive)
    (harbiter : m.arbiters.lookup key = some arbiter) (hattended : Attended job keepalive arbiter)
    (result : StopResult) : ∃ m', stopKey now (m, result) key =
      some (m', result.record (m.target key).name (busyRecords job keepalive arbiter)) := by
  obtain ⟨m₁, changed₁, hqueue, hkeepalives, harbiter₁⟩ :=
    exists_stopQueueLocked now hjob harbiter
  obtain ⟨m₂, changed₂, hstopped, harbiter₂⟩ :=
    exists_stopKeepaliveLocked now (hkeepalives ▸ hkeepalive) harbiter₁
  have hfirst : (if job.state = .running ∨ 0 < job.workers then m.stopQueueLocked key now
      else some m) = some m₁ := by
    split_ifs with hactive
    · exact hqueue
    · rw [← hqueue, stopQueueLocked_of_idle hjob hactive]
  have hsecond : (if keepalive.state ≠ .stopped ∨ 0 < keepalive.workers
      then m₁.stopKeepaliveLocked key now else some m₁) = some m₂ := by
    split_ifs with hactive
    · exact hstopped
    · rw [← hstopped, stopKeepaliveLocked_of_idle (hkeepalives ▸ hkeepalive) hactive]
  simp only [stopKey, hjob, hkeepalive, hfirst, hsecond, harbiter₂, Option.bind_eq_bind,
    Option.bind_some, Option.pure_def]
  by_cases hactive : (job.state = .running ∨ 0 < job.workers) ∨
      (keepalive.state ≠ .stopped ∨ 0 < keepalive.workers) ∨ arbiter.owner = .adhoc
  · rw [if_pos hactive, hattended.busyRecords_iff.mpr hactive]
    exact ⟨_, rfl⟩
  · rw [if_neg hactive, Bool.eq_false_iff.mpr (mt hattended.busyRecords_iff.mp hactive)]
    exact ⟨_, rfl⟩

/-- Whether a target is busy. -/
def busy (m : Manager) (key : String) : Bool :=
  (m.targetBusyLocked key).getD false

/-- Whether a target is busy, from its records. -/
theorem targetBusyLocked_eq {job : Job} {keepalive : KeepaliveJob} {arbiter : TargetArbiter}
    (hjob : m.jobs.lookup key = some job) (hkeepalive : m.keepalives.lookup key = some keepalive)
    (harbiter : m.arbiters.lookup key = some arbiter) :
    m.targetBusyLocked key = some (busyRecords job keepalive arbiter) := by
  simp only [targetBusyLocked, hjob, hkeepalive, harbiter, Option.bind_eq_bind, Option.bind_some,
    Option.pure_def]

/-- A target is as busy as it was when its records are the same. -/
theorem SameRecords.busy (h : m.SameRecords m' key) : m'.busy key = m.busy key := by
  unfold Manager.busy targetBusyLocked
  rw [h.job, h.keepalive, h.arbiter]

/-- A report on targets, by whether they are busy. -/
def report (m : Manager) (keys : List String) (result : StopResult) : StopResult :=
  keys.foldl (fun result key ↦ result.record (m.target key).name (m.busy key)) result

/-- The report lists the targets that are busy and those that are not. -/
theorem report_eq (m : Manager) (keys : List String) (result : StopResult) :
    m.report keys result = {
      stopped := result.stopped ++ (keys.filter m.busy).map fun key ↦ (m.target key).name
      inactive := result.inactive ++ (keys.filter (! m.busy ·)).map fun key ↦ (m.target key).name
      unknown := result.unknown } := by
  induction keys generalizing result with
  | nil => simp [report]
  | cons key keys ih =>
    rw [report, List.foldl_cons, ← report, ih, StopResult.record]
    cases hbusy : m.busy key <;> simp [hbusy]

/-- A target has its records, and is busy if a mode owns it. -/
def Ready (m : Manager) (key : String) : Prop :=
  ∃ job keepalive arbiter, m.jobs.lookup key = some job ∧
    m.keepalives.lookup key = some keepalive ∧ m.arbiters.lookup key = some arbiter ∧
      Attended job keepalive arbiter

/-- A target with the same records is ready. -/
theorem Ready.of_same (h : m.Ready key) (hsame : m.SameRecords m' key) : m'.Ready key := by
  obtain ⟨job, keepalive, arbiter, hjob, hkeepalive, harbiter, hattended⟩ := h
  exact ⟨job, keepalive, arbiter, hsame.job.trans hjob, hsame.keepalive.trans hkeepalive,
    hsame.arbiter.trans harbiter, hattended⟩

/-- Targets that are not among the keys are reported on as before. -/
theorem Spared.report {keys others : List String} (h : m.Spared keys m')
    (hdisjoint : ∀ key ∈ others, key ∉ keys) (result : StopResult) :
    m'.report others result = m.report others result := by
  have htargets := h.kept.1
  refine List.foldl_ext _ _ _ fun found key hkey ↦ ?_
  rw [(h.others key (hdisjoint key hkey)).busy]
  simp only [Manager.target, htargets]

/-- The loop of `stop` reports on distinct targets, quiets them, and spares the others. -/
theorem exists_foldlM_stopKey (now : Time) {keys : List String} (hnodup : keys.Nodup)
    (hready : ∀ key ∈ keys, m.Ready key) (result : StopResult) :
    ∃ m', keys.foldlM (stopKey now) (m, result) = some (m', m.report keys result) ∧
      m.Spared keys m' ∧ ∀ key ∈ keys, m'.Quiet key := by
  induction keys generalizing m result with
  | nil => exact ⟨m, rfl, .refl m _, fun key hkey ↦ by cases hkey⟩
  | cons key keys ih =>
    obtain ⟨hfresh, hnodup⟩ := List.nodup_cons.mp hnodup
    obtain ⟨⟨job, keepalive, arbiter, hjob, hkeepalive, harbiter, hattended⟩, hready⟩ :=
      List.forall_mem_cons.mp hready
    obtain ⟨m₁, hround⟩ := exists_stopKey now hjob hkeepalive harbiter hattended result
    obtain ⟨hspared, hquiet⟩ := spared_of_stopKey hround
    have hothers : ∀ other ∈ keys, other ∉ [key] := fun other hother hmem ↦
      hfresh (List.mem_singleton.mp hmem ▸ hother)
    obtain ⟨m', hloop, hspared', hquiet'⟩ := ih hnodup
      (fun other hother ↦ (hready other hother).of_same
        (hspared.others other (hothers other hother)))
      (result.record (m.target key).name (busyRecords job keepalive arbiter))
    have hbusy : m.busy key = busyRecords job keepalive arbiter := by
      rw [Manager.busy, targetBusyLocked_eq hjob hkeepalive harbiter]
      rfl
    refine ⟨m', ?_, ?_, List.forall_mem_cons.mpr ⟨?_, hquiet'⟩⟩
    · rw [List.foldlM_cons, hround]
      refine hloop.trans ?_
      rw [hspared.report hothers, Manager.report, Manager.report, List.foldl_cons, hbusy]
    · exact (hspared.mono (List.cons_subset_cons key (List.nil_subset keys))).trans
        (hspared'.mono (List.subset_cons_self key keys))
    · exact hquiet.of_same (hspared'.others key hfresh)

/-! ### Each requested target once -/

/-- The keys that a list of names asks for: all targets, or what it mentions. -/
def Requested (m : Manager) (names : List String) (key : String) : Prop :=
  if MeansAll names then key ∈ m.targets else Mentions names key

/-- The targets that a list of names addresses. -/
def Addressed (m : Manager) (names : List String) (key : String) : Prop :=
  m.Requested names key ∧ key ∈ m.targets

/-- The names in a report. -/
def StopResult.reported (result : StopResult) : List String :=
  result.stopped ++ result.inactive ++ result.unknown

/-- A report accounts for a list of names: it has each key that they ask for once, under a name of
it; the stopped targets are those that were busy, and the unknown names are no targets. -/
structure Accounts (m : Manager) (names : List String) (result : StopResult) : Prop where
  once : (result.reported.map normalizeName).Nodup
  complete : ∀ key, key ∈ result.reported.map normalizeName ↔ m.Requested names key
  stopped : ∀ name, name ∈ result.stopped ↔ ∃ key target, m.Addressed names key ∧
    m.targets.lookup key = some target ∧ target.name = name ∧ m.targetBusyLocked key = some true
  inactive : ∀ name, name ∈ result.inactive ↔ ∃ key target, m.Addressed names key ∧
    m.targets.lookup key = some target ∧ target.name = name ∧ m.targetBusyLocked key = some false
  unknown : ∀ name ∈ result.unknown, name ∈ names ∧ normalizeName name ∉ m.targets

/-- What `resolveLocked` makes of a list of names. -/
structure Resolves (m : Manager) (names keys unknown : List String) : Prop where
  addressed : ∀ key, key ∈ keys ↔ m.Addressed names key
  requested : ∀ key, key ∈ keys ++ unknown.map normalizeName ↔ m.Requested names key
  nodup : (keys ++ unknown.map normalizeName).Nodup
  missing : ∀ name ∈ unknown, name ∈ names ∧ normalizeName name ∉ m.targets

/-- `resolveLocked` finds each key that is asked for once. -/
theorem Tabled.resolves (h : m.Tabled) (names : List String) :
    m.Resolves names (m.resolveLocked names).1 (m.resolveLocked names).2 := by
  by_cases hall : MeansAll names
  · have hrequested : ∀ key, m.Requested names key ↔ key ∈ m.targets := fun key ↦
      iff_of_eq (if_pos hall)
    rw [resolveLocked_of_meansAll hall]
    refine ⟨fun key ↦ ?_, fun key ↦ ?_, ?_, fun name hname ↦ by cases hname⟩
    · rw [Addressed, hrequested, and_self, h.order]
    · rw [hrequested, List.map_nil, List.append_nil, h.order]
    · rw [List.map_nil, List.append_nil]
      exact h.nodup
  · have hrequested : ∀ key, m.Requested names key ↔ Mentions names key := fun key ↦
      iff_of_eq (if_neg hall)
    have hresolved := resolved_foldl m names
    rw [resolveLocked_of_not_meansAll hall]
    refine ⟨fun key ↦ ?_, fun key ↦ ?_, hresolved.nodup, fun name hname ↦ ?_⟩
    · rw [Addressed, hrequested, hresolved.keys]
    · rw [List.mem_append, hresolved.keys, hresolved.missing, hrequested, ← and_or_left,
        and_iff_left (em _)]
    · exact ⟨hresolved.unknown name hname,
        ((hresolved.missing _).mp (List.mem_map_of_mem hname)).2⟩

/-- The names of targets are spellings of their keys. -/
theorem Named.map_normalizeName (h : Named m.targets) {keys : List String}
    (hkeys : ∀ key ∈ keys, key ∈ m.targets) :
    (keys.map fun key ↦ (m.target key).name).map normalizeName = keys := by
  rw [List.map_map]
  refine (List.map_congr_left fun key hkey ↦ ?_).trans (List.map_id keys)
  obtain ⟨target, hlookup⟩ := Table.exists_lookup_of_mem (hkeys key hkey)
  rw [Function.comp_apply, target_of_lookup hlookup]
  exact h key target hlookup

/-- The report on the targets that are addressed accounts for the names. -/
theorem Resolves.accounts {names keys unknown : List String} (h : m.Resolves names keys unknown)
    (hnamed : Named m.targets) (hready : ∀ key ∈ keys, m.Ready key) :
    m.Accounts names (m.report keys { unknown }) := by
  have hmem : ∀ key ∈ keys, key ∈ m.targets := fun key hkey ↦ ((h.addressed key).mp hkey).2
  have hperm : ((m.report keys { unknown }).reported.map normalizeName).Perm
      (keys ++ unknown.map normalizeName) := by
    rw [report_eq, StopResult.reported, List.map_append, List.map_append, List.nil_append,
      List.nil_append,
      hnamed.map_normalizeName fun key hkey ↦ hmem key (List.mem_of_mem_filter hkey),
      hnamed.map_normalizeName fun key hkey ↦ hmem key (List.mem_of_mem_filter hkey)]
    exact (List.filter_append_perm m.busy keys).append_right _
  have hlisted : ∀ (busy : Bool) (name : String),
      name ∈ (keys.filter fun key ↦ m.busy key == busy).map (fun key ↦ (m.target key).name) ↔
        ∃ key target, m.Addressed names key ∧ m.targets.lookup key = some target ∧
          target.name = name ∧ m.targetBusyLocked key = some busy := by
    intro busy name
    have hbusy : ∀ key ∈ keys, m.busy key = busy ↔ m.targetBusyLocked key = some busy := by
      intro key hkey
      obtain ⟨job, keepalive, arbiter, hjob, hkeepalive, harbiter, -⟩ := hready key hkey
      rw [Manager.busy, targetBusyLocked_eq hjob hkeepalive harbiter, Option.getD_some,
        Option.some.injEq]
    rw [List.mem_map]
    constructor
    · rintro ⟨key, hkey, rfl⟩
      obtain ⟨hkey, hsame⟩ := List.mem_filter.mp hkey
      obtain ⟨target, hlookup⟩ := Table.exists_lookup_of_mem (hmem key hkey)
      exact ⟨key, target, (h.addressed key).mp hkey, hlookup, by rw [target_of_lookup hlookup],
        (hbusy key hkey).mp (beq_iff_eq.mp hsame)⟩
    · rintro ⟨key, target, haddressed, hlookup, rfl, hsame⟩
      have hkey := (h.addressed key).mpr haddressed
      exact ⟨key, List.mem_filter.mpr ⟨hkey, beq_iff_eq.mpr ((hbusy key hkey).mpr hsame)⟩,
        by rw [target_of_lookup hlookup]⟩
  refine ⟨hperm.nodup_iff.mpr h.nodup, fun key ↦ hperm.mem_iff.trans (h.requested key), ?_, ?_, ?_⟩
  · intro name
    rw [← hlisted, report_eq]
    simp
  · intro name
    rw [← hlisted, report_eq]
    simp
  · intro name hname
    rw [report_eq] at hname
    exact h.missing name hname

end Manager

namespace System

variable [Go.NetURL] {s : System}

/-- In every reachable state keys are normalised names. -/
theorem Reachable.named (h : s.Reachable) : Manager.Named s.manager.targets := by
  refine h.invariant (P := fun s ↦ Manager.Named s.manager.targets) ?_ ?_
  · exact fun settings targets _ ↦ Manager.named_new settings targets
  · intro s s' label hnamed _ hstep
    rcases step_domain hstep with hdomain | hedits
    · rwa [show s'.manager.targets = _ from congrArg Manager.Domain.targets hdomain]
    · exact hnamed.edits hedits

/-- A target that a mode owns is busy by the record of the mode. -/
theorem Reachable.busy_of_owner (h : s.Reachable) {key : String} {job : Job}
    {keepalive : KeepaliveJob} {arbiter : TargetArbiter}
    (hjob : s.manager.jobs.lookup key = some job)
    (hkeepalive : s.manager.keepalives.lookup key = some keepalive)
    (harbiter : s.manager.arbiters.lookup key = some arbiter) :
    (arbiter.owner = .queue → job.state = .running ∨ 0 < job.workers) ∧
      (arbiter.owner = .keepalive → keepalive.state ≠ .stopped ∨ 0 < keepalive.workers) := by
  have hcell : s.ledger.cells key = some (cellOf job keepalive arbiter) :=
    Manager.cell_of hjob hkeepalive harbiter
  constructor
  · intro howner
    have hclaim : (cellOf job keepalive arbiter).owner = some (.mode .queue, arbiter.ownerRunID) :=
      TargetArbiter.claim_eq_some.mpr ⟨howner, rfl⟩
    exact Job.track_busy.mp (h.valid.busy_of_owner hcell hclaim)
  · intro howner
    have hclaim : (cellOf job keepalive arbiter).owner =
        some (.mode .keepalive, arbiter.ownerRunID) :=
      TargetArbiter.claim_eq_some.mpr ⟨howner, rfl⟩
    exact KeepaliveJob.track_busy.mp (h.valid.busy_of_owner hcell hclaim)

/-- In every reachable state every target is ready. -/
theorem Reachable.ready (h : s.Reachable) {key : String} (hkey : key ∈ s.manager.targets) :
    s.manager.Ready key := by
  obtain ⟨⟨job, hjob⟩, ⟨keepalive, hkeepalive⟩, ⟨arbiter, harbiter⟩⟩ := h.tabled.recorded hkey
  obtain ⟨hqueue, hmode⟩ := h.busy_of_owner hjob hkeepalive harbiter
  exact ⟨job, keepalive, arbiter, hjob, hkeepalive, harbiter, hqueue, hmode⟩

/-- In every reachable state, a call of `stop` accounts for every list of names. Afterwards no
target that is addressed has a running job or a keepalive job that is not stopped; the records of
every other target, the targets, the counters of slots and processes and the settings are as they
were. -/
theorem stop_accounts (h : s.Reachable) (names : List String) (now : Time) :
    ∃ m' result, s.manager.stop names now = some (m', result) ∧
      s.manager.Accounts names result ∧
      (∀ key, s.manager.Addressed names key → m'.Quiet key) ∧
      (∀ key, ¬ s.manager.Addressed names key → s.manager.SameRecords m' key) ∧
      m'.targets = s.manager.targets ∧ m'.order = s.manager.order ∧
      m'.slotsInUse = s.manager.slotsInUse ∧
      m'.currentProcesses = s.manager.currentProcesses ∧
      m'.settings = s.manager.settings := by
  have hresolves := h.tabled.resolves names
  have hready : ∀ key ∈ (s.manager.resolveLocked names).1, s.manager.Ready key := fun key hkey ↦
    h.ready ((hresolves.addressed key).mp hkey).2
  obtain ⟨m₁, hloop, hspared, hquiet⟩ := Manager.exists_foldlM_stopKey now
    hresolves.nodup.of_append_left hready { unknown := (s.manager.resolveLocked names).2 }
  have htabled : m₁.Tabled := h.tabled.of_domain (Manager.stops_of_foldlM .refl hloop).domain
  obtain ⟨m', hbroadcast⟩ : ∃ m', (if (s.manager.report (s.manager.resolveLocked names).1
      { unknown := (s.manager.resolveLocked names).2 }).stopped ≠ [] then
        m₁.broadcastStateLocked else some m₁) = some m' := by
    split_ifs
    · exact htabled.broadcastStateLocked
    · exact ⟨m₁, rfl⟩
  have hshown : m₁.Spared [] m' := by
    rcases Manager.shown_of_ite hbroadcast with ⟨-, nextEventID, observers, rfl⟩ | ⟨-, rfl⟩
    · exact ⟨fun _ _ ↦ ⟨rfl, rfl, rfl⟩, rfl⟩
    · exact .refl _ _
  have hall := hspared.trans (hshown.mono (List.nil_subset _))
  refine ⟨m', _, ?_, hresolves.accounts h.named hready, fun key hkey ↦ ?_, fun key hkey ↦ ?_, ?_⟩
  · simp only [Manager.stop, hloop, hbroadcast, Option.bind_eq_bind, Option.bind_some,
      Option.pure_def]
  · exact (hquiet key ((hresolves.addressed key).mpr hkey)).of_same
      (hshown.others key List.not_mem_nil)
  · exact hall.others key (mt (hresolves.addressed key).mp hkey)
  · exact hall.kept

omit [Go.NetURL] in
/-- During a queue attempt on `a`, which two spellings and no other target name, `a` is reported
once and stopped. -/
theorem stop_accounts_queueAttempt :
    ∃ (s : System) (m' : Manager) (result : Manager.StopResult),
      @Reachable Go.NetURL.emptyOnly s ∧ s.manager.targetBusyLocked "a" = some true ∧
      @Manager.stop Go.NetURL.emptyOnly s.manager [" A", "a", "?"] 5 = some (m', result) ∧
      s.manager.Accounts [" A", "a", "?"] result ∧ s.manager.Addressed [" A", "a", "?"] "a" ∧
      m'.Quiet "a" := by
  let _ := Go.NetURL.emptyOnly
  obtain ⟨s, hreach, htest⟩ := exists_of_sample queueAttempt
    (fun s ↦ s.manager.targetBusyLocked "a" == some true &&
      (s.manager.targets.lookup "a").isSome) (by decide +kernel)
  obtain ⟨hbusy, hsome⟩ := Bool.and_eq_true_iff.mp htest
  obtain ⟨target, hlookup⟩ := Option.isSome_iff_exists.mp hsome
  have hmentions : Manager.Mentions [" A", "a", "?"] "a" :=
    ⟨by decide, "a", by decide, by decide +kernel⟩
  have haddressed : s.manager.Addressed [" A", "a", "?"] "a" := by
    refine ⟨?_, Table.mem_of_lookup hlookup⟩
    rw [Manager.Requested, if_neg (by decide +kernel)]
    exact hmentions
  obtain ⟨m', result, hstop, haccounts, hquiet, -⟩ := stop_accounts hreach [" A", "a", "?"] 5
  exact ⟨s, m', result, hreach, beq_iff_eq.mp hbusy, hstop, haccounts, haddressed,
    hquiet "a" haddressed⟩

end System

end CodexQueueBot.Jobs
