import CodexQueueBot.Jobs.SystemRefinement
import CodexQueueBot.Lib.LedgerHospitality

/-!
# Exclusion on one target

What the manager promises about one target in every reachable state, whatever the order of the
calls and of the steps of the goroutines. At most one runner call is in flight, and queue and
keepalive work exclude each other up to the last worker that is still unwinding.

The documentation of `RunAdhoc` promises a third exclusion: a manual request excludes queue and
keepalive work. It holds along runs in which no call starts a run on a target while a manual request
owns it (`adhoc_exclusive`). The last sections of `startQueue` and `startKeepalive` do not check the
arbiter, so that a manual request which is accepted after `prepareMode` breaks it
(`adhoc_not_exclusive`).
-/

set_option autoImplicit false
set_option relaxedAutoImplicit false

namespace CodexQueueBot.Jobs

open Lib

/-! ### Runner calls -/

/-- The key of the target on which a goroutine has a runner call in flight: between
`beginAttempt`, the second section of `beginKeepaliveRequest` or of `RunAdhoc`, and the return of
the runner. -/
def Proc.inFlight : Proc → Option String
  | .queue ⟨key, _, _, .running _ _⟩ => some key
  | .keepalive ⟨key, _, _, .running _ _⟩ => some key
  | .adhoc ⟨key, _, _, _, _, .running⟩ => some key
  | _ => none

/-- A goroutine with a runner call in flight is a process of the ledger on that target. -/
theorem Proc.process_of_inFlight {proc : Proc} {key : String} (h : proc.inFlight = some key) :
    proc.view.process = true ∧ proc.view.key = key := by
  unfold inFlight at h
  split at h <;> cases h <;> exact ⟨rfl, rfl⟩

namespace System

variable [Go.NetURL] {s : System}

/-- At most one runner call is in flight on a target: goroutines that have one on the same target
are the same goroutine. -/
theorem inFlight_unique (h : s.Reachable) {key : String} {i j : Nat} {proc other : Proc}
    (hproc : s.procs[i]? = some proc) (hother : s.procs[j]? = some other)
    (hflight : proc.inFlight = some key) (hotherFlight : other.inFlight = some key) : i = j := by
  have hvalid := h.valid
  obtain ⟨hprocess, rfl⟩ := Proc.process_of_inFlight hflight
  obtain ⟨hotherProcess, hkey⟩ := Proc.process_of_inFlight hotherFlight
  have hworker : s.ledger.workers[i]? = some proc.view := view_getElem? hproc
  have hotherWorker : s.ledger.workers[j]? = some other.view := view_getElem? hother
  obtain ⟨-, hholds⟩ := hvalid.equipped i _ hworker hprocess
  obtain ⟨-, hotherHolds⟩ := hvalid.equipped j _ hotherWorker hotherProcess
  have hlive := hvalid.alive i _ hworker (Or.inr (Or.inl hholds))
  have hotherLive := hvalid.alive j _ hotherWorker (Or.inr (Or.inl hotherHolds))
  -- Both hold the target, so both are the one owner that its arbiter names.
  obtain ⟨cell, hcell⟩ := hvalid.present i _ hworker hlive
  have howner := hvalid.holding i _ cell hworker hholds hcell
  have hotherOwner := hvalid.holding j _ cell hotherWorker hotherHolds (hkey ▸ hcell)
  obtain ⟨hclaimant, hrun⟩ := Prod.mk.inj (Option.some.inj (howner.symm.trans hotherOwner))
  exact hvalid.distinct i j _ _ hworker hotherWorker hlive hotherLive ⟨hkey.symm, hclaimant, hrun⟩

/-- The labels that start a queue run on `a` and bring it to its first attempt. -/
def queueAttempt : List Label :=
  [.start ["a"] ⟨"r", "", "", none⟩, .advance 0 {}, .advance 0 {}, .advance 1 {}, .advance 1 {},
    .advance 1 {}]

omit [Go.NetURL] in
/-- After the first attempt of a queue run has begun, its worker alone has a runner call in
flight. -/
theorem inFlight_unique_queueAttempt :
    ∃ (s : System) (proc : Proc), @Reachable Go.NetURL.emptyOnly s ∧ s.procs[1]? = some proc ∧
      proc.inFlight = some "a" ∧ ∀ (j : Nat) (other : Proc), s.procs[j]? = some other →
        other.inFlight = some "a" → 1 = j := by
  let _ := Go.NetURL.emptyOnly
  obtain ⟨s, hreach, htest⟩ := exists_of_sample queueAttempt
    (fun s ↦ s.procs[1]?.any (·.inFlight = some "a")) (by decide +kernel)
  obtain ⟨proc, hproc, hflight⟩ := (Option.any_eq_true _ _).mp htest
  have hflight : proc.inFlight = some "a" := by simpa using hflight
  exact ⟨s, proc, hreach, hproc, hflight, fun j other hother hotherFlight ↦
    inFlight_unique hreach hproc hother hflight hotherFlight⟩

/-! ### Queue and keepalive -/

/-- Queue and keepalive exclude each other, including their unwinding workers. -/
theorem modes_exclusive (h : s.Reachable) {key : String} {job : Job} {keepalive : KeepaliveJob}
    (hjob : s.manager.jobs.lookup key = some job)
    (hkeepalive : s.manager.keepalives.lookup key = some keepalive) :
    ¬ ((job.state = .running ∨ 0 < job.workers) ∧
      (keepalive.state ≠ .stopped ∨ 0 < keepalive.workers)) := by
  obtain ⟨cell, hcell⟩ := h.tabled.cell_of_job hjob
  have hexclusive := h.valid.exclusive key cell .queue .keepalive hcell (by decide)
  rw [Manager.track_queue_of_cell hcell hjob, Manager.track_keepalive_of_cell hcell hkeepalive,
    Job.track_busy, KeepaliveJob.track_busy] at hexclusive
  exact hexclusive

omit [Go.NetURL] in
/-- While a queue run is on, the keepalive job of its target is stopped without workers. -/
theorem modes_exclusive_queueAttempt :
    ∃ (s : System) (job : Job) (keepalive : KeepaliveJob), @Reachable Go.NetURL.emptyOnly s ∧
      s.manager.jobs.lookup "a" = some job ∧ s.manager.keepalives.lookup "a" = some keepalive ∧
      job.state = .running ∧ ¬ (keepalive.state ≠ .stopped ∨ 0 < keepalive.workers) := by
  let _ := Go.NetURL.emptyOnly
  obtain ⟨s, hreach, htest⟩ := exists_of_sample queueAttempt
    (fun s ↦ (s.manager.jobs.lookup "a").any (·.state = .running)) (by decide +kernel)
  obtain ⟨job, hjob, hstate⟩ := (Option.any_eq_true _ _).mp htest
  have hstate : job.state = .running := by simpa using hstate
  obtain ⟨keepalive, hkeepalive⟩ := Table.exists_lookup_of_mem
    ((hreach.tabled.keepalives "a").mpr ((hreach.tabled.jobs "a").mp (Table.mem_of_lookup hjob)))
  exact ⟨s, job, keepalive, hreach, hjob, hkeepalive, hstate, fun hbusy ↦
    modes_exclusive hreach hjob hkeepalive ⟨Or.inl hstate, hbusy⟩⟩

/-! ### Ad-hoc requests -/

/-- A target owned by an ad-hoc request has no queue and no keepalive work. -/
def AdhocExclusive (s : System) : Prop :=
  ∀ (key : String) (job : Job) (keepalive : KeepaliveJob) (arbiter : TargetArbiter),
    s.manager.jobs.lookup key = some job → s.manager.keepalives.lookup key = some keepalive →
    s.manager.arbiters.lookup key = some arbiter → arbiter.owner = .adhoc →
    job.state ≠ .running ∧ job.workers = 0 ∧ keepalive.state = .stopped ∧ keepalive.workers = 0

omit [Go.NetURL] in
/-- Where guests are on quiet resources, ad-hoc requests are exclusive. -/
theorem adhocExclusive_of_hospitable (h : s.ledger.Hospitable) : s.AdhocExclusive := by
  intro key job keepalive arbiter hjob hkeepalive harbiter howner
  have hcell : s.ledger.cells key = some (cellOf job keepalive arbiter) :=
    Manager.cell_of hjob hkeepalive harbiter
  have hquiet := h key _ arbiter.ownerRunID hcell
    (TargetArbiter.claim_eq_some.mpr ⟨howner, rfl⟩)
  have hqueue : ¬ job.track.Busy := hquiet .queue
  have hother : ¬ keepalive.track.Busy := hquiet .keepalive
  rw [Job.track_busy] at hqueue
  rw [KeepaliveJob.track_busy] at hother
  push Not at hqueue hother
  exact ⟨hqueue.1, by omega, hother.1, by omega⟩

/-- A step is lawful, and starts no run on a target that an ad-hoc request owns. -/
def Considerate (s : System) (label : Label) : Prop :=
  s.Lawful label ∧ s.Courteous label

omit [Go.NetURL] in
/-- No target of a new system is owned. -/
theorem hospitable_init (settings : Manager.Settings) (targets : List Target) :
    (init settings targets).ledger.Hospitable := by
  intro key cell runID hcell howner
  obtain ⟨i, worker, hworker, -⟩ := (valid_init settings targets).owned key cell _ _ hcell howner
  cases hworker

/-- In runs that start no run on a target while an ad-hoc request owns it, ad-hoc requests exclude
queue and keepalive work in every state. -/
theorem adhoc_exclusive (settings : Manager.Settings) (targets : List Target)
    (hnames : (targets.map fun target ↦ Manager.normalizeName target.name).Nodup)
    (hrun : Steps step Considerate (init settings targets) s) : s.AdhocExclusive := by
  have hall : s.manager.Tabled ∧ s.ledger.Valid ∧ s.ledger.Hospitable := by
    refine hrun.invariant (P := fun s ↦ s.manager.Tabled ∧ s.ledger.Valid ∧ s.ledger.Hospitable)
      ?_ ⟨Manager.tabled_new settings hnames, valid_init settings targets,
        hospitable_init settings targets⟩
    rintro s s' label ⟨htabled, hvalid, hhospitable⟩ ⟨hlawful, hcourteous⟩ hstep
    have hacts := @step_acts _ true _ _ _ htabled hvalid hlawful (fun _ ↦ hcourteous) hstep
    exact ⟨step_tabled htabled hlawful hstep, Act.valid_of_reflTransGen hacts hvalid,
      Act.hospitable_of_reflTransGen hacts hvalid hhospitable⟩
  exact adhocExclusive_of_hospitable hall.2.2

omit [Go.NetURL] in
/-- An ad-hoc request that is accepted on the idle target `a` excludes other work. -/
theorem adhoc_exclusive_accepted :
    ∃ (s : System) (arbiter : TargetArbiter),
      Steps (@step Go.NetURL.emptyOnly) Considerate sample s ∧
      s.manager.arbiters.lookup "a" = some arbiter ∧ arbiter.owner = .adhoc ∧
      s.AdhocExclusive := by
  let _ := Go.NetURL.emptyOnly
  obtain ⟨s, hstep, htest⟩ := (Option.any_eq_true
    (fun s : System ↦ (s.manager.arbiters.lookup "a").any (·.owner = .adhoc))
    (sample.step (.runAdhoc 1 0))).mp (by decide +kernel)
  obtain ⟨arbiter, harbiter, howner⟩ := (Option.any_eq_true _ _).mp htest
  have hconsiderate : sample.Considerate (.runAdhoc 1 0) := ⟨trivial, trivial⟩
  have hrun : Steps step Considerate sample s := .single hconsiderate hstep
  exact ⟨s, arbiter, hrun, harbiter, by simpa using howner,
    adhoc_exclusive _ _ (by decide) hrun⟩

/-- The labels by which a manual request on `a` is accepted between `prepareMode` and the last
section of `startQueue`. -/
def overtaken : List Label :=
  [.start ["a"] ⟨"r", "", "", none⟩, .advance 0 {}, .runAdhoc 1 0, .advance 0 {}]

omit [Go.NetURL] in
/-- Not in every reachable state do ad-hoc requests exclude queue and keepalive work. -/
theorem adhoc_not_exclusive :
    ¬ ∀ s : System, @Reachable Go.NetURL.emptyOnly s → s.AdhocExclusive := by
  let _ := Go.NetURL.emptyOnly
  intro hall
  obtain ⟨s, hreach, htest⟩ := exists_of_sample overtaken
    (fun s ↦ (s.manager.arbiters.lookup "a").any (·.owner = .adhoc) &&
      (s.manager.jobs.lookup "a").any (·.state = .running)) (by decide +kernel)
  obtain ⟨hadhoc, hrunning⟩ := Bool.and_eq_true_iff.mp htest
  obtain ⟨arbiter, harbiter, howner⟩ := (Option.any_eq_true _ _).mp hadhoc
  obtain ⟨job, hjob, hstate⟩ := (Option.any_eq_true _ _).mp hrunning
  obtain ⟨keepalive, hkeepalive⟩ := Table.exists_lookup_of_mem
    ((hreach.tabled.keepalives "a").mpr ((hreach.tabled.jobs "a").mp (Table.mem_of_lookup hjob)))
  exact (hall s hreach "a" job keepalive arbiter hjob hkeepalive harbiter (by simpa using howner)).1
    (by simpa using hstate)

end System

end CodexQueueBot.Jobs
