import CodexQueueBot.Jobs.Exclusion

/-!
# Activity and the goroutines behind it

Whatever the records of a target say is going on, some goroutine is doing it: a run that is on has
exactly one live worker which carries its number, an owner is exactly one live goroutine that has
taken the target and not yet given it back, and the counts of workers are right. So no target stays
busy after the last goroutine that works on it.

A worker is alive from its creation to `finishQueueWorker` or `finishKeepaliveWorker`, and a
`RunAdhoc` call from its reservation to `finishAdhocRequest`; `view` reads this off the program
point, as it does for the part of the program in which a goroutine holds its target.
-/

set_option autoImplicit false
set_option relaxedAutoImplicit false

namespace CodexQueueBot.Jobs

open Lib

/-- A live queue worker of a target. -/
def Proc.liveQueueWorker (key : String) : Proc → Bool
  | .queue worker => worker.view.live && worker.key = key
  | _ => false

/-- A live keepalive worker of a target. -/
def Proc.liveKeepaliveWorker (key : String) : Proc → Bool
  | .keepalive worker => worker.view.live && worker.key = key
  | _ => false

/-- The run that a worker or a `RunAdhoc` call carries. -/
def Proc.runID : Proc → Nat
  | .queue worker => worker.runID
  | .keepalive worker => worker.runID
  | .adhoc call => call.runID
  | .start _ | .edit _ | .wait _ => 0

/-- A live goroutine that has taken a target for an owner and a run and not yet given it back. -/
def Proc.Holds (proc : Proc) (key : String) (owner : RequestOwner) (runID : Nat) : Prop :=
  proc.view.live = true ∧ proc.view.holds = true ∧ proc.view.key = key ∧
    ownerOf proc.view.claimant = owner ∧ proc.view.runID = runID

/-- The live queue workers of a target are those that serve its queue track. -/
theorem Proc.serves_queue (key : String) (proc : Proc) :
    proc.view.serves key .queue = proc.liveQueueWorker key := by
  cases proc with
  | queue worker => exact Bool.and_true _
  | keepalive worker | adhoc call => exact Bool.and_false _
  | start call | edit call | wait call => rfl

/-- The live keepalive workers of a target are those that serve its keepalive track. -/
theorem Proc.serves_keepalive (key : String) (proc : Proc) :
    proc.view.serves key .keepalive = proc.liveKeepaliveWorker key := by
  cases proc with
  | keepalive worker => exact Bool.and_true _
  | queue worker | adhoc call => exact Bool.and_false _
  | start call | edit call | wait call => rfl

/-- The run of a live worker is that of its view. -/
theorem Proc.view_runID (proc : Proc) : proc.view.runID = proc.runID := by
  cases proc <;> rfl

/-- A live worker of a mode on a target serves it. -/
theorem Worker.serves_iff {worker : Worker String Mode} {key : String} {mode : Mode} :
    worker.serves key mode = true ↔
      worker.live = true ∧ worker.key = key ∧ worker.claimant = .mode mode := by
  simp [Worker.serves, and_assoc]

namespace System

variable {s : System}

/-- A worker of the ledger is the view of a goroutine. -/
theorem exists_proc_of_view {i : Nat} {worker : Worker String Mode}
    (h : s.ledger.workers[i]? = some worker) :
    ∃ proc, s.procs[i]? = some proc ∧ proc.view = worker := by
  rw [show s.ledger.workers = s.procs.map Proc.view from rfl, List.getElem?_map] at h
  exact Option.map_eq_some_iff.mp h

/-- A track that is on is served by exactly one goroutine which carries its run. -/
theorem served_unique (hvalid : s.ledger.Valid) {key : String} {cell : Cell Mode} {mode : Mode}
    (hcell : s.ledger.cells key = some cell) (hon : (cell.track mode).on = true) :
    ∃! i : Nat, ∃ proc : Proc, s.procs[i]? = some proc ∧ proc.view.serves key mode = true ∧
      proc.runID = (cell.track mode).runID := by
  obtain ⟨i, worker, hworker, hlive, -, hkey, hclaimant, hrun, -⟩ :=
    hvalid.served key cell mode hcell hon
  obtain ⟨proc, hproc, rfl⟩ := exists_proc_of_view hworker
  refine ⟨i, ⟨proc, hproc, Worker.serves_iff.mpr ⟨hlive, hkey, hclaimant⟩,
    proc.view_runID ▸ hrun⟩, ?_⟩
  rintro j ⟨other, hother, hserves, hotherRun⟩
  obtain ⟨hotherLive, hotherKey, hotherClaimant⟩ := Worker.serves_iff.mp hserves
  exact hvalid.distinct j i _ _ (view_getElem? hother) hworker hotherLive hlive
    ⟨hotherKey.trans hkey.symm, hotherClaimant.trans hclaimant.symm,
      (other.view_runID.trans hotherRun).trans hrun.symm⟩

/-- An owner is exactly one goroutine that holds the target. -/
theorem owned_unique (hvalid : s.ledger.Valid) {key : String} {cell : Cell Mode}
    {claimant : Claimant Mode} {runID : Nat} (hcell : s.ledger.cells key = some cell)
    (howner : cell.owner = some (claimant, runID)) :
    ∃! i : Nat, ∃ proc : Proc, s.procs[i]? = some proc ∧
      proc.Holds key (ownerOf claimant) runID := by
  obtain ⟨i, worker, hworker, hholds, hkey, hclaimant, hrun⟩ :=
    hvalid.owned key cell claimant runID hcell howner
  obtain ⟨proc, hproc, rfl⟩ := exists_proc_of_view hworker
  have hlive := hvalid.alive i _ hworker (Or.inr (Or.inl hholds))
  refine ⟨i, ⟨proc, hproc, hlive, hholds, hkey, by rw [hclaimant], hrun⟩, ?_⟩
  rintro j ⟨other, hother, hotherLive, hotherHolds, hotherKey, -, hotherRun⟩
  have hotherOwner := hvalid.holding j _ cell (view_getElem? hother) hotherHolds
    (hotherKey ▸ hcell)
  have hotherClaimant := (Prod.mk.inj (Option.some.inj (howner.symm.trans hotherOwner))).1
  exact hvalid.distinct j i _ _ (view_getElem? hother) hworker hotherLive hlive
    ⟨hotherKey.trans hkey.symm, hotherClaimant.symm.trans hclaimant.symm,
      hotherRun.trans hrun.symm⟩

/-- A track counts the goroutines that serve it. -/
theorem workers_counted (hvalid : s.ledger.Valid) {key : String} {cell : Cell Mode} (mode : Mode)
    (hcell : s.ledger.cells key = some cell) :
    (cell.track mode).workers = s.procs.countP fun proc ↦ proc.view.serves key mode := by
  rw [hvalid.counted key cell mode hcell]
  exact List.countP_map

variable [Go.NetURL]

/-- No zombie activity: what the records of a target say is going on is being done by exactly one
live goroutine, and they count its live workers. -/
theorem attended (h : s.Reachable) {key : String} {job : Job} {keepalive : KeepaliveJob}
    {arbiter : TargetArbiter} (hjob : s.manager.jobs.lookup key = some job)
    (hkeepalive : s.manager.keepalives.lookup key = some keepalive)
    (harbiter : s.manager.arbiters.lookup key = some arbiter) :
    (job.state = .running → ∃! i : Nat, ∃ proc : Proc, s.procs[i]? = some proc ∧
      proc.liveQueueWorker key = true ∧ proc.runID = job.runID) ∧
    (keepalive.state ≠ .stopped → ∃! i : Nat, ∃ proc : Proc, s.procs[i]? = some proc ∧
      proc.liveKeepaliveWorker key = true ∧ proc.runID = keepalive.runID) ∧
    (arbiter.owner ≠ .none → ∃! i : Nat, ∃ proc : Proc, s.procs[i]? = some proc ∧
      proc.Holds key arbiter.owner arbiter.ownerRunID) ∧
    job.workers = s.procs.countP (Proc.liveQueueWorker key) ∧
    keepalive.workers = s.procs.countP (Proc.liveKeepaliveWorker key) := by
  have hvalid := h.valid
  have hcell : s.ledger.cells key = some (cellOf job keepalive arbiter) :=
    Manager.cell_of hjob hkeepalive harbiter
  refine ⟨?_, ?_, ?_, ?_, ?_⟩
  · intro hstate
    have hon : ((cellOf job keepalive arbiter).track .queue).on = true := decide_eq_true hstate
    have hunique := served_unique hvalid hcell hon
    simp only [Proc.serves_queue] at hunique
    exact hunique
  · intro hstate
    have hon : ((cellOf job keepalive arbiter).track .keepalive).on = true :=
      decide_eq_true hstate
    have hunique := served_unique hvalid hcell hon
    simp only [Proc.serves_keepalive] at hunique
    exact hunique
  · intro howner
    obtain ⟨⟨claimant, runID⟩, hclaim⟩ :=
      Option.ne_none_iff_exists'.mp (mt TargetArbiter.claim_eq_none.mp howner)
    obtain ⟨hsame, hrun⟩ := TargetArbiter.claim_eq_some.mp hclaim
    rw [hsame, hrun]
    exact owned_unique hvalid hcell hclaim
  · have hcount := workers_counted hvalid .queue hcell
    simp only [Proc.serves_queue] at hcount
    exact hcount
  · have hcount := workers_counted hvalid .keepalive hcell
    simp only [Proc.serves_keepalive] at hcount
    exact hcount

omit [Go.NetURL] in
/-- A queue run on `a` in its first attempt has exactly one live worker, which also holds `a`. -/
theorem attended_queueAttempt :
    ∃ (s : System) (job : Job) (arbiter : TargetArbiter), @Reachable Go.NetURL.emptyOnly s ∧
      s.manager.jobs.lookup "a" = some job ∧ s.manager.arbiters.lookup "a" = some arbiter ∧
      job.state = .running ∧ arbiter.owner = .queue ∧
      (∃! i : Nat, ∃ proc : Proc, s.procs[i]? = some proc ∧ proc.liveQueueWorker "a" = true ∧
        proc.runID = job.runID) ∧
      ∃! i : Nat, ∃ proc : Proc, s.procs[i]? = some proc ∧
        proc.Holds "a" .queue arbiter.ownerRunID := by
  let _ := Go.NetURL.emptyOnly
  obtain ⟨s, hreach, htest⟩ := exists_of_sample queueAttempt
    (fun s ↦ (s.manager.arbiters.lookup "a").any (·.owner = .queue) &&
      (s.manager.jobs.lookup "a").any (·.state = .running)) (by decide +kernel)
  obtain ⟨howned, hrunning⟩ := Bool.and_eq_true_iff.mp htest
  obtain ⟨arbiter, harbiter, howner⟩ := (Option.any_eq_true _ _).mp howned
  obtain ⟨job, hjob, hstate⟩ := (Option.any_eq_true _ _).mp hrunning
  have howner : arbiter.owner = .queue := by simpa using howner
  have hstate : job.state = .running := by simpa using hstate
  obtain ⟨keepalive, hkeepalive⟩ := Table.exists_lookup_of_mem
    ((hreach.tabled.keepalives "a").mpr ((hreach.tabled.jobs "a").mp (Table.mem_of_lookup hjob)))
  obtain ⟨hqueue, -, hholder, -⟩ := attended hreach hjob hkeepalive harbiter
  rw [howner] at hholder
  exact ⟨s, job, arbiter, hreach, hjob, harbiter, hstate, howner, hqueue hstate,
    hholder (by decide)⟩

end System

end CodexQueueBot.Jobs
