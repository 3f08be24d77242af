import CodexQueueBot.Jobs.View

/-!
# The critical sections of the workers always have a result

A section has no result where the source would dereference a nil pointer from one of the maps. On
tables in shape, and for a key that has a target, every section of a worker and of a `RunAdhoc` call
has a result, and so has every broadcast. A goroutine is therefore stuck only in one of its waits
(`QueueWorker.enabled`, `KeepaliveWorker.enabled`, `AdhocCall.enabled`).
-/

set_option autoImplicit false
set_option relaxedAutoImplicit false

namespace CodexQueueBot.Jobs

open Lib

namespace Manager

variable {m m' : Manager} {key : String}

/-- The records of a key. -/
structure Recorded (m : Manager) (key : String) : Prop where
  job : ∃ job, m.jobs.lookup key = some job
  keepalive : ∃ keepalive, m.keepalives.lookup key = some keepalive
  arbiter : ∃ arbiter, m.arbiters.lookup key = some arbiter

/-- A key with a target has its records. -/
theorem Tabled.recorded (h : m.Tabled) (hkey : key ∈ m.targets) : m.Recorded key :=
  ⟨Table.exists_lookup_of_mem ((h.jobs key).mpr hkey),
    Table.exists_lookup_of_mem ((h.keepalives key).mpr hkey),
    Table.exists_lookup_of_mem ((h.arbiters key).mpr hkey)⟩

/-- A signal of a recorded target has a result. -/
theorem Recorded.signalTargetLocked (h : m.Recorded key) :
    ∃ m', m.signalTargetLocked key = some m' := by
  obtain ⟨arbiter, harbiter⟩ := h.arbiter
  exact ⟨_, signalTargetLocked_eq harbiter⟩

/-- A release of a recorded target has a result. -/
theorem Recorded.releaseTargetLocked (h : m.Recorded key) (owner : RequestOwner) (runID : Nat) :
    ∃ m', m.releaseTargetLocked key owner runID = some m' := by
  obtain ⟨arbiter, harbiter⟩ := h.arbiter
  simp only [Manager.releaseTargetLocked, harbiter, Option.bind_eq_bind, Option.bind_some,
    Option.pure_def]
  split_ifs
  · exact ⟨_, rfl⟩
  · exact ⟨_, signalTargetLocked_eq (AList.lookup_insert _)⟩

section

variable [Go.NetURL]

/-- Every entry of the snapshot has a result. -/
theorem Tabled.targetSnapshot (h : m.Tabled) (hkey : key ∈ m.targets) :
    ∃ snapshot, m.targetSnapshot key = some snapshot := by
  obtain ⟨⟨job, hjob⟩, ⟨keepalive, hkeepalive⟩, ⟨arbiter, harbiter⟩⟩ := h.recorded hkey
  simp only [Manager.targetSnapshot, hjob, hkeepalive, harbiter, Option.bind_eq_bind,
    Option.bind_some, Option.pure_def]
  exact ⟨_, rfl⟩

/-- The snapshot of tables in shape has a result. -/
theorem Tabled.snapshotLocked (h : m.Tabled) : ∃ snapshot, m.snapshotLocked = some snapshot := by
  have hall : ∀ keys : List String, (∀ key ∈ keys, key ∈ m.targets) →
      ∃ snapshots, keys.mapM m.targetSnapshot = some snapshots := by
    intro keys
    induction keys with
    | nil => exact fun _ ↦ ⟨[], rfl⟩
    | cons key keys ih =>
      intro hkeys
      obtain ⟨snapshot, hsnapshot⟩ := h.targetSnapshot (hkeys key List.mem_cons_self)
      obtain ⟨snapshots, hsnapshots⟩ := ih fun other hother ↦
        hkeys other (List.mem_cons_of_mem _ hother)
      exact ⟨snapshot :: snapshots, by simp [List.mapM_cons, hsnapshot, hsnapshots]⟩
  obtain ⟨snapshots, hsnapshots⟩ := hall m.order fun key hkey ↦ (h.order key).mp hkey
  simp only [Manager.snapshotLocked, hsnapshots, Option.bind_eq_bind, Option.bind_some,
    Option.pure_def]
  exact ⟨_, rfl⟩

/-- A broadcast of tables in shape has a result. -/
theorem Tabled.broadcastStateLocked (h : m.Tabled) : ∃ m', m.broadcastStateLocked = some m' := by
  have htabled : { m with nextEventID := m.nextEventID + 1 }.Tabled := h.of_domain rfl
  obtain ⟨snapshot, hsnapshot⟩ := htabled.snapshotLocked
  simp only [Manager.broadcastStateLocked, hsnapshot, Option.bind_eq_bind, Option.bind_some,
    Option.pure_def]
  exact ⟨_, rfl⟩

/-- A broadcast of a manager with the same frame has a result. -/
theorem Tabled.broadcast_of_frame (h : m.Tabled) (m' : Manager)
    (hframe : m'.frame = m.frame) : ∃ m'', m'.broadcastStateLocked = some m'' :=
  (h.of_domain (domain_of_frame hframe)).broadcastStateLocked

omit [Go.NetURL] in
/-- A key with a target keeps its records where the frame is kept. -/
theorem Tabled.recorded_of_frame (h : m.Tabled) (hkey : key ∈ m.targets) (m' : Manager)
    (hframe : m'.frame = m.frame) : m'.Recorded key := by
  refine (h.of_domain (domain_of_frame hframe)).recorded ?_
  have htargets : m'.targets = m.targets := congrArg Domain.targets (domain_of_frame hframe)
  rwa [htargets]

/-! ### Sections of queue workers -/

omit [Go.NetURL] in
/-- The section of `acquireQueueTarget` has a result. -/
theorem Tabled.acquireQueueTarget (h : m.Tabled) (hkey : key ∈ m.targets) (runID : Nat) :
    ∃ outcome, m.acquireQueueTarget key runID = some outcome := by
  obtain ⟨⟨job, hjob⟩, -, ⟨arbiter, harbiter⟩⟩ := h.recorded hkey
  simp only [Manager.acquireQueueTarget, hjob, harbiter, Option.bind_eq_bind, Option.bind_some,
    Option.pure_def]
  split_ifs <;> exact ⟨_, rfl⟩

/-- `beginAttempt` has a result. -/
theorem Tabled.beginAttempt (h : m.Tabled) (hkey : key ∈ m.targets) (runID : Nat)
    (now : Time) :
    ∃ outcome, m.beginAttempt key runID now = some outcome := by
  obtain ⟨⟨job, hjob⟩, -, ⟨arbiter, harbiter⟩⟩ := h.recorded hkey
  simp only [Manager.beginAttempt, hjob, harbiter, Option.bind_eq_bind, Option.bind_some,
    Option.pure_def]
  split_ifs
  · exact ⟨_, rfl⟩
  · obtain ⟨m₁, hshown⟩ := h.broadcast_of_frame { m.setJob key (job.attempted now) with
      currentProcesses := m.currentProcesses + 1 } (frame_setJob hjob _)
    rw [hshown]
    exact ⟨_, rfl⟩

/-- `finishProcess` has a result. -/
theorem Tabled.finishProcess (h : m.Tabled) : ∃ m', m.finishProcess = some m' :=
  h.broadcast_of_frame _ rfl

/-- A release of a target and a broadcast after an update that keeps the frame have results. -/
theorem Tabled.release_broadcast (h : m.Tabled) (hkey : key ∈ m.targets) (m' : Manager)
    (hframe : m'.frame = m.frame) (owner : RequestOwner) (runID : Nat) :
    ∃ m₁ m₂, m'.releaseTargetLocked key owner runID = some m₁ ∧
      m₁.broadcastStateLocked = some m₂ := by
  obtain ⟨m₁, hrelease⟩ := (h.recorded_of_frame hkey m' hframe).releaseTargetLocked owner runID
  obtain ⟨m₂, hshown⟩ := h.broadcast_of_frame m₁ ((frame_of_release hrelease).trans hframe)
  exact ⟨m₁, m₂, hrelease, hshown⟩

/-- A signal of a target and a broadcast after an update that keeps the frame have results. -/
theorem Tabled.signal_broadcast (h : m.Tabled) (hkey : key ∈ m.targets) (m' : Manager)
    (hframe : m'.frame = m.frame) :
    ∃ m₁ m₂, m'.signalTargetLocked key = some m₁ ∧ m₁.broadcastStateLocked = some m₂ := by
  obtain ⟨m₁, hsignal⟩ := (h.recorded_of_frame hkey m' hframe).signalTargetLocked
  obtain ⟨m₂, hshown⟩ := h.broadcast_of_frame m₁ ((frame_of_signal hsignal).trans hframe)
  exact ⟨m₁, m₂, hsignal, hshown⟩

/-- `markFailure` has a result. -/
theorem Tabled.markFailure (h : m.Tabled) (hkey : key ∈ m.targets) (runID : Nat)
    (result : Result) :
    ∃ outcome, m.markFailure key runID result = some outcome := by
  obtain ⟨⟨job, hjob⟩, -, -⟩ := h.recorded hkey
  obtain ⟨m₁, hrelease⟩ := (h.recorded hkey).releaseTargetLocked .queue runID
  obtain ⟨m₂, m₃, hrelease', hshown⟩ := h.release_broadcast hkey
    (m.setJob key (job.failed (sanitizeTargetError (m.target key) result.error)))
    (frame_setJob hjob _) .queue runID
  simp only [Manager.markFailure, hjob, hrelease, hrelease', hshown, Option.bind_eq_bind,
    Option.bind_some, Option.pure_def]
  split_ifs <;> exact ⟨_, rfl⟩

/-- `markSuccess` has a result. -/
theorem Tabled.markSuccess (h : m.Tabled) (hkey : key ∈ m.targets) (runID : Nat)
    (now : Time) :
    ∃ outcome, m.markSuccess key runID now = some outcome := by
  obtain ⟨⟨job, hjob⟩, -, -⟩ := h.recorded hkey
  obtain ⟨m₁, hrelease⟩ := (h.recorded hkey).releaseTargetLocked .queue runID
  obtain ⟨m₂, m₃, hrelease', hshown⟩ := h.release_broadcast hkey
    ((m.setJob key (job.succeeded now)).callCancel job.cancel)
    ((frame_callCancel _).trans (frame_setJob hjob _)) .queue runID
  simp only [Manager.markSuccess, hjob, hrelease, hrelease', hshown, Option.bind_eq_bind,
    Option.bind_some, Option.pure_def]
  split_ifs <;> exact ⟨_, rfl⟩

/-- `markQueueCancelled` has a result. -/
theorem Tabled.markQueueCancelled (h : m.Tabled) (hkey : key ∈ m.targets) (runID : Nat)
    (now : Time) :
    ∃ m', m.markQueueCancelled key runID now = some m' := by
  obtain ⟨⟨job, hjob⟩, -, -⟩ := h.recorded hkey
  obtain ⟨m₁, hrelease⟩ := (h.recorded hkey).releaseTargetLocked .queue runID
  have hjob₁ := hjob
  rw [← releaseTargetLocked_jobs hrelease] at hjob₁
  obtain ⟨m₂, m₃, hsignal, hshown⟩ := h.signal_broadcast hkey (m₁.setJob key (job.cancelled now))
    ((frame_setJob hjob₁ _).trans (frame_of_release hrelease))
  simp only [Manager.markQueueCancelled, hjob, hrelease, hsignal, hshown, Option.bind_eq_bind,
    Option.bind_some, Option.pure_def]
  split_ifs <;> exact ⟨_, rfl⟩

/-- `finishQueueWorker` has a result. -/
theorem Tabled.finishQueueWorker (h : m.Tabled) (key : String) :
    ∃ m', m.finishQueueWorker key = some m' := by
  unfold Manager.finishQueueWorker
  cases hjob : m.jobs.lookup key with
  | none => exact ⟨_, rfl⟩
  | some job =>
    simp only
    split_ifs
    · exact h.broadcast_of_frame _ (frame_setJob hjob _)
    · exact ⟨_, rfl⟩

/-! ### Sections of keepalive workers -/

/-- A keepalive job that changes its state under a condition leaves a result. -/
theorem Tabled.write_state (h : m.Tabled) {keepalive : KeepaliveJob}
    (hkeepalive : m.keepalives.lookup key = some keepalive) {α : Type} (condition : Prop)
    [Decidable condition] (state : KeepaliveState) (outcome : α) :
    ∃ result, ((if condition then
      (m.setKeepalive key { keepalive with state }).broadcastStateLocked else some m).bind
        fun m ↦ some (m, outcome)) = some result := by
  split_ifs
  · obtain ⟨m₁, hshown⟩ := h.broadcast_of_frame (m.setKeepalive key { keepalive with state })
      (frame_setKeepalive hkeepalive _)
    rw [hshown]
    exact ⟨_, rfl⟩
  · exact ⟨_, rfl⟩

/-- The first section of `beginKeepaliveRequest` has a result. -/
theorem Tabled.beginKeepaliveRequest (h : m.Tabled) (hkey : key ∈ m.targets) (runID : Nat) :
    ∃ outcome, m.beginKeepaliveRequest key runID = some outcome := by
  obtain ⟨⟨job, hjob⟩, ⟨keepalive, hkeepalive⟩, ⟨arbiter, harbiter⟩⟩ := h.recorded hkey
  simp only [Manager.beginKeepaliveRequest, hjob, hkeepalive, harbiter, Option.bind_eq_bind,
    Option.bind_some, Option.pure_def]
  by_cases hstale : keepalive.runID ≠ runID ∨ keepalive.state = .stopped
  · rw [if_pos hstale]
    exact ⟨_, rfl⟩
  · rw [if_neg hstale]
    by_cases htaken : job.state = .running ∨ arbiter.owner ≠ .none
    · rw [if_pos htaken]
      exact h.write_state hkeepalive _ _ _
    · rw [if_neg htaken]
      exact h.write_state hkeepalive _ _ _

/-- The second section of `beginKeepaliveRequest` has a result. -/
theorem Tabled.confirmKeepaliveRequest (h : m.Tabled) (hkey : key ∈ m.targets) (runID : Nat)
    (now : Time) :
    ∃ outcome, m.confirmKeepaliveRequest key runID now = some outcome := by
  obtain ⟨⟨job, hjob⟩, ⟨keepalive, hkeepalive⟩, ⟨arbiter, harbiter⟩⟩ := h.recorded hkey
  simp only [Manager.confirmKeepaliveRequest, hjob, hkeepalive, harbiter, Option.bind_eq_bind,
    Option.bind_some, Option.pure_def]
  by_cases hstale : keepalive.runID ≠ runID ∨ keepalive.state = .stopped
  · rw [if_pos hstale]
    exact ⟨_, rfl⟩
  · rw [if_neg hstale]
    by_cases htaken : job.state = .running ∨ arbiter.owner ≠ .none
    · rw [if_pos htaken]
      exact h.write_state hkeepalive _ _ _
    · rw [if_neg htaken]
      have hframe := (frame_setKeepalive (m := m.setArbiter key { arbiter with
        owner := .keepalive, ownerRunID := runID }) hkeepalive (keepalive.requested now)).trans
        (frame_setArbiter harbiter _)
      obtain ⟨m₁, hshown⟩ := h.broadcast_of_frame { (m.setArbiter key { arbiter with
        owner := .keepalive, ownerRunID := runID }).setKeepalive key (keepalive.requested now) with
        currentProcesses := m.currentProcesses + 1 } hframe
      rw [hshown]
      exact ⟨_, rfl⟩

/-- `finishKeepaliveRequest` has a result. -/
theorem Tabled.finishKeepaliveRequest (h : m.Tabled) (hkey : key ∈ m.targets) (runID : Nat)
    (result : Result) (now : Time) (draw : Nat) :
    ∃ outcome, m.finishKeepaliveRequest key runID result now draw = some outcome := by
  obtain ⟨-, ⟨keepalive, hkeepalive⟩, -⟩ := h.recorded hkey
  obtain ⟨m₁, hrelease⟩ := (h.recorded hkey).releaseTargetLocked .keepalive runID
  obtain ⟨m₂, m₃, hrelease', hshown⟩ := h.release_broadcast hkey
    (m.setKeepalive key (keepalive.judged result.success
      (sanitizeTargetError (m.target key) result.error) now
      (now + randomDuration m.keepaliveMin m.keepaliveMax draw)))
    (frame_setKeepalive hkeepalive _) .keepalive runID
  simp only [Manager.finishKeepaliveRequest, hkeepalive, hrelease, hrelease', hshown,
    Option.bind_eq_bind, Option.bind_some, Option.pure_def]
  split_ifs <;> exact ⟨_, rfl⟩

/-- `markKeepaliveCancelled` has a result. -/
theorem Tabled.markKeepaliveCancelled (h : m.Tabled) (hkey : key ∈ m.targets) (runID : Nat)
    (now : Time) :
    ∃ m', m.markKeepaliveCancelled key runID now = some m' := by
  obtain ⟨-, ⟨keepalive, hkeepalive⟩, -⟩ := h.recorded hkey
  obtain ⟨m₁, hrelease⟩ := (h.recorded hkey).releaseTargetLocked .keepalive runID
  have hkeepalive₁ := hkeepalive
  rw [← releaseTargetLocked_keepalives hrelease] at hkeepalive₁
  obtain ⟨m₂, m₃, hsignal, hshown⟩ := h.signal_broadcast hkey
    (m₁.setKeepalive key (keepalive.cancelled now))
    ((frame_setKeepalive hkeepalive₁ _).trans (frame_of_release hrelease))
  simp only [Manager.markKeepaliveCancelled, hkeepalive, hrelease, hsignal, hshown,
    Option.bind_eq_bind, Option.bind_some, Option.pure_def]
  split_ifs <;> exact ⟨_, rfl⟩

/-- `finishKeepaliveWorker` has a result. -/
theorem Tabled.finishKeepaliveWorker (h : m.Tabled) (key : String) :
    ∃ m', m.finishKeepaliveWorker key = some m' := by
  unfold Manager.finishKeepaliveWorker
  cases hkeepalive : m.keepalives.lookup key with
  | none => exact ⟨_, rfl⟩
  | some keepalive =>
    simp only
    split_ifs
    · exact h.broadcast_of_frame _ (frame_setKeepalive hkeepalive _)
    · exact ⟨_, rfl⟩

/-! ### Sections of ad-hoc requests -/

/-- The second section of `RunAdhoc` has a result. -/
theorem Tabled.confirmAdhoc (h : m.Tabled) (key : String) (runID : Nat) :
    ∃ outcome, m.confirmAdhoc key runID = some outcome := by
  unfold Manager.confirmAdhoc
  cases m.arbiters.lookup key with
  | none => exact ⟨_, rfl⟩
  | some arbiter =>
    simp only
    split_ifs
    · exact ⟨_, rfl⟩
    · obtain ⟨m₁, hshown⟩ := h.broadcast_of_frame
        { m with currentProcesses := m.currentProcesses + 1 } rfl
      rw [hshown]
      exact ⟨_, rfl⟩

/-- `finishAdhocRequest` has a result. -/
theorem Tabled.finishAdhocRequest (h : m.Tabled) (key : String) (runID : Nat)
    (slotAcquired processStarted : Bool) :
    ∃ m', m.finishAdhocRequest key runID slotAcquired processStarted = some m' := by
  have hback := @frame_giveBack m slotAcquired processStarted
  unfold Manager.finishAdhocRequest
  simp only
  cases harbiter : ((m.giveBackProcess processStarted).giveBackSlot
      slotAcquired).arbiters.lookup key with
  | none => exact h.broadcast_of_frame _ hback
  | some arbiter =>
    simp only
    split_ifs
    · rw [signalTargetLocked_eq (AList.lookup_insert _)]
      refine h.broadcast_of_frame _ ?_
      refine Eq.trans ?_ hback
      refine (frame_resignalled (AList.lookup_insert _) _).trans ?_
      exact frame_setArbiter harbiter _
    · exact h.broadcast_of_frame _ hback

end

end Manager

/-! ### Enabled goroutines -/

section

variable [Go.NetURL] {m : Manager} {self : Nat}

omit [Go.NetURL] in
/-- A wait on a closed channel is over. -/
theorem waitForChange_of_closed {channel : Nat} (contextDone : Bool)
    (h : m.channelClosed channel = true) :
    waitForChange m contextDone channel .changed = some true := by
  simp [waitForChange, h]

/-- A queue worker can move, unless it has exited or waits on an open channel. -/
theorem QueueWorker.enabled {w : QueueWorker} (h : m.Tabled)
    (hkey : w.view.live = true → w.key ∈ m.targets) (hpc : w.pc ≠ .exited)
    (htarget : ∀ channel, w.pc = .awaitTarget channel → m.channelClosed channel = true)
    (hslot : ∀ channel, w.pc = .awaitSlot channel → m.channelClosed channel = true) :
    ∃ input effect, w.step m self input = some effect := by
  obtain ⟨key, runID, context, pc⟩ := w
  unfold QueueWorker.step
  cases pc with
  | acquireTarget =>
    obtain ⟨⟨m₁, outcome⟩, hsection⟩ := h.acquireQueueTarget (hkey rfl) runID
    refine ⟨{}, ?_⟩
    simp only [hsection, Option.bind_eq_bind, Option.bind_some]
    cases outcome <;> exact ⟨_, rfl⟩
  | awaitTarget channel =>
    refine ⟨{ wake := .changed }, ?_⟩
    simp only [waitForChange_of_closed _ (htarget channel rfl), Option.bind_eq_bind,
      Option.bind_some]
    exact ⟨_, rfl⟩
  | acquire =>
    refine ⟨{}, ?_⟩
    simp only
    split <;> exact ⟨_, rfl⟩
  | awaitSlot channel =>
    refine ⟨{ wake := .changed }, ?_⟩
    simp only [waitForChange_of_closed _ (hslot channel rfl), Option.bind_eq_bind,
      Option.bind_some]
    exact ⟨_, rfl⟩
  | beginAttempt =>
    obtain ⟨⟨m₁, begun⟩, hsection⟩ := h.beginAttempt (hkey rfl) runID 0
    refine ⟨{}, ?_⟩
    simp only [hsection, Option.bind_eq_bind, Option.bind_some]
    cases begun <;> exact ⟨_, rfl⟩
  | finishProcess attempt target result =>
    obtain ⟨m₁, hsection⟩ := h.finishProcess
    refine ⟨{}, ?_⟩
    simp only [hsection, Option.bind_eq_bind, Option.bind_some]
    exact ⟨_, rfl⟩
  | markSuccess attempt target =>
    obtain ⟨⟨m₁, success⟩, hsection⟩ := h.markSuccess (hkey rfl) runID 0
    refine ⟨{}, ?_⟩
    simp only [hsection, Option.bind_eq_bind, Option.bind_some]
    cases success <;> exact ⟨_, rfl⟩
  | markFailure result =>
    obtain ⟨⟨m₁, valid⟩, hsection⟩ := h.markFailure (hkey rfl) runID result
    refine ⟨{}, ?_⟩
    simp only [hsection, Option.bind_eq_bind, Option.bind_some]
    exact ⟨_, rfl⟩
  | releaseTarget =>
    obtain ⟨m₁, hsection⟩ := (h.recorded (hkey rfl)).releaseTargetLocked .queue runID
    refine ⟨{}, ?_⟩
    simp only [hsection, Option.bind_eq_bind, Option.bind_some]
    exact ⟨_, rfl⟩
  | markCancelled holding =>
    obtain ⟨m₁, hsection⟩ := h.markQueueCancelled (hkey rfl) runID 0
    refine ⟨{}, ?_⟩
    simp only [hsection, Option.bind_eq_bind, Option.bind_some]
    exact ⟨_, rfl⟩
  | finishWorker =>
    obtain ⟨m₁, hsection⟩ := h.finishQueueWorker key
    refine ⟨{}, ?_⟩
    simp only [hsection, Option.bind_eq_bind, Option.bind_some]
    exact ⟨_, rfl⟩
  | running | notifySuccess | checkContext | releaseSlot | workerDone => exact ⟨{}, _, rfl⟩
  | exited => exact absurd rfl hpc

/-- A keepalive worker can move, unless it has exited or waits on an open channel; the timer of a
wait for the next request fires. -/
theorem KeepaliveWorker.enabled {w : KeepaliveWorker} (h : m.Tabled)
    (hkey : w.view.live = true → w.key ∈ m.targets) (hpc : w.pc ≠ .exited)
    (htarget : ∀ channel, w.pc = .awaitTarget channel → m.channelClosed channel = true)
    (hslot : ∀ channel, w.pc = .awaitSlot channel → m.channelClosed channel = true) :
    ∃ input effect, w.step m self input = some effect := by
  obtain ⟨key, runID, context, pc⟩ := w
  unfold KeepaliveWorker.step
  cases pc with
  | beginRequest =>
    obtain ⟨⟨m₁, outcome⟩, hsection⟩ := h.beginKeepaliveRequest (hkey rfl) runID
    refine ⟨{}, ?_⟩
    simp only [hsection, Option.bind_eq_bind, Option.bind_some]
    cases outcome <;> exact ⟨_, rfl⟩
  | awaitTarget channel =>
    refine ⟨{ wake := .changed }, ?_⟩
    simp only [waitForChange_of_closed _ (htarget channel rfl), Option.bind_eq_bind,
      Option.bind_some]
    exact ⟨_, rfl⟩
  | acquire =>
    refine ⟨{}, ?_⟩
    simp only
    split <;> exact ⟨_, rfl⟩
  | awaitSlot channel =>
    refine ⟨{ wake := .changed }, ?_⟩
    simp only [waitForChange_of_closed _ (hslot channel rfl), Option.bind_eq_bind,
      Option.bind_some]
    exact ⟨_, rfl⟩
  | confirmRequest =>
    obtain ⟨⟨m₁, outcome⟩, hsection⟩ := h.confirmKeepaliveRequest (hkey rfl) runID 0
    refine ⟨{}, ?_⟩
    simp only [hsection, Option.bind_eq_bind, Option.bind_some]
    cases outcome <;> exact ⟨_, rfl⟩
  | releaseSlot changed => cases changed <;> exact ⟨{}, _, rfl⟩
  | finishProcess result =>
    obtain ⟨m₁, hsection⟩ := h.finishProcess
    refine ⟨{}, ?_⟩
    simp only [hsection, Option.bind_eq_bind, Option.bind_some]
    exact ⟨_, rfl⟩
  | finishRequest result =>
    obtain ⟨⟨m₁, valid⟩, hsection⟩ := h.finishKeepaliveRequest (hkey rfl) runID result 0 0
    refine ⟨{}, ?_⟩
    simp only [hsection, Option.bind_eq_bind, Option.bind_some]
    exact ⟨_, rfl⟩
  | waitNext =>
    refine ⟨{}, ?_⟩
    simp only
    split <;> exact ⟨_, rfl⟩
  | awaitNext nextRequest changed =>
    refine ⟨{ wake := .timer, now := nextRequest }, ?_⟩
    simp only [if_true, le_refl]
    exact ⟨_, rfl⟩
  | markCancelled holding =>
    obtain ⟨m₁, hsection⟩ := h.markKeepaliveCancelled (hkey rfl) runID 0
    refine ⟨{}, ?_⟩
    simp only [hsection, Option.bind_eq_bind, Option.bind_some]
    exact ⟨_, rfl⟩
  | finishWorker =>
    obtain ⟨m₁, hsection⟩ := h.finishKeepaliveWorker key
    refine ⟨{}, ?_⟩
    simp only [hsection, Option.bind_eq_bind, Option.bind_some]
    exact ⟨_, rfl⟩
  | running | checkContext | workerDone => exact ⟨{}, _, rfl⟩
  | exited => exact absurd rfl hpc

/-- A `RunAdhoc` call can move, unless it has returned or waits on an open channel. -/
theorem AdhocCall.enabled {call : AdhocCall} (h : m.Tabled)
    (hpc : ∀ result, call.pc ≠ .returned result)
    (hslot : ∀ channel, call.pc = .awaitSlot channel → m.channelClosed channel = true) :
    ∃ input effect, call.step m self input = some effect := by
  obtain ⟨key, runID, context, target, started, pc⟩ := call
  unfold AdhocCall.step
  cases pc with
  | acquire =>
    refine ⟨{}, ?_⟩
    simp only
    split <;> exact ⟨_, rfl⟩
  | awaitSlot channel =>
    refine ⟨{ wake := .changed }, ?_⟩
    simp only [waitForChange_of_closed _ (hslot channel rfl), Option.bind_eq_bind,
      Option.bind_some]
    exact ⟨_, rfl⟩
  | confirm =>
    obtain ⟨⟨m₁, confirmed⟩, hsection⟩ := h.confirmAdhoc key runID
    refine ⟨{}, ?_⟩
    simp only [hsection, Option.bind_eq_bind, Option.bind_some]
    split_ifs <;> exact ⟨_, rfl⟩
  | finishRequest slotAcquired processStarted result =>
    have htabled : (m.callCancel (some context)).Tabled :=
      h.of_domain (Manager.domain_of_frame (Manager.frame_callCancel _))
    obtain ⟨m₁, hsection⟩ := htabled.finishAdhocRequest key runID slotAcquired processStarted
    refine ⟨{}, ?_⟩
    simp only [hsection, Option.bind_eq_bind, Option.bind_some]
    exact ⟨_, rfl⟩
  | checkContext | running | workerDone => exact ⟨{}, _, rfl⟩
  | returned result => exact absurd rfl (hpc result)

end

end CodexQueueBot.Jobs
