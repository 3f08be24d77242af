import CodexQueueBot.Jobs.Broadcasts
import CodexQueueBot.Jobs.Exclusion
import CodexQueueBot.Jobs.Procs

/-!
# What observers are told

Every step of the system discloses what it changes (`step_discloses`), so that an observer whose
channel is still open has been told the present state: the last event that was put into its channel,
or the snapshot that `Observe` returned, shows what `snapshotLocked` would show now. `Told` follows
the last snapshot of an observer along a run, because the channel itself forgets the events that
have been received.
-/

set_option autoImplicit false
set_option relaxedAutoImplicit false

namespace CodexQueueBot.Jobs

open Lib

section

variable [Go.NetURL] {m : Manager} {next self : Nat} {input : Input} {effect : Effect}

open Manager

/-! ### Steps of the goroutines -/

/-- A queue worker discloses its changes. -/
theorem QueueWorker.step_discloses {w : QueueWorker}
    (hoccupied : w.view.live = true → m.Occupied w.key) (h : w.step m self input = some effect) :
    m.Discloses effect.manager := by
  unfold QueueWorker.step at h
  cases hpc : w.pc <;>
    simp only [hpc, Option.bind_eq_bind, Option.bind_eq_some_iff, Prod.exists] at h
  case acquireTarget =>
    obtain ⟨m₁, outcome, hsection, h⟩ := h
    cases outcome <;> cases h <;> exact .acquireQueueTarget hsection
  case acquire =>
    rcases hacquire : m.acquire with ⟨m₁, outcome⟩
    simp only [hacquire] at h
    rcases acquire_cases hacquire with ⟨-, rfl, rfl⟩ | ⟨-, rfl, rfl⟩ <;> cases h
    · exact .of_unseen rfl rfl rfl rfl rfl
    · exact .refl _
  case beginAttempt =>
    obtain ⟨m₁, _ | ⟨attempt, target⟩, hsection, h⟩ := h <;> cases h <;>
      exact .beginAttempt hsection
  case finishProcess =>
    obtain ⟨m₁, hsection, h⟩ := h
    cases h
    exact .of_broadcast hsection rfl
  case markSuccess =>
    have hlive := hoccupied (by simp [view, hpc])
    obtain ⟨m₁, _ | success, hsection, h⟩ := h <;> cases h <;> exact .markSuccess hlive hsection
  case markFailure =>
    obtain ⟨m₁, valid, hsection, h⟩ := h
    cases h
    exact .markFailure (hoccupied (by simp [view, hpc])) hsection
  case releaseTarget =>
    obtain ⟨m₁, hsection, h⟩ := h
    cases h
    exact .of_release (hoccupied (by simp [view, hpc])) (by decide) hsection
  case markCancelled =>
    obtain ⟨m₁, hsection, h⟩ := h
    cases h
    exact .markQueueCancelled (hoccupied (by simp [view, hpc])) hsection
  case finishWorker =>
    obtain ⟨m₁, hsection, h⟩ := h
    cases h
    exact .finishQueueWorker hsection
  case awaitTarget | awaitSlot =>
    obtain ⟨_, -, h⟩ := h
    cases h
    exact .refl _
  case running | notifySuccess | checkContext =>
    cases h
    exact .refl _
  case releaseSlot | workerDone =>
    cases h
    exact .of_unseen rfl rfl rfl rfl rfl
  case exited => cases h

/-- A keepalive worker discloses its changes. -/
theorem KeepaliveWorker.step_discloses {w : KeepaliveWorker}
    (hoccupied : w.view.live = true → m.Occupied w.key) (h : w.step m self input = some effect) :
    m.Discloses effect.manager := by
  unfold KeepaliveWorker.step at h
  cases hpc : w.pc <;>
    simp only [hpc, Option.bind_eq_bind, Option.bind_eq_some_iff, Prod.exists] at h
  case beginRequest =>
    obtain ⟨m₁, outcome, hsection, h⟩ := h
    cases outcome <;> cases h <;> exact .beginKeepaliveRequest hsection
  case acquire =>
    rcases hacquire : m.acquire with ⟨m₁, outcome⟩
    simp only [hacquire] at h
    rcases acquire_cases hacquire with ⟨-, rfl, rfl⟩ | ⟨-, rfl, rfl⟩ <;> cases h
    · exact .of_unseen rfl rfl rfl rfl rfl
    · exact .refl _
  case confirmRequest =>
    obtain ⟨m₁, outcome, hsection, h⟩ := h
    cases outcome <;> cases h <;> exact .confirmKeepaliveRequest hsection
  case finishProcess =>
    obtain ⟨m₁, hsection, h⟩ := h
    cases h
    exact .of_broadcast hsection rfl
  case finishRequest =>
    obtain ⟨m₁, valid, hsection, h⟩ := h
    cases h
    exact .finishKeepaliveRequest (hoccupied (by simp [view, hpc])) hsection
  case markCancelled =>
    obtain ⟨m₁, hsection, h⟩ := h
    cases h
    exact .markKeepaliveCancelled (hoccupied (by simp [view, hpc])) hsection
  case finishWorker =>
    obtain ⟨m₁, hsection, h⟩ := h
    cases h
    exact .finishKeepaliveWorker hsection
  case waitNext =>
    split at h <;> cases h <;> exact .refl _
  case awaitNext =>
    split_ifs at h
    · cases h
      exact .refl _
    · rw [Option.bind_eq_some_iff] at h
      obtain ⟨_, -, h⟩ := h
      cases h
      exact .refl _
  case releaseSlot changed =>
    cases changed <;> cases h <;> exact .of_unseen rfl rfl rfl rfl rfl
  case awaitTarget | awaitSlot =>
    obtain ⟨_, -, h⟩ := h
    cases h
    exact .refl _
  case running | checkContext =>
    cases h
    exact .refl _
  case workerDone =>
    cases h
    exact .of_unseen rfl rfl rfl rfl rfl
  case exited => cases h

/-- A `RunAdhoc` call discloses its changes. -/
theorem AdhocCall.step_discloses {call : AdhocCall} (h : call.step m self input = some effect) :
    m.Discloses effect.manager := by
  unfold AdhocCall.step at h
  cases hpc : call.pc <;>
    simp only [hpc, Option.bind_eq_bind, Option.bind_eq_some_iff, Prod.exists] at h
  case acquire =>
    rcases hacquire : m.acquire with ⟨m₁, outcome⟩
    simp only [hacquire] at h
    rcases acquire_cases hacquire with ⟨-, rfl, rfl⟩ | ⟨-, rfl, rfl⟩ <;> cases h
    · exact .of_unseen rfl rfl rfl rfl rfl
    · exact .refl _
  case confirm =>
    obtain ⟨m₁, confirmed, hsection, h⟩ := h
    split_ifs at h <;> cases h <;> exact .confirmAdhoc hsection
  case finishRequest =>
    obtain ⟨m₁, hsection, h⟩ := h
    cases h
    exact .finishAdhocRequest hsection
  case awaitSlot =>
    obtain ⟨_, -, h⟩ := h
    cases h
    exact .refl _
  case checkContext | running =>
    cases h
    exact .refl _
  case workerDone =>
    cases h
    exact .of_unseen rfl rfl rfl rfl rfl
  case returned => cases h

/-- A `Start` or `StartKeepalive` call discloses its changes. -/
theorem StartCall.step_discloses {call : StartCall} (h : call.step m next self input =
    some effect) :
    m.Discloses effect.manager := by
  cases StartCall.step_takes h with
  | prepared key m₁ outcome pc hsection => exact .prepareMode hsection
  | waited pc => exact .refl _
  | rejected key rest m₁ outcome hpc hremaining hsection =>
    rw [StartCall.conclude_manager]
    cases hkind : call.kind with
    | queue subscriber =>
      rw [hkind] at hsection
      exact .rejectQueue hsection
    | keepalive =>
      rw [hkind] at hsection
      cases hsection
      exact .refl _
  | committed key rest m₁ outcome hpc hremaining hsection =>
    rw [StartCall.conclude_manager]
    cases hkind : call.kind with
    | queue subscriber =>
      rw [hkind] at hsection
      exact .commitQueue hsection
    | keepalive =>
      rw [hkind] at hsection
      exact .commitKeepalive hsection

/-- An `UpdateTarget` or `DeleteTarget` call discloses its changes. -/
theorem EditCall.step_discloses {call : EditCall} (h : call.step m input = some effect) :
    m.Discloses effect.manager := by
  cases EditCall.step_takes h with
  | waited => exact .refl _
  | updated id target m₁ result hsection => exact .updateTarget hsection
  | deleted id m₁ result hsection => exact .deleteTarget hsection

end

namespace System

variable [Go.NetURL] {s s' : System} {label : Label}

/-! ### Steps of the system -/

/-- A target with a live worker is busy whatever its arbiter says. -/
theorem occupied_of_live (h : s.Reachable) {i : Nat} {proc : Proc}
    (hproc : s.procs[i]? = some proc) {mode : Mode} (hmode : proc.view.claimant = .mode mode)
    (hlive : proc.view.live = true) : s.manager.Occupied proc.view.key := by
  intro job keepalive arbiter hjob hkeepalive
  have hworker : s.ledger.workers[i]? = some proc.view := view_getElem? hproc
  obtain ⟨cell, hcell⟩ := h.valid.present i _ hworker hlive
  have hbusy := h.valid.busy_of_live hworker hlive hcell hmode
  cases mode with
  | queue =>
    rw [Manager.track_queue_of_cell hcell hjob, Job.track_busy] at hbusy
    rcases hbusy with hrunning | hworkers
    · simp [Manager.busyRecords, hrunning]
    · simp [Manager.busyRecords, hworkers]
  | keepalive =>
    rw [Manager.track_keepalive_of_cell hcell hkeepalive, KeepaliveJob.track_busy] at hbusy
    rcases hbusy with hon | hworkers
    · simp [Manager.busyRecords, hon]
    · simp [Manager.busyRecords, hworkers]

/-- Every step discloses its changes, except those that act on the observers themselves. -/
theorem step_discloses (h : s.Reachable) (hstep : s.step label = some s')
    (hobserve : ∀ buffer, label ≠ .observe buffer) (hclose : ∀ id, label ≠ .closeSubscription id)
    (hreceive : ∀ id, label ≠ .receive id) : s.manager.Discloses s'.manager := by
  cases label
  case observe buffer => exact absurd rfl (hobserve buffer)
  case closeSubscription id => exact absurd rfl (hclose id)
  case receive id => exact absurd rfl (hreceive id)
  case stop names now =>
    simp only [System.step, Option.map_eq_some_iff] at hstep
    obtain ⟨⟨m₁, result⟩, hsection, rfl⟩ := hstep
    exact .stop hsection
  case runAdhoc id now =>
    simp only [System.step, Option.bind_eq_bind, Option.bind_eq_some_iff, Option.pure_def,
      Prod.exists] at hstep
    obtain ⟨m₁, reserved, hsection, hstep⟩ := hstep
    cases reserved <;> cases hstep <;> exact .reserveAdhoc hsection
  case createTarget target persist =>
    simp only [System.step, Option.map_eq_some_iff] at hstep
    obtain ⟨⟨m₁, result⟩, hsection, rfl⟩ := hstep
    exact .createTarget hsection
  case updateTarget id target now =>
    cases target with
    | none =>
      cases hstep
      exact .refl _
    | some target =>
      obtain ⟨_, _, hsection, -⟩ := editCall_manager hstep
      exact .stopTarget hsection
  case deleteTarget id now =>
    obtain ⟨_, _, hsection, -⟩ := editCall_manager hstep
    exact .stopTarget hsection
  case updateSettings =>
    simp only [System.step, Option.map_eq_some_iff] at hstep
    obtain ⟨m₁, hsection, rfl⟩ := hstep
    exact .updateSettings hsection
  case beginShutdown =>
    cases hstep
    show s.manager.Discloses s.manager.beginShutdown
    unfold Manager.beginShutdown
    split_ifs
    · exact .refl _
    · exact .of_unseen rfl rfl rfl rfl rfl
  case cancelAdhoc call =>
    simp only [System.step] at hstep
    split at hstep <;> cases hstep
    exact .of_unseen rfl rfl rfl rfl rfl
  case advance self input =>
    obtain ⟨proc, effect, hproc, heffect, rfl⟩ := step_advance hstep
    cases proc with
    | queue w => exact QueueWorker.step_discloses (occupied_of_live h hproc rfl) heffect
    | keepalive w => exact KeepaliveWorker.step_discloses (occupied_of_live h hproc rfl) heffect
    | adhoc call => exact AdhocCall.step_discloses heffect
    | start call => exact StartCall.step_discloses heffect
    | edit call => exact EditCall.step_discloses heffect
    | wait call =>
      obtain ⟨heq, -⟩ := WaitCall.step_proc heffect
      show s.manager.Discloses effect.manager
      rw [heq]
      exact .refl _
  case start | startKeepalive | wait =>
    cases hstep
    exact .refl _
  case setMessenger | cancelRoot =>
    cases hstep
    exact .of_unseen rfl rfl rfl rfl rfl

/-! ### The last snapshot of an observer -/

/-- The events that a step has put into the channel of an observer. -/
def enqueued (s s' : System) (i : Nat) : List Event :=
  match s.manager.observers[i]?, s'.manager.observers[i]? with
  | some before, some after => after.buffer.drop before.buffer.length
  | _, _ => []

omit [Go.NetURL] in
/-- The last snapshot after new events. -/
def latestSnapshot (snapshot : ManagerSnapshot) (events : List Event) : ManagerSnapshot :=
  (events.getLast?.map (·.snapshot)).getD snapshot

/-- The last snapshot that an observer was given, along a run from its registration: the one that
`Observe` returned, or that of the last event put into its channel. Observers are counted in the
order of their registration. -/
inductive Told (i : Nat) : System → ManagerSnapshot → Prop
  | observe {s : System} {m : Manager} {buffer : Int} {snapshot : ManagerSnapshot} {id : Nat}
      (hreach : s.Reachable) (hi : i = s.manager.observers.length)
      (hsection : s.manager.observe buffer = some (m, snapshot, id)) :
      Told i (s.withManager m) snapshot
  | step {s s' : System} {label : Label} {snapshot : ManagerSnapshot} (h : Told i s snapshot)
      (hlawful : s.Lawful label) (hstep : s.step label = some s') :
      Told i s' (latestSnapshot snapshot (s.enqueued s' i))

/-- States in which an observer was told something are reachable. -/
theorem Told.reachable {i : Nat} {snapshot : ManagerSnapshot} (h : Told i s snapshot) :
    s.Reachable := by
  induction h with
  | @observe s m buffer snapshot id hreach _ hsection =>
    have hlawful : s.Lawful (.observe buffer) := trivial
    refine hreach.step hlawful ?_
    simp only [System.step, hsection, Option.map_some]
  | step _ hlawful hstep ih => exact ih.step hlawful hstep

omit [Go.NetURL] in
/-- An observer whose channel has not grown was given nothing. -/
theorem enqueued_eq_nil {i : Nat} {before after : Observer}
    (hbefore : s.manager.observers[i]? = some before)
    (hafter : s'.manager.observers[i]? = some after)
    (hle : after.buffer.length ≤ before.buffer.length) : s.enqueued s' i = [] := by
  rw [enqueued, hbefore, hafter]
  exact List.drop_eq_nil_of_le hle

/-- What `Observe` leaves: one more observer. -/
theorem observe_observers {m m' : Manager} {buffer : Int} {snapshot : ManagerSnapshot} {id : Nat}
    (h : m.observe buffer = some (m', snapshot, id)) :
    (∃ observer, m'.observers = m.observers ++ [observer]) ∧
      m'.snapshotLocked = m.snapshotLocked ∧ m'.snapshotLocked = some snapshot := by
  simp only [Manager.observe, Option.bind_eq_bind, Option.bind_eq_some_iff, Option.pure_def] at h
  obtain ⟨shown, hshown, h⟩ := h
  cases h
  exact ⟨⟨_, rfl⟩, rfl, hshown⟩

/-- How a step treats an observer: it leaves it, takes an event out of its channel, removes it, or
gives it an event with the new state. -/
theorem step_observer (h : s.Reachable) (hstep : s.step label = some s') {i : Nat}
    {before : Observer} (hbefore : s.manager.observers[i]? = some before) :
    ∃ after, s'.manager.observers[i]? = some after ∧
      ((after.buffer.length ≤ before.buffer.length ∧ (after.registered = true →
          before.registered = true ∧ s'.manager.snapshotLocked = s.manager.snapshotLocked)) ∨
        ∃ event, after.buffer = before.buffer ++ [event] ∧
          s'.manager.snapshotLocked = some event.snapshot) := by
  have hlt : i < s.manager.observers.length := (List.getElem?_eq_some_iff.mp hbefore).1
  by_cases hobserve : ∃ buffer, label = .observe buffer
  · obtain ⟨buffer, rfl⟩ := hobserve
    simp only [System.step, Option.map_eq_some_iff] at hstep
    obtain ⟨⟨m₁, snapshot, id⟩, hsection, rfl⟩ := hstep
    obtain ⟨⟨observer, hobservers⟩, hsnapshot, -⟩ := observe_observers hsection
    refine ⟨before, ?_, Or.inl ⟨le_rfl, fun hregistered ↦ ⟨hregistered, hsnapshot⟩⟩⟩
    show m₁.observers[i]? = _
    rw [hobservers, List.getElem?_append_left hlt]
    exact hbefore
  by_cases hclose : ∃ id, label = .closeSubscription id
  · obtain ⟨id, rfl⟩ := hclose
    cases hstep
    refine ⟨_, (List.getElem?_map ..).trans (congrArg _ hbefore), Or.inl ?_⟩
    dsimp only
    split_ifs
    · exact ⟨le_rfl, fun hregistered ↦ by cases hregistered⟩
    · exact ⟨le_rfl, fun hregistered ↦ ⟨hregistered, rfl⟩⟩
  by_cases hreceive : ∃ id, label = .receive id
  · obtain ⟨id, rfl⟩ := hreceive
    cases hstep
    refine ⟨_, (List.getElem?_map ..).trans (congrArg _ hbefore), Or.inl ?_⟩
    dsimp only
    split_ifs
    · exact ⟨by simp, fun hregistered ↦ ⟨hregistered, rfl⟩⟩
    · exact ⟨le_rfl, fun hregistered ↦ ⟨hregistered, rfl⟩⟩
  have hdiscloses := step_discloses h hstep (fun buffer heq ↦ hobserve ⟨buffer, heq⟩)
    (fun id heq ↦ hclose ⟨id, heq⟩) fun id heq ↦ hreceive ⟨id, heq⟩
  rcases hdiscloses with ⟨hfeed, hsnapshot⟩ | ⟨event, -, hfeed, hsnapshot⟩
  · refine ⟨before, ?_, Or.inl ⟨le_rfl, fun hregistered ↦ ⟨hregistered, hsnapshot⟩⟩⟩
    rw [(Manager.eq_of_feed hfeed).2.2]
    exact hbefore
  · refine ⟨Manager.publishTo event before, ?_, ?_⟩
    · rw [(Manager.eq_of_feed hfeed).2.2, List.getElem?_map, hbefore]
      rfl
    · unfold Manager.publishTo
      split_ifs with hregistered
      · exact Or.inr ⟨event, rfl, hsnapshot⟩
      · exact Or.inl ⟨le_rfl, fun hstill ↦ by cases hstill⟩
      · exact Or.inl ⟨le_rfl, fun hstill ↦ absurd hstill hregistered⟩

/-- A registered observer was last given a snapshot of the present state. -/
theorem Told.current {i : Nat} {snapshot : ManagerSnapshot} (h : Told i s snapshot) :
    ∃ observer, s.manager.observers[i]? = some observer ∧
      (observer.registered = true → s.manager.snapshotLocked = some snapshot) := by
  induction h with
  | @observe s m buffer snapshot id _ hi hsection =>
    obtain ⟨⟨observer, hobservers⟩, -, hsnapshot⟩ := observe_observers hsection
    refine ⟨observer, ?_, fun _ ↦ hsnapshot⟩
    show m.observers[i]? = _
    rw [hobservers, hi, List.getElem?_concat_length]
  | @step s s' label snapshot htold _ hstep ih =>
    obtain ⟨before, hbefore, hcurrent⟩ := ih
    obtain ⟨after, hafter, hcases⟩ := step_observer htold.reachable hstep hbefore
    refine ⟨after, hafter, fun hregistered ↦ ?_⟩
    rcases hcases with ⟨hle, hkept⟩ | ⟨event, hbuffer, hsnapshot⟩
    · obtain ⟨hstill, hsame⟩ := hkept hregistered
      rw [enqueued_eq_nil hbefore hafter hle, hsame]
      exact hcurrent hstill
    · have henqueued : s.enqueued s' i = [event] := by
        simp [enqueued, hbefore, hafter, hbuffer]
      rw [henqueued, hsnapshot]
      rfl

/-- Only `Observe` adds observers. -/
theorem step_observers_length (h : s.Reachable) (hstep : s.step label = some s')
    (hobserve : ∀ buffer, label ≠ .observe buffer) :
    s'.manager.observers.length = s.manager.observers.length := by
  by_cases hclose : ∃ id, label = .closeSubscription id
  · obtain ⟨id, rfl⟩ := hclose
    cases hstep
    exact List.length_map _
  by_cases hreceive : ∃ id, label = .receive id
  · obtain ⟨id, rfl⟩ := hreceive
    cases hstep
    exact List.length_map _
  rcases step_discloses h hstep hobserve (fun id heq ↦ hclose ⟨id, heq⟩)
    fun id heq ↦ hreceive ⟨id, heq⟩ with ⟨hfeed, -⟩ | ⟨event, -, hfeed, -⟩
  · rw [(Manager.eq_of_feed hfeed).2.2]
  · rw [(Manager.eq_of_feed hfeed).2.2, List.length_map]

omit [Go.NetURL] in
/-- A new system has no observers. -/
theorem init_observers (settings : Manager.Settings) (targets : List Target) :
    (init settings targets).manager.observers = [] := by
  have hfold : ∀ (targets : List Target) (m : Manager),
      (targets.foldl Manager.addTarget m).observers = m.observers := by
    intro targets
    induction targets with
    | nil => exact fun _ ↦ rfl
    | cons target targets ih => exact fun m ↦ ih (m.addTarget target)
  exact hfold targets _

/-- Every observer was given a snapshot. -/
theorem Reachable.told (h : s.Reachable) {i : Nat} {observer : Observer}
    (hobserver : s.manager.observers[i]? = some observer) : ∃ snapshot, Told i s snapshot := by
  have hall : ∀ i < s.manager.observers.length, ∃ snapshot, Told i s snapshot := by
    refine h.induct (P := fun s ↦ ∀ i < s.manager.observers.length, ∃ snapshot, Told i s snapshot)
      ?_ ?_
    · intro settings targets _ i hlt
      rw [init_observers] at hlt
      cases hlt
    · intro s s' label hreach hs hlawful hstep i hlt
      by_cases hold : i < s.manager.observers.length
      · obtain ⟨snapshot, htold⟩ := hs i hold
        exact ⟨_, htold.step hlawful hstep⟩
      · by_cases hobserve : ∃ buffer, label = .observe buffer
        · obtain ⟨buffer, rfl⟩ := hobserve
          simp only [System.step, Option.map_eq_some_iff] at hstep
          obtain ⟨⟨m₁, snapshot, id⟩, hsection, rfl⟩ := hstep
          obtain ⟨⟨observer, hobservers⟩, -⟩ := observe_observers hsection
          have hlength : m₁.observers.length = s.manager.observers.length + 1 := by
            rw [hobservers, List.length_append, List.length_singleton]
          have hi : i = s.manager.observers.length := by
            have : i < m₁.observers.length := hlt
            omega
          exact ⟨snapshot, .observe hreach hi hsection⟩
        · rw [step_observers_length hreach hstep fun buffer heq ↦ hobserve ⟨buffer, heq⟩] at hlt
          exact absurd hlt hold
  exact hall i (List.getElem?_eq_some_iff.mp hobserver).1

/-- No visible change is silent: in every reachable state the last snapshot that a registered
observer was given, by `Observe` or by an event in its channel, is that of the present state. -/
theorem observer_told (h : s.Reachable) {i : Nat} {observer : Observer}
    (hobserver : s.manager.observers[i]? = some observer)
    (hregistered : observer.registered = true) :
    (∃ snapshot, Told i s snapshot) ∧
      ∀ snapshot, Told i s snapshot → s.manager.snapshotLocked = some snapshot := by
  refine ⟨h.told hobserver, fun snapshot htold ↦ ?_⟩
  obtain ⟨found, hfound, hcurrent⟩ := htold.current
  obtain rfl := Option.some.inj (hobserver.symm.trans hfound)
  exact hcurrent hregistered

omit [Go.NetURL] in
/-- An observer that watches the first attempt of a queue run on `a` was last told the present
state. -/
theorem observer_told_queueAttempt :
    ∃ (s : System) (observer : Observer) (snapshot : ManagerSnapshot),
      @Reachable Go.NetURL.emptyOnly s ∧ s.manager.observers[0]? = some observer ∧
      observer.registered = true ∧ 2 ≤ observer.buffer.length ∧
      @Told Go.NetURL.emptyOnly 0 s snapshot ∧
      @Manager.snapshotLocked Go.NetURL.emptyOnly s.manager = some snapshot := by
  let _ := Go.NetURL.emptyOnly
  have heval : (runLabels step calm sample (.observe 0 :: queueAttempt)).any (fun s ↦
      s.manager.observers[0]?.any fun observer : Observer ↦
        observer.registered && decide (2 ≤ observer.buffer.length)) = true := by
    decide +kernel
  obtain ⟨s, hreach, htest⟩ := exists_of_sample _ _ heval
  simp only [Option.any_eq_true, Bool.and_eq_true, decide_eq_true_eq] at htest
  obtain ⟨observer, hobserver, hregistered, hlength⟩ := htest
  obtain ⟨⟨snapshot, htold⟩, hcurrent⟩ := observer_told hreach hobserver hregistered
  exact ⟨s, observer, snapshot, hreach, hobserver, hregistered, hlength, htold,
    hcurrent snapshot htold⟩

end System

end CodexQueueBot.Jobs
