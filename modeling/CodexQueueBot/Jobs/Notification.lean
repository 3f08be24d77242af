import CodexQueueBot.Jobs.Exclusion
import CodexQueueBot.Jobs.Roster

/-!
# Notifications are exact

What the history says about one queue run is a story in three parts: the start, the success and the
notification, each at most once and in this order. The subscribers that are handed to
`notifySuccess` are those whose registration for this run was recorded between its start and its
success, the latest one for each key. A run that does not succeed notifies nobody.
-/

set_option autoImplicit false
set_option relaxedAutoImplicit false

namespace CodexQueueBot.Jobs

open Lib Manager

/-! ### Stories -/

/-- The three parts of the story of a worker. -/
def Happening.milestone (i : Nat) : Happening → Bool
  | .started worker _ _ _ => worker = i
  | .succeeded worker => worker = i
  | .notified worker _ _ => worker = i
  | .subscribed _ _ _ _ | .began _ => false

/-- A part of the history in which nothing of the story of a worker happens. -/
def Quiet (i : Nat) (trace : List Happening) : Prop :=
  ∀ happening ∈ trace, happening.milestone i = false

/-- Quiet parts in a row. -/
theorem Quiet.append {i : Nat} {first second : List Happening} (hfirst : Quiet i first)
    (hsecond : Quiet i second) : Quiet i (first ++ second) := by
  intro happening hmem
  rcases List.mem_append.mp hmem with hmem | hmem
  · exact hfirst happening hmem
  · exact hsecond happening hmem

/-- Nothing happens in no time. -/
theorem Quiet.nil (i : Nat) : Quiet i [] :=
  fun _ hmem ↦ by cases hmem

/-- The story of a queue worker so far. While its run is on, the job has the subscribers that were
registered since its start; after its success they are those it is about to notify. -/
inductive Story (m : Manager) (i : Nat) (w : QueueWorker) : List Happening → Prop
  | started {before during : List Happening} (hbefore : Quiet i before) (hduring : Quiet i during)
      (hpc : w.pc.success = none)
      (hroster : w.pc.leaving = false → ∀ job, m.jobs.lookup w.key = some job →
        job.Current w.runID → job.subscribers = latest (registrations w.key w.runID during)) :
      Story m i w (before ++ .started i .queue w.key w.runID :: during)
  | succeeded {before during after : List Happening} (hbefore : Quiet i before)
      (hduring : Quiet i during) (hafter : Quiet i after) {success : Success}
      (hpc : w.pc.success = some success) (hhanded : success.subscribers =
        Table.values (latest (registrations w.key w.runID during))) :
      Story m i w (before ++ .started i .queue w.key w.runID ::
        (during ++ .succeeded i :: after))
  | notified {before during between after : List Happening} (hbefore : Quiet i before)
      (hduring : Quiet i during) (hbetween : Quiet i between) (hafter : Quiet i after)
      (hpc : w.pc.leaving = true) (message : String) :
      Story m i w (before ++ .started i .queue w.key w.runID :: (during ++ .succeeded i ::
        (between ++ .notified i message
          (Table.values (latest (registrations w.key w.runID during))) :: after)))

variable {m m' : Manager} {i : Nat} {w : QueueWorker} {trace happenings : List Happening}

/-- A story goes on when nothing of it happens and the job follows what is recorded. -/
theorem Story.append (h : Story m i w trace) {pc : QueuePC} (hpc : pc.success = w.pc.success)
    (hleaving : w.pc.leaving = true → pc.leaving = true) (hquiet : Quiet i happenings)
    (hroster : pc.leaving = false → ∀ job', m'.jobs.lookup w.key = some job' →
      job'.Current w.runID → ∃ job, m.jobs.lookup w.key = some job ∧ job.Current w.runID ∧
        job'.subscribers =
          (registrations w.key w.runID happenings).foldl enrol job.subscribers) :
    Story m' i { w with pc } (trace ++ happenings) := by
  cases h with
  | @started before during hbefore hduring hnone hold =>
    rw [List.append_assoc, List.cons_append]
    refine .started hbefore (hduring.append hquiet) (hpc.trans hnone) ?_
    intro hstays job' hjob' hcurrent'
    obtain ⟨job, hjob, hcurrent, heq⟩ := hroster hstays job' hjob' hcurrent'
    have hstayed : w.pc.leaving = false := by
      by_contra hleft
      rw [hleaving (by simpa using hleft)] at hstays
      cases hstays
    rw [heq, hold hstayed job hjob hcurrent, registrations_append, latest_append]
  | @succeeded before during after hbefore hduring hafter success hsome hhanded =>
    rw [List.append_assoc, List.cons_append, List.append_assoc, List.cons_append]
    exact .succeeded hbefore hduring (hafter.append hquiet) (hpc.trans hsome) hhanded
  | @notified before during between after hbefore hduring hbetween hafter hleft message =>
    rw [List.append_assoc, List.cons_append, List.append_assoc, List.cons_append,
      List.append_assoc, List.cons_append]
    exact .notified hbefore hduring hbetween (hafter.append hquiet) (hleaving hleft) message

/-- A worker that is not leaving is alive. -/
theorem QueueWorker.live_of_staying (h : w.pc.leaving = false) : w.view.live = true := by
  obtain ⟨key, runID, context, pc⟩ := w
  cases pc <;> first | rfl | cases h

/-! ### Who records the parts of a story -/

section

variable [Go.NetURL] {next self : Nat} {input : Input} {effect : Effect}

/-- A start that is recorded is that of the next goroutine, which is created with it. -/
theorem Proc.step_started {proc : Proc} (h : proc.step m next self input = some effect)
    {worker : Nat} {mode : Mode} {key : String} {runID : Nat}
    (hmem : .started worker mode key runID ∈ effect.happenings) :
    worker = next ∧ effect.spawned.length = 1 := by
  have hsubscription : ∀ (kind : StartKind) (key' : String) (runID' : Nat),
      .started worker mode key runID ∉ kind.subscription self key' runID' := by
    intro kind key' runID' hmem
    unfold StartKind.subscription at hmem
    split at hmem
    · split_ifs at hmem <;> simp at hmem
    · cases hmem
  cases proc with
  | queue w =>
    obtain ⟨pc, -, hrecords⟩ := QueueWorker.step_records h
    generalize effect.happenings = happenings at hrecords hmem
    cases hrecords <;> simp at hmem
  | keepalive w => rcases KeepaliveWorker.step_records h with heq | ⟨heq, -⟩ <;> simp [heq] at hmem
  | adhoc call => rcases AdhocCall.step_records h with heq | heq <;> simp [heq] at hmem
  | start call =>
    have hacts := StartCall.step_acts h
    cases hacts with
    | passes | refuses => cases hmem
    | joins => exact absurd hmem (hsubscription _ _ _)
    | startsQueue =>
      rcases List.mem_cons.mp hmem with heq | hmem
      · cases heq
        exact ⟨rfl, rfl⟩
      · exact absurd hmem (hsubscription _ _ _)
    | startsKeepalive =>
      cases List.mem_singleton.mp hmem
      exact ⟨rfl, rfl⟩
  | edit call => simp [(EditCall.step_proc h).2.2] at hmem
  | wait call => simp [(WaitCall.step_proc h).2.2.2] at hmem

/-- Only queue workers record a success or a notification. -/
theorem Proc.step_milestone {proc : Proc} (h : proc.step m next self input = some effect)
    {happening : Happening} (hmem : happening ∈ effect.happenings)
    (hmilestone : happening.milestone i = true) (hactor : happening.actor = some i) :
    ∃ w, proc = .queue w := by
  cases proc with
  | queue w => exact ⟨w, rfl⟩
  | keepalive w =>
    rcases KeepaliveWorker.step_records h with heq | ⟨heq, -⟩ <;> rw [heq] at hmem
    · cases hmem
    · rw [List.mem_singleton.mp hmem] at hmilestone
      cases hmilestone
  | adhoc call =>
    rcases AdhocCall.step_records h with heq | heq <;> rw [heq] at hmem
    · cases hmem
    · rw [List.mem_singleton.mp hmem] at hmilestone
      cases hmilestone
  | start call =>
    rw [StartCall.step_actor h happening hmem] at hactor
    cases hactor
  | edit call => simp [(EditCall.step_proc h).2.2] at hmem
  | wait call => simp [(WaitCall.step_proc h).2.2.2] at hmem

end

namespace System

/-- The history tells the story of every queue worker, of no success or notification besides, and
nothing of goroutines that do not exist yet. -/
structure Chronicled (s : System) : Prop where
  stories : ∀ (i : Nat) (w : QueueWorker), s.procs[i]? = some (.queue w) →
    Story s.manager i w s.trace
  others : ∀ (i : Nat), ∀ happening ∈ s.trace, happening.milestone i = true →
    happening.actor = some i → ∃ w, s.procs[i]? = some (.queue w)
  unborn : ∀ i, s.procs.length ≤ i → Quiet i s.trace

variable [Go.NetURL] {s s' : System} {label : Label}

omit [Go.NetURL] in
/-- A part of a story is a start, or is recorded by its worker. -/
theorem milestone_cases {happening : Happening} (h : happening.milestone i = true) :
    (∃ mode key runID, happening = .started i mode key runID) ∨ happening.actor = some i := by
  cases happening with
  | started worker mode key runID =>
    obtain rfl := of_decide_eq_true h
    exact Or.inl ⟨mode, key, runID, rfl⟩
  | succeeded worker | notified worker =>
    obtain rfl := of_decide_eq_true h
    exact Or.inr rfl
  | subscribed | began => cases h

/-- What a step records is part of the story of a worker that moves, or that the step creates. -/
theorem step_milestones (hstep : s.step label = some s') {happenings : List Happening}
    (htrace : s'.trace = s.trace ++ happenings) {happening : Happening}
    (hmem : happening ∈ happenings) (hmilestone : happening.milestone i = true) :
    (i = s.procs.length ∧ i < s'.procs.length) ∨
      (∃ input, label = .advance i input) ∧ happening.actor = some i := by
  obtain ⟨happenings', htrace', hactor⟩ := step_trace hstep
  obtain rfl := List.append_cancel_left (htrace.symm.trans htrace')
  rcases milestone_cases hmilestone with ⟨mode, key, runID, rfl⟩ | hactor'
  · left
    by_cases hcall : ∀ self input, label ≠ .advance self input
    · rw [(step_procs hstep hcall).1, List.self_eq_append_right] at htrace
      rw [htrace] at hmem
      cases hmem
    · push Not at hcall
      obtain ⟨self, input, rfl⟩ := hcall
      obtain ⟨proc, effect, hproc, heffect, rfl⟩ := step_advance hstep
      obtain rfl : effect.happenings = happenings := List.append_cancel_left htrace
      obtain ⟨rfl, hspawned⟩ := Proc.step_started heffect hmem
      refine ⟨rfl, ?_⟩
      show _ < (s.procs.set self effect.proc ++ effect.spawned).length
      rw [List.length_append, List.length_set, hspawned]
      exact Nat.lt_succ_self _
  · exact Or.inr ⟨hactor happening hmem i hactor', hactor'⟩

/-- A job that is on for a worker was on before, with the subscribers that are recorded since. -/
theorem roster_of_follows (h : s.Reachable) {happenings : List Happening}
    (hfollows : s.manager.Follows m' happenings) (hproc : s.procs[i]? = some (.queue w))
    (hlive : w.view.live = true) {job' : Job} (hjob' : m'.jobs.lookup w.key = some job')
    (hcurrent' : job'.Current w.runID) :
    ∃ job, s.manager.jobs.lookup w.key = some job ∧ job.Current w.runID ∧
      job'.subscribers =
        (registrations w.key w.runID happenings).foldl enrol job.subscribers := by
  obtain ⟨job, hjob, ⟨hrunning, hrun, heq⟩ | hnew⟩ :=
    hfollows w.key job' hjob' hcurrent'.2
  · have hid : job.runID = w.runID := hrun.symm.trans hcurrent'.1
    rw [hid] at heq
    exact ⟨job, hjob, ⟨hid, hrunning⟩, heq⟩
  · obtain ⟨cell, hcell⟩ := h.tabled.cell_of_job hjob
    have hle := h.valid.numbered i _ cell .queue (view_getElem? hproc) hlive hcell rfl
    rw [track_queue_of_cell hcell hjob] at hle
    replace hle : w.runID ≤ job.runID := hle
    rw [hcurrent'.1] at hnew
    omega

/-- A step of a queue worker carries its story on. -/
theorem Chronicled.self (h : s.Chronicled) (hreach : s.Reachable) {input : Input}
    {effect : Effect} {w' : QueueWorker} (hproc : s.procs[i]? = some (.queue w))
    (heffect : w.step s.manager i input = some effect) (heq : effect.proc = .queue w')
    (hfollows : s.manager.Follows effect.manager effect.happenings) :
    Story effect.manager i w' (s.trace ++ effect.happenings) := by
  have hstory := h.stories i w hproc
  obtain ⟨pc, hmoved, hrecords⟩ := QueueWorker.step_records heffect
  obtain rfl := Proc.queue.inj (hmoved.symm.trans heq)
  generalize effect.happenings = happenings at hrecords hfollows
  generalize s.trace = trace at hstory
  cases hrecords with
  | nothing hbefore hafter hleaving =>
    refine hstory.append (hafter.trans hbefore.symm) hleaving (.nil i) ?_
    intro hstays job' hjob' hcurrent'
    have hstayed : w.pc.leaving = false := by
      by_contra hleft
      rw [hleaving (by simpa using hleft)] at hstays
      cases hstays
    exact roster_of_follows hreach hfollows hproc (QueueWorker.live_of_staying hstayed) hjob'
      hcurrent'
  | began hpc hafter =>
    have hquiet : Quiet i [.began i] := by
      intro happening hmem
      rw [List.mem_singleton.mp hmem]
      rfl
    refine hstory.append ?_ ?_ hquiet ?_
    · rw [hafter, hpc]
      rfl
    · rw [hpc]
      exact fun hleaving ↦ by cases hleaving
    · intro _ job' hjob' hcurrent'
      refine roster_of_follows hreach hfollows hproc (QueueWorker.live_of_staying ?_) hjob'
        hcurrent'
      rw [hpc]
      rfl
  | @succeeded attempt target hpc job hjob hcurrent success hafter hsubscribers =>
    cases hstory with
    | @started before during hbefore hduring _ hroster =>
      have hhanded : job.subscribers = latest (registrations w.key w.runID during) := by
        refine hroster ?_ job hjob hcurrent
        rw [hpc]
        rfl
      rw [List.append_assoc, List.cons_append]
      refine .succeeded hbefore hduring (.nil i) hafter ?_
      rw [hsubscribers, hhanded]
    | succeeded _ _ _ hsome =>
      rw [hpc] at hsome
      cases hsome
    | notified _ _ _ _ hleaving =>
      rw [hpc] at hleaving
      cases hleaving
  | @notified success hsome hleaving message =>
    cases hstory with
    | started _ _ hnone =>
      rw [hnone] at hsome
      cases hsome
    | @succeeded before during after hbefore hduring hafter success' hsome' hhanded =>
      obtain rfl := Option.some.inj (hsome'.symm.trans hsome)
      rw [hhanded, List.append_assoc, List.cons_append, List.append_assoc, List.cons_append]
      exact .notified hbefore hduring hafter (.nil i) hleaving message
    | notified _ _ _ _ hleft =>
      rw [QueuePC.success_of_leaving hleft] at hsome
      cases hsome

/-- A new queue worker has a story that begins with its start. -/
theorem Chronicled.newborn (h : s.Chronicled) (hreach : s.Reachable) {self : Nat} {input : Input}
    {call : StartCall} {effect : Effect}
    (heffect : call.step s.manager s.procs.length self input = some effect)
    (hspawned : effect.spawned = [.queue w]) :
    Story effect.manager s.procs.length w (s.trace ++ effect.happenings) := by
  have hacts := StartCall.step_acts heffect
  cases hacts with
  | passes | refuses | joins => cases hspawned
  | startsKeepalive => cases hspawned
  | @startsQueue subscriber key rest name job arbiter now m' hkind _ _ hjob hidle hshown =>
    cases hspawned
    refine .started (h.unborn _ le_rfl) ?_ rfl ?_
    · intro happening hmem
      unfold StartKind.subscription at hmem
      split at hmem
      · split_ifs at hmem
        · cases hmem
        · rw [List.mem_singleton.mp hmem]
          rfl
      · cases hmem
    · intro _ job' hjob' _
      have hstarted : job' = startedJob job subscriber s.manager.nextContext now := by
        replace hjob' : m'.jobs.lookup key = some job' := hjob'
        rw [hshown.jobs] at hjob'
        exact (Option.some.inj ((AList.lookup_insert _).symm.trans hjob')).symm
      have hsubscribers : job'.subscribers = (addSubscriberLocked job subscriber).subscribers := by
        rw [hstarted]
        rfl
      rw [hsubscribers, registrations_subscription hkind, addSubscriberLocked_subscribers,
        hreach.tidy key job hjob hidle]
      rfl

/-- A step carries all stories on. -/
theorem Chronicled.step (h : s.Chronicled) (hreach : s.Reachable) (hlawful : s.Lawful label)
    (hstep : s.step label = some s') : s'.Chronicled := by
  obtain ⟨happenings, htrace, hfollows, -⟩ :=
    step_follows hreach.tabled hreach.tidy hlawful hstep
  refine ⟨?_, ?_, ?_⟩
  · intro i w' hproc'
    rcases step_proc_cases hstep hproc' with
      ⟨input, proc, effect, rfl, hproc, heffect, rfl, heq⟩ | ⟨hproc, hother⟩ | ⟨hnew, -⟩
    · obtain ⟨w, _, rfl, -⟩ := Proc.step_queue heffect heq
      obtain rfl : effect.happenings = happenings := List.append_cancel_left htrace
      exact h.self hreach hproc heffect heq hfollows
    · rw [htrace]
      have hquiet : Quiet i happenings := by
        intro happening hmem
        by_contra hmilestone
        rcases step_milestones hstep htrace hmem (by simpa using hmilestone) with
          ⟨rfl, -⟩ | ⟨⟨input, heq⟩, -⟩
        · exact absurd (List.getElem?_eq_some_iff.mp hproc).1 (Nat.lt_irrefl _)
        · exact hother input heq
      refine (h.stories i w' hproc).append rfl id hquiet ?_
      intro hstays job' hjob' hcurrent'
      exact roster_of_follows hreach hfollows hproc (QueueWorker.live_of_staying hstays) hjob'
        hcurrent'
    · obtain ⟨rfl, self, input, call, effect, rfl, -, heffect, rfl, hspawned⟩ :=
        step_newWorker hstep hproc' rfl hnew
      exact h.newborn hreach heffect hspawned
  · intro i happening hmem hmilestone hactor
    rw [htrace] at hmem
    have hqueue : ∃ w, s.procs[i]? = some (.queue w) := by
      rcases List.mem_append.mp hmem with hmem | hmem
      · exact h.others i happening hmem hmilestone hactor
      · obtain ⟨happenings', htrace', hself⟩ := step_trace hstep
        obtain rfl := List.append_cancel_left (htrace.symm.trans htrace')
        obtain ⟨input, rfl⟩ := hself happening hmem i hactor
        obtain ⟨proc, effect, hproc, heffect, rfl⟩ := step_advance hstep
        obtain rfl : effect.happenings = happenings := List.append_cancel_left htrace
        obtain ⟨w, rfl⟩ := Proc.step_milestone heffect hmem hmilestone hactor
        exact ⟨w, hproc⟩
    obtain ⟨w, hproc⟩ := hqueue
    obtain ⟨proc', hproc', rfl | ⟨_, effect, -, heffect, -, rfl⟩⟩ := step_getElem? hstep hproc
    · exact ⟨w, hproc'⟩
    · obtain ⟨pc, heq, -⟩ := QueueWorker.step_proc heffect
      exact ⟨_, heq ▸ hproc'⟩
  · intro i hi
    have hle : s.procs.length ≤ s'.procs.length := length_le_of_step hstep
    rw [htrace]
    refine (h.unborn i (hle.trans hi)).append ?_
    intro happening hmem
    by_contra hmilestone
    rcases step_milestones hstep htrace hmem (by simpa using hmilestone) with
      ⟨rfl, hlt⟩ | ⟨⟨input, rfl⟩, -⟩
    · omega
    · obtain ⟨proc, effect, hproc, -, -⟩ := step_advance hstep
      have hlt := (List.getElem?_eq_some_iff.mp hproc).1
      omega

omit [Go.NetURL] in
/-- A new system has no history. -/
theorem chronicled_init (settings : Settings) (targets : List Target) :
    (init settings targets).Chronicled where
  stories := fun _ _ hproc ↦ by cases hproc
  others := fun _ _ hmem ↦ by cases hmem
  unborn := fun i _ ↦ .nil i

/-- The history tells the stories of the queue workers in every reachable state. -/
theorem Reachable.chronicled (h : s.Reachable) : s.Chronicled := by
  refine h.induct ?_ ?_
  · intro settings targets _
    exact chronicled_init settings targets
  · intro s s' label hreach hs hlawful hstep
    exact hs.step hreach hlawful hstep

/-! ### Exact notifications -/

/-- What is handed over holds one subscriber for each key, the latest of those registered. -/
def Delivers (handed registered : List Subscriber) : Prop :=
  ∃ roster : Table String Subscriber, handed = Table.values roster ∧ ∀ key,
    roster.lookup key =
      (registered.filter fun subscriber ↦ subscriberKey subscriber = key).getLast?

omit [Go.NetURL] in
/-- The subscribers of a roster are the latest ones. -/
theorem delivers_latest (registered : List Subscriber) :
    Delivers (Table.values (latest registered)) registered :=
  ⟨latest registered, rfl, lookup_latest registered⟩

omit [Go.NetURL] in
/-- A part of a story does not happen in quiet times. -/
theorem notMem_of_quiet {happening : Happening} (h : Quiet i trace)
    (hmilestone : happening.milestone i = true) : happening ∉ trace := by
  intro hmem
  rw [h happening hmem] at hmilestone
  cases hmilestone

/-- A queue worker that has succeeded can always notify, and its next step does. -/
theorem step_notifies (hproc : s.procs[i]? = some (.queue w)) {success : Success}
    (hpc : w.pc.success = some success) (input : Input) :
    ∃ s' message, s.step (.advance i input) = some s' ∧
      s'.trace = s.trace ++ [.notified i message success.subscribers] := by
  obtain ⟨key, runID, context, pc⟩ := w
  cases pc with
  | notifySuccess attempt target found =>
    cases hpc
    have hstep : s.step (.advance i input) = some (s.apply i
        { manager := s.manager
          proc := .queue ⟨key, runID, context, .finishWorker⟩
          happenings := [.notified i
            (s.manager.notifySuccess target.name attempt success.elapsed)
                success.subscribers] }) := by
      simp only [System.step, hproc, Option.bind_eq_bind, Option.bind_some]
      rfl
    exact ⟨_, _, hstep, rfl⟩
  | _ => cases hpc

/-- Notifications are exact. A notification is the third and last part of the story of its run,
after one start and one success, and hands over the subscribers registered between these two. A run
that has succeeded has notified, or its next step, which is always possible, does so. A job that is
not running has no subscribers. -/
theorem notified_exactly (h : s.Reachable) :
    (∀ (i : Nat) (message : String) (handed : List Subscriber),
      .notified i message handed ∈ s.trace →
      ∃ (before during between after : List Happening) (key : String) (runID : Nat),
        s.trace = before ++ .started i .queue key runID :: (during ++ .succeeded i ::
          (between ++ .notified i message handed :: after)) ∧
        Quiet i before ∧ Quiet i during ∧ Quiet i between ∧ Quiet i after ∧
        Delivers handed (registrations key runID during)) ∧
    (∀ i : Nat, .succeeded i ∈ s.trace →
      (∃ message handed, .notified i message handed ∈ s.trace) ∨
      ∃ (before during after : List Happening) (key : String) (runID : Nat)
        (handed : List Subscriber),
        s.trace = before ++ .started i .queue key runID :: (during ++ .succeeded i :: after) ∧
        Quiet i before ∧ Quiet i during ∧ Quiet i after ∧
        Delivers handed (registrations key runID during) ∧
        ∀ input, ∃ s' message, s.step (.advance i input) = some s' ∧
          s'.trace = s.trace ++ [.notified i message handed]) ∧
    ∀ (key : String) (job : Job), s.manager.jobs.lookup key = some job →
      job.state ≠ .running → job.subscribers = ∅ := by
  have hmilestone : ∀ (i : Nat) (message : String) (handed : List Subscriber),
      Happening.milestone i (.notified i message handed) = true :=
    fun i _ _ ↦ decide_eq_true rfl
  refine ⟨?_, ?_, h.tidy⟩
  · intro i message handed hmem
    obtain ⟨w, hproc⟩ := h.chronicled.others i _ hmem (hmilestone i message handed) rfl
    have hstory := h.chronicled.stories i w hproc
    generalize s.trace = trace at hmem hstory ⊢
    cases hstory with
    | started hbefore hduring =>
      have hnever := notMem_of_quiet (hbefore.append hduring) (hmilestone i message handed)
      simp only [List.mem_append, List.mem_cons, reduceCtorEq, false_or] at hmem hnever
      exact absurd hmem hnever
    | succeeded hbefore hduring hafter =>
      have hnever := notMem_of_quiet ((hbefore.append hduring).append hafter)
        (hmilestone i message handed)
      simp only [List.mem_append, List.mem_cons, reduceCtorEq, false_or] at hmem hnever
      tauto
    | @notified before during between after hbefore hduring hbetween hafter _ message' =>
      have hnever := notMem_of_quiet (((hbefore.append hduring).append hbetween).append hafter)
        (hmilestone i message handed)
      have hsame : message = message' ∧
          handed = Table.values (latest (registrations w.key w.runID during)) := by
        simp only [List.mem_append, List.mem_cons, reduceCtorEq, false_or, Happening.notified.injEq,
          true_and] at hmem hnever
        tauto
      obtain ⟨rfl, rfl⟩ := hsame
      exact ⟨before, during, between, after, w.key, w.runID, rfl, hbefore, hduring, hbetween,
        hafter, delivers_latest _⟩
  · intro i hmem
    obtain ⟨w, hproc⟩ := h.chronicled.others i _ hmem (decide_eq_true rfl) rfl
    have hstory := h.chronicled.stories i w hproc
    generalize htrace : s.trace = trace at hmem hstory
    cases hstory with
    | @started before during hbefore hduring =>
      have hsuccess : Happening.milestone i (.succeeded i) = true := decide_eq_true rfl
      have hnever := notMem_of_quiet (hbefore.append hduring) hsuccess
      simp only [List.mem_append, List.mem_cons, reduceCtorEq, false_or] at hmem hnever
      exact absurd hmem hnever
    | @succeeded before during after hbefore hduring hafter success hpc hhanded =>
      refine Or.inr ⟨before, during, after, w.key, w.runID, success.subscribers, rfl, hbefore,
        hduring, hafter, ?_, ?_⟩
      · rw [hhanded]
        exact delivers_latest _
      · intro input
        rw [← htrace]
        exact step_notifies hproc hpc input
    | @notified before during between after _ _ _ _ _ message =>
      refine Or.inl ⟨message, Table.values (latest (registrations w.key w.runID during)), ?_⟩
      simp only [List.mem_append, List.mem_cons]
      tauto

/-- The labels by which a queue run on `a` succeeds in its first attempt and notifies. -/
def firstSuccess : List Label :=
  queueAttempt ++ [.advance 1 { result := ⟨true, "", "", 0, "", 0⟩ }, .advance 1 {},
    .advance 1 {}, .advance 1 {}]

omit [Go.NetURL] in
/-- A queue run on `a` that succeeds notifies the one subscriber of its start. -/
theorem notified_exactly_firstSuccess :
    ∃ (s : System) (message : String) (during : List Happening), @Reachable Go.NetURL.emptyOnly s ∧
      .notified 1 message [⟨"r", "", "", none⟩] ∈ s.trace ∧
      Delivers [⟨"r", "", "", none⟩] (registrations "a" 1 during) := by
  let _ := Go.NetURL.emptyOnly
  obtain ⟨s, hreach, htest⟩ := exists_of_sample firstSuccess
    (fun s ↦ s.trace.contains (.notified 1 "✅ a：ok（第 1 次，耗时 不足 1 秒）"
      [⟨"r", "", "", none⟩]) && s.trace.contains (.started 1 .queue "a" 1) &&
      s.trace.all fun
        | .started worker _ key runID => worker = 1 → key = "a" ∧ runID = 1
        | _ => true) (by decide +kernel)
  simp only [Bool.and_eq_true, List.contains_iff_mem, List.all_eq_true] at htest
  obtain ⟨⟨hmem, -⟩, hstarts⟩ := htest
  obtain ⟨before, during, between, after, key, runID, htrace, -, -, -, -, hdelivers⟩ :=
    (notified_exactly hreach).1 1 _ _ hmem
  have hstart : .started 1 .queue key runID ∈ s.trace := by
    rw [htrace]
    simp
  obtain ⟨rfl, rfl⟩ := of_decide_eq_true (hstarts _ hstart) rfl
  exact ⟨s, _, during, hreach, hmem, hdelivers⟩

end System

end CodexQueueBot.Jobs
