import CodexQueueBot.Jobs.Counting
import CodexQueueBot.Jobs.Intervals
import CodexQueueBot.Jobs.Listing

/-!
# Keepalive requests keep their distance

A keepalive worker draws the time of its next request when it judges the last one, waits for it on a
timer, and may be woken in between because `UpdateSettings` has drawn another time; in front of the
request it waits again for the target and for a slot. Under a clock that does not run backwards, and
as long as the intervals that are set lie between `L` and `U`, every request of a run but the first
begins at least `L` after the last one has ended, and no deadline lies more than `U` ahead
(`keepalives_paced`). A change of the settings can shorten a wait, but not below `L`.
-/

set_option autoImplicit false
set_option relaxedAutoImplicit false

namespace CodexQueueBot.Jobs

open Lib

/-! ### Time -/

/-- The time that a step reads. -/
def Label.time : Label → Option Time
  | .stop _ now | .runAdhoc _ now | .updateTarget _ _ now | .deleteTarget _ now
  | .updateSettings _ _ _ _ now _ => some now
  | .advance _ input => some input.now
  | _ => none

/-- The last time that has been read after a step. -/
def Label.clock (label : Label) (t : Time) : Time :=
  label.time.getD t

/-- An interval whose durations lie between two bounds. -/
structure Within (L U keepaliveMin keepaliveMax : Duration) : Prop where
  lower : L ≤ keepaliveMin
  upper : keepaliveMin ≤ U
  top : keepaliveMax ≤ U

/-- A drawn duration lies between the bounds. -/
theorem Within.randomDuration {L U keepaliveMin keepaliveMax : Duration}
    (h : Within L U keepaliveMin keepaliveMax) (draw : Nat) :
    L ≤ Manager.randomDuration keepaliveMin keepaliveMax draw ∧
      Manager.randomDuration keepaliveMin keepaliveMax draw ≤ U := by
  rcases le_total keepaliveMin keepaliveMax with hle | hle
  · obtain ⟨hlower, hupper⟩ := Manager.randomDuration_mem hle draw
    exact ⟨h.lower.trans hlower, hupper.trans h.top⟩
  · rw [Manager.randomDuration, if_pos hle]
    exact ⟨h.lower, h.upper⟩

/-- The end of the last request of a keepalive run. -/
def KeepaliveJob.lastEnd (keepalive : KeepaliveJob) : Time :=
  max keepalive.lastSuccess keepalive.lastFailure

/-- The end of a request is the last one. -/
theorem KeepaliveJob.lastEnd_judged {keepalive : KeepaliveJob} {now : Time}
    (h : keepalive.lastEnd ≤ now) (success : Bool) (error : String) (nextRequest : Time) :
    (keepalive.judged success error now nextRequest).lastEnd = now := by
  obtain ⟨hsuccess, hfailure⟩ := Int.max_le.mp h
  cases success
  · exact max_eq_right hsuccess
  · exact max_eq_left hfailure

/-! ### Waiting -/

/-- What a keepalive job and the worker of its run know about time: the last request has ended, a
worker that is on its way to the next one has waited, and the deadlines of one that waits are far
enough from the last request and not too far from now. -/
structure KeepaliveJob.Spaced (L U : Duration) (t : Time) (pc : KeepalivePC)
    (keepalive : KeepaliveJob) : Prop where
  ended : keepalive.lastEnd ≤ t
  seeks : pc.seeks = true → keepalive.requests = 0 ∨ keepalive.lastEnd + L ≤ t
  waits : pc = .waitNext ∨ pc.deadline ≠ none →
    keepalive.lastEnd + L ≤ keepalive.nextRequest ∧ keepalive.nextRequest ≤ t + U
  deadline : ∀ nextRequest, pc.deadline = some nextRequest →
    keepalive.lastEnd + L ≤ nextRequest ∧ nextRequest ≤ t + U

section

variable {L U : Duration} {t t' : Time} {m : Manager} {self : Nat} {input : Input}
  {effect : Effect} {key : String} {label : Label}

/-- Time passes. -/
theorem KeepaliveJob.Spaced.later {pc : KeepalivePC} {keepalive : KeepaliveJob}
    (h : keepalive.Spaced L U t pc) (hle : t ≤ t') : keepalive.Spaced L U t' pc where
  ended := h.ended.trans hle
  seeks hseeks := (h.seeks hseeks).imp_right (·.trans hle)
  waits hwaits := (h.waits hwaits).imp_right (·.trans (Int.add_le_add_right hle U))
  deadline nextRequest hdeadline :=
    (h.deadline nextRequest hdeadline).imp_right (·.trans (Int.add_le_add_right hle U))

/-- What others do to the record of a keepalive run keeps the distances. -/
theorem KeepaliveJob.Spaced.kept {pc : KeepalivePC} {keepalive keepalive' : KeepaliveJob}
    (h : keepalive.Spaced L U t pc) (hkept : keepalive.Kept label key keepalive')
    (hle : t ≤ label.clock t)
    (hwithin : ∀ keepaliveMin keepaliveMax maxParallel successMessage now draw,
      label = .updateSettings keepaliveMin keepaliveMax maxParallel successMessage now draw →
      Within L U keepaliveMin keepaliveMax) : keepalive'.Spaced L U (label.clock t) pc := by
  obtain ⟨workers, nextRequest, scheduleChanged, rfl, hnext⟩ := hkept
  have hlater := h.later hle
  refine ⟨hlater.ended, hlater.seeks, fun hwaits ↦ ?_, hlater.deadline⟩
  rcases hnext with rfl | ⟨keepaliveMin, keepaliveMax, maxParallel, successMessage, now, draw,
    rfl, rfl⟩
  · exact hlater.waits hwaits
  · -- A time that is drawn anew is that far from now, and the last request has ended.
    obtain ⟨hlower, hupper⟩ := (hwithin _ _ _ _ _ _ rfl).randomDuration (draw key)
    exact ⟨Int.add_le_add hlater.ended hlower, Int.add_le_add_left hupper now⟩

/-- A step of the worker of a keepalive run keeps the distances. -/
theorem KeepaliveJob.Spaced.takes {w w' : KeepaliveWorker}
    (h : ∀ keepalive, m.keepalives.lookup w.key = some keepalive → keepalive.Current w.runID →
      keepalive.Spaced L U t w.pc) (htakes : w.Takes m self input effect)
    (hproc : effect.proc = .keepalive w') (hle : t ≤ input.now)
    (hwithin : Within L U m.keepaliveMin m.keepaliveMax) {keepalive' : KeepaliveJob}
    (hkeepalive' : effect.manager.keepalives.lookup w.key = some keepalive')
    (hcurrent : keepalive'.Current w.runID) : keepalive'.Spaced L U input.now w'.pc := by
  cases htakes with
  | passed m₁ pc hsame hresult hseeks hdeadline hwaits =>
    cases hproc
    rw [hsame.2] at hkeepalive'
    have hbefore := (h keepalive' hkeepalive' hcurrent).later hle
    refine ⟨hbefore.ended, fun hstill ↦ hbefore.seeks (hseeks hstill), ?_, ?_⟩
    · rintro (heq | hne)
      · exact hbefore.waits (Or.inr (hwaits heq))
      · exact absurd hdeadline hne
    · intro nextRequest hsome
      cases hdeadline.symm.trans hsome
  | watched m₁ keepalive state pc hkeepalive howns hstate hwrote hseeks hafter =>
    cases hproc
    obtain rfl := hwrote.lookup_setKeepalive hkeepalive'
    have hbefore := (h keepalive hkeepalive howns).later hle
    refine ⟨hbefore.ended, fun _ ↦ hbefore.seeks hseeks, ?_, ?_⟩
    · rintro (heq | hne)
      · subst heq
        cases hafter
      · exact absurd (KeepalivePC.deadline_eq_none_of_seeks hafter) hne
    · intro nextRequest hsome
      cases (KeepalivePC.deadline_eq_none_of_seeks hafter).symm.trans hsome
  | began m₁ keepalive hpc hkeepalive howns hwrote =>
    cases hproc
    obtain rfl := hwrote.lookup_setKeepalive hkeepalive'
    have hbefore := (h keepalive hkeepalive howns).later hle
    exact ⟨hbefore.ended, by nofun, by simp [KeepalivePC.deadline], by nofun⟩
  | returned request target hpc =>
    cases hproc
    have hbefore := (h keepalive' hkeepalive' hcurrent).later hle
    exact ⟨hbefore.ended, by nofun, by simp [KeepalivePC.deadline], by nofun⟩
  | judged m₁ keepalive result hpc hkeepalive howns hwrote =>
    cases hproc
    obtain rfl := hwrote.lookup_setKeepalive hkeepalive'
    have hended := ((h keepalive hkeepalive howns).later hle).ended
    have hlast := KeepaliveJob.lastEnd_judged hended result.success
    refine ⟨(hlast _ _).le, by nofun, fun _ ↦ ?_, by nofun⟩
    obtain ⟨hlower, hupper⟩ := hwithin.randomDuration input.draw
    rw [hlast, KeepaliveJob.nextRequest_judged]
    exact ⟨Int.add_le_add_left hlower _, Int.add_le_add_left hupper _⟩
  | scheduled keepalive hpc hkeepalive howns hlate =>
    cases hproc
    have hbefore := (h keepalive hkeepalive howns).later hle
    obtain rfl := Option.some.inj (hkeepalive.symm.trans hkeepalive')
    refine ⟨hbefore.ended, by nofun, fun _ ↦ hbefore.waits (Or.inl hpc), ?_⟩
    intro nextRequest hsome
    cases hsome
    exact hbefore.waits (Or.inl hpc)
  | due keepalive hpc hkeepalive howns hdue =>
    cases hproc
    have hbefore := (h keepalive hkeepalive howns).later hle
    obtain rfl := Option.some.inj (hkeepalive.symm.trans hkeepalive')
    have hwaited := (hbefore.waits (Or.inl hpc)).1.trans hdue
    exact ⟨hbefore.ended, fun _ ↦ Or.inr hwaited, by simp [KeepalivePC.deadline], by nofun⟩
  | fired nextRequest changed hpc hdue =>
    cases hproc
    have hbefore := (h keepalive' hkeepalive' hcurrent).later hle
    have hwaited := (hbefore.deadline nextRequest (by rw [hpc]; rfl)).1.trans hdue
    exact ⟨hbefore.ended, fun _ ↦ Or.inr hwaited, by simp [KeepalivePC.deadline], by nofun⟩
  | cancelled m₁ keepalive holding hpc hkeepalive howns hwrote =>
    obtain rfl := hwrote.lookup_setKeepalive hkeepalive'
    exact absurd rfl hcurrent.2
  | finished m₁ keepalive hpc hkeepalive hwrote =>
    cases hproc
    obtain rfl := hwrote.lookup_setKeepalive hkeepalive'
    have hbefore := (h keepalive hkeepalive hcurrent).later hle
    exact ⟨hbefore.ended, by nofun, by simp [KeepalivePC.deadline], by nofun⟩

end

/-! ### Intervals -/

namespace Manager

/-- The interval between keepalive requests. -/
def interval (m : Manager) : Duration × Duration :=
  (m.keepaliveMin, m.keepaliveMax)

/-- The interval is one of the limits. -/
theorem interval_of_limits {m m' : Manager} (h : m'.limits = m.limits) :
    m'.interval = m.interval :=
  Prod.ext (congrArg Limits.keepaliveMin h) (congrArg Limits.keepaliveMax h)

end Manager

namespace System

variable [Go.NetURL] {s s' : System} {label : Label} {L U : Duration} {t : Time}

/-- Edits of targets leave the limits alone. -/
theorem Edits.limits {m : Manager} (hedits : s.Edits label m) :
    m.limits = s.manager.limits := by
  cases hedits with
  | create hsection =>
    rcases Manager.createTarget_cases hsection with ⟨rfl, -⟩ | ⟨saved, -, -, hshown⟩
    · rfl
    · exact congrArg Prod.snd hshown.frame
  | update hproc hsection =>
    rcases Manager.updateTarget_cases hsection with ⟨rfl, -⟩ |
      ⟨oldKey, saved, m₁, -, -, -, -, -, hmove, hshown⟩
    · rfl
    · have hlimits : m.limits = m₁.limits := congrArg Prod.snd hshown.frame
      rcases hmove with ⟨-, rfl⟩ | ⟨-, hrename⟩
      · exact hlimits
      · obtain ⟨_, _, _, -, -, -, rfl⟩ := Manager.renameTarget_cases hrename
        exact hlimits
  | delete _ hsection =>
    rcases Manager.deleteTarget_cases hsection with ⟨rfl, -⟩ | ⟨key, -, -, -, hshown⟩
    · rfl
    · exact congrArg Prod.snd hshown.frame

/-- Only `UpdateSettings` changes the interval between keepalive requests. -/
theorem step_interval (hstep : s.step label = some s') :
    s'.manager.interval = s.manager.interval ∨
      ∃ keepaliveMin keepaliveMax maxParallel successMessage now draw,
        label = .updateSettings keepaliveMin keepaliveMax maxParallel successMessage now draw ∧
          s'.manager.interval = (keepaliveMin, keepaliveMax) := by
  rcases step_frame hstep with hframe | hedits |
    ⟨keepaliveMin, keepaliveMax, maxParallel, successMessage, now, draw, rfl⟩
  · exact Or.inl (Manager.interval_of_limits (Manager.limits_of_frame hframe))
  · exact Or.inl (Manager.interval_of_limits hedits.limits)
  · simp only [System.step, Option.map_eq_some_iff] at hstep
    obtain ⟨m₁, hsection, rfl⟩ := hstep
    obtain ⟨m₂, m₃, hloop, hlimit, hshown⟩ := Manager.updateSettings_cases hsection
    have hloops := Manager.interval_of_limits (Manager.limits_of_frame hloop.frame)
    have hlast := Manager.interval_of_limits (Manager.limits_of_frame hshown.frame)
    refine Or.inr ⟨_, _, _, _, _, _, rfl, hlast.trans ?_⟩
    rcases hlimit with ⟨rfl, -⟩ | ⟨-, rfl⟩
    · exact hloops
    · exact hloops

/-! ### Runs under a clock -/

/-- A step of the system with the last time that was read. -/
def clockedStep (s : System × Time) (label : Label) : Option (System × Time) :=
  (s.1.step label).map (·, label.clock s.2)

/-- A lawful step that reads no time before the last one, and sets keepalive intervals between the
bounds only. -/
structure Paced (L U : Duration) (s : System × Time) (label : Label) : Prop where
  lawful : s.1.Lawful label
  forward : s.2 ≤ label.clock s.2
  within : ∀ keepaliveMin keepaliveMax maxParallel successMessage now draw,
    label = .updateSettings keepaliveMin keepaliveMax maxParallel successMessage now draw →
    Within L U keepaliveMin keepaliveMax

/-- The records of all keepalive runs and their workers keep the distances. -/
structure Spaced (L U : Duration) (s : System) (t : Time) : Prop where
  reachable : s.Reachable
  begun : 0 ≤ t
  within : Within L U s.manager.keepaliveMin s.manager.keepaliveMax
  runs : ∀ (i : Nat) (w : KeepaliveWorker) (keepalive : KeepaliveJob),
    s.procs[i]? = some (.keepalive w) → w.view.live = true →
    s.manager.keepalives.lookup w.key = some keepalive → keepalive.Current w.runID →
    keepalive.Spaced L U t w.pc

/-- A step keeps the distances. -/
theorem Spaced.step (h : s.Spaced L U t) (hpaced : Paced L U (s, t) label)
    (hstep : s.step label = some s') : s'.Spaced L U (label.clock t) := by
  refine ⟨h.reachable.step hpaced.lawful hstep, h.begun.trans hpaced.forward, ?_, ?_⟩
  · rcases step_interval hstep with hsame | ⟨_, _, _, _, _, _, rfl, hset⟩
    · obtain ⟨hmin, hmax⟩ := Prod.mk.inj hsame
      rw [hmin, hmax]
      exact h.within
    · obtain ⟨hmin, hmax⟩ := Prod.mk.inj hset
      rw [hmin, hmax]
      exact hpaced.within _ _ _ _ _ _ rfl
  · intro i w' keepalive' hproc' hlive hkeepalive' hcurrent
    rcases step_proc_cases hstep hproc' with
      ⟨input, proc, effect, rfl, hproc, heffect, rfl, heq⟩ | ⟨hproc, hstays⟩ | ⟨hnew, hnewborn⟩
    · obtain ⟨w, pc, rfl, rfl⟩ := Proc.step_keepalive heffect heq
      have hbefore := KeepaliveWorker.live_of_step heffect heq hlive
      exact KeepaliveJob.Spaced.takes (fun keepalive ↦ h.runs i w keepalive hproc hbefore)
        (KeepaliveWorker.step_takes heffect) heq hpaced.forward h.within hkeepalive' hcurrent
    · obtain ⟨keepalive, hkeepalive, howns, hkept⟩ := step_keepalive_of_current h.reachable
        hpaced.lawful hstep hproc hlive hstays hkeepalive' hcurrent
      exact (h.runs i w' keepalive hproc hlive hkeepalive howns).kept hkept hpaced.forward
        hpaced.within
    · obtain ⟨keepalive, context, now, rfl⟩ := step_keepalive_of_newborn h.reachable
        hpaced.lawful hstep hproc' hnew hlive hkeepalive' hcurrent
      replace hnewborn : w'.pc = .beginRequest := hnewborn
      rw [hnewborn]
      exact ⟨h.begun.trans hpaced.forward, fun _ ↦ Or.inl rfl, by simp [KeepalivePC.deadline],
        by nofun⟩

/-- A run under a clock keeps the distances. -/
theorem spaced_of_run {settings : Manager.Settings} {targets : List Target}
    (hnames : (targets.map fun target ↦ Manager.normalizeName target.name).Nodup)
    (hwithin : Within L U settings.keepaliveMin settings.keepaliveMax)
    (hrun : Steps clockedStep (Paced L U) (init settings targets, 0) (s, t)) :
    s.Spaced L U t := by
  refine hrun.invariant (P := fun s ↦ s.1.Spaced L U s.2) ?_ ?_
  · rintro ⟨s, t⟩ ⟨s', t'⟩ label hspaced hpaced hstep
    obtain ⟨_, hmoved, heq⟩ := Option.map_eq_some_iff.mp hstep
    cases heq
    exact hspaced.step hpaced hmoved
  · refine ⟨⟨settings, targets, hnames, .refl⟩, le_rfl, ?_,
      fun i w keepalive hproc ↦ by cases hproc⟩
    have hlimits := Manager.limits_new settings targets
    rw [show (init settings targets).manager.keepaliveMin = settings.keepaliveMin from
        congrArg Manager.Limits.keepaliveMin hlimits,
      show (init settings targets).manager.keepaliveMax = settings.keepaliveMax from
        congrArg Manager.Limits.keepaliveMax hlimits]
    exact hwithin

/-- Under a clock that does not run backwards, and as long as keepalive intervals lie between `L`
and `U`, every runner call of a keepalive run but the first begins at least `L` after the last
request of the run has ended. A worker that waits for its next request does so until a time that is
at least `L` after the last request and at most `U` from now. -/
theorem keepalives_paced {settings : Manager.Settings} {targets : List Target}
    (hnames : (targets.map fun target ↦ Manager.normalizeName target.name).Nodup)
    (hwithin : Within L U settings.keepaliveMin settings.keepaliveMax)
    (hrun : Steps clockedStep (Paced L U) (init settings targets, 0) (s, t)) :
    (∀ (i : Nat) (w : KeepaliveWorker) (input : Input) (s' : System),
      s.procs[i]? = some (.keepalive w) → Paced L U (s, t) (.advance i input) →
      s.step (.advance i input) = some s' → s'.calls i = s.calls i + 1 →
      ∃ keepalive, s.manager.keepalives.lookup w.key = some keepalive ∧
        keepalive.Current w.runID ∧ (s.calls i = 0 ∨ keepalive.lastEnd + L ≤ input.now)) ∧
    ∀ (i : Nat) (w : KeepaliveWorker) (keepalive : KeepaliveJob) (nextRequest : Time)
      (changed : Nat), s.procs[i]? = some (.keepalive w) → w.pc = .awaitNext nextRequest changed →
      s.manager.keepalives.lookup w.key = some keepalive → keepalive.Current w.runID →
      keepalive.lastEnd + L ≤ nextRequest ∧ nextRequest ≤ t + U := by
  have hspaced := spaced_of_run hnames hwithin hrun
  refine ⟨?_, ?_⟩
  · intro i w input s' hproc hpaced hstep hcalls
    obtain ⟨proc, effect, hmoved, heffect, rfl⟩ := step_advance hstep
    obtain rfl := Option.some.inj (hproc.symm.trans hmoved)
    rw [calls_apply, Nat.add_left_cancel_iff] at hcalls
    cases KeepaliveWorker.step_takes heffect with
    | began m₁ keepalive hpc hkeepalive howns =>
      have hlive : w.view.live = true := by simp [KeepaliveWorker.view, hpc]
      have hbefore := hspaced.runs i w keepalive hproc hlive hkeepalive howns
      have hcounted := (counted_of_reachable hspaced.reachable).keepalive i w keepalive hproc hlive
        hkeepalive howns
      refine ⟨keepalive, hkeepalive, howns, ?_⟩
      rw [← hcounted]
      exact (hbefore.seeks (by rw [hpc]; rfl)).imp_right (·.trans hpaced.forward)
    | passed | watched | returned | judged | scheduled | due | fired | cancelled | finished =>
      cases hcalls
  · intro i w keepalive nextRequest changed hproc hpc hkeepalive hcurrent
    have hlive : w.view.live = true := by simp [KeepaliveWorker.view, hpc]
    exact (hspaced.runs i w keepalive hproc hlive hkeepalive hcurrent).deadline nextRequest
      (by rw [hpc]; rfl)

omit [Go.NetURL] in
/-- A guard that paced steps pass. -/
def paced (L U : Duration) (s : System × Time) (label : Label) : Bool :=
  s.1.calm label && decide (s.2 ≤ label.clock s.2) && match label with
    | .updateSettings keepaliveMin keepaliveMax _ _ _ _ =>
      decide (L ≤ keepaliveMin) && decide (keepaliveMin ≤ U) && decide (keepaliveMax ≤ U)
    | _ => true

omit [Go.NetURL] in
/-- A step that passes the guard is paced. -/
theorem paced_spec (s : System × Time) (label : Label) (h : paced L U s label = true) :
    Paced L U s label := by
  simp only [paced, Bool.and_eq_true, decide_eq_true_eq] at h
  obtain ⟨⟨hcalm, hforward⟩, hrest⟩ := h
  refine ⟨lawful_of_calm s.1 label hcalm, hforward, ?_⟩
  rintro keepaliveMin keepaliveMax _ _ _ _ rfl
  simp only [Bool.and_eq_true, decide_eq_true_eq] at hrest
  exact ⟨hrest.1.1, hrest.1.2, hrest.2⟩

omit [Go.NetURL] in
/-- The labels by which a keepalive of `a` makes its first request, which ends at time 5, and is
about to begin the next one at time 8. -/
def secondRequest : List Label :=
  [.startKeepalive ["a"], .advance 0 {}, .advance 0 {}, .advance 1 {}, .advance 1 {}, .advance 1 {},
    .advance 1 {}, .advance 1 {}, .advance 1 {}, .advance 1 { now := 5 }, .advance 1 { now := 5 },
    .advance 1 { now := 7 }, .advance 1 { now := 7 }, .advance 1 { now := 8 }]

/-- Whether a goroutine is the worker of a keepalive. -/
def keepsAlive : Proc → Bool
  | .keepalive _ => true
  | _ => false

omit [Go.NetURL] in
/-- The second request of a keepalive begins at time 9, at least the shortest interval after the end
of the first one. -/
theorem keepalives_paced_secondRequest :
    ∃ (s : System) (key : String) (keepalive : KeepaliveJob), @Reachable Go.NetURL.emptyOnly s ∧
      s.manager.keepalives.lookup key = some keepalive ∧ s.calls 1 = 1 ∧
      keepalive.lastEnd + 1 ≤ 9 := by
  let _ := Go.NetURL.emptyOnly
  have heval : (runLabels clockedStep (paced 1 2) (sample, 0) secondRequest).any (fun s ↦
      s.1.procs[1]?.any keepsAlive && s.1.calls 1 == 1 &&
        paced 1 2 s (.advance 1 { now := 9 }) &&
        (s.1.step (.advance 1 { now := 9 })).any (·.calls 1 == 2)) = true := by
    decide +kernel
  obtain ⟨⟨s, t⟩, hrun, htest⟩ := Steps.exists_of_runLabels paced_spec heval
  simp only [Bool.and_eq_true, Option.any_eq_true, beq_iff_eq] at htest
  obtain ⟨⟨⟨⟨proc, hproc, hkeepalive⟩, hfirst⟩, hpaced⟩, s', hstep, hsecond⟩ := htest
  cases proc with
  | keepalive w =>
    have hwithin : Within 1 2 1 2 := ⟨by decide, by decide, by decide⟩
    obtain ⟨keepalive, hlookup, -, hzero | hlate⟩ :=
      (keepalives_paced (by decide +kernel) hwithin hrun).1 1 w { now := 9 } s' hproc
        (paced_spec _ _ hpaced) hstep (by rw [hsecond, hfirst])
    · rw [hfirst] at hzero
      cases hzero
    · have hspaced := spaced_of_run (by decide +kernel) hwithin hrun
      exact ⟨s, w.key, keepalive, hspaced.reachable, hlookup, hfirst, hlate⟩
  | _ => cases hkeepalive

end System

end CodexQueueBot.Jobs
