import CodexQueueBot.Lib.ProcessGroup

/-!
# Running a Codex child

`runCommand` starts the child in a process group of its own and waits for it. When the context is
done it sends `SIGTERM` to the group, and `SIGKILL` five seconds later if the child is still not
done. `cmd.Wait` returns when the leader has exited, nobody holds the pipe of its output any more,
and the prompt was copied into the pipe of its input, or nobody is left to read it; its result comes
through the channel `done`. The pipe takes as many bytes as it has room for, and the processes make
room when they read. `SIGTERM` does nothing to a process by itself here: the processes exit, or do
not, as they like.

`runCommand_ends` says which signals are sent and when, that what is returned is the exit of the
leader after all output, and when a call that is cancelled can come to its end without the help of
the child: exactly if no process has escaped from the group that it waits for. A process that only
holds the input is waited for if the rest of the prompt does not fit into the pipe.
-/

set_option autoImplicit false
set_option relaxedAutoImplicit false

namespace CodexQueueBot.Codex

open Lib

/-- `syscall.SIGTERM` and `syscall.SIGKILL`. -/
inductive Signal
  | terminate
  | kill
  deriving DecidableEq, Repr

/-- What `runCommand` returns: the error of `Start`, or what `Wait` says of the leader, whose status
is `-1` after a signal. -/
inductive RunResult
  | notStarted
  | exited (status : ℤ)
  deriving DecidableEq, Repr

/-- Where `runCommand` stands. -/
inductive RunPhase
  | start
  | running
  | grace (deadline : ℕ)
  | killed
  | returned (result : RunResult)
  deriving DecidableEq, Repr

/-- `processShutdownGrace`, in milliseconds. -/
def processShutdownGrace : ℕ :=
  5000

/-- A call of `runCommand`, with the time, the bytes of the input that are left to be written, the
bytes that are in the pipe and those that there is room for, and the signals that were sent. -/
structure Command where
  left : ℕ := 0
  piped : ℕ := 0
  room : ℕ := 0
  now : ℕ := 0
  cancelled : Bool := false
  family : Family := []
  done : Option ℤ := none
  phase : RunPhase := .start
  signals : List (Signal × ℕ) := []
  deriving DecidableEq, Repr

/-- What happens next: time passes, the context is done, a process acts, a process reads a byte of
the input, the child is started with a pipe of some size or cannot be, a byte is written to the
pipe, `Wait` returns, or `runCommand` goes on. -/
inductive RunLabel
  | tick
  | cancel
  | act (act : ProcessAct)
  | read
  | start (size : Option ℕ)
  | feed
  | wait
  | receive
  | terminate
  | kill
  deriving DecidableEq, Repr

namespace Command

/-- `runCommand` waits for the channel `done`. -/
def Listens (s : Command) : Prop :=
  match s.phase with
  | .running => True
  | .grace _ => True
  | .killed => True
  | _ => False

instance (s : Command) : Decidable s.Listens := by
  unfold Listens
  cases s.phase <;> infer_instance

/-- The transition function. -/
def step (s : Command) : RunLabel → Option Command
  | .tick => some { s with now := s.now + 1 }
  | .cancel => some { s with cancelled := true }
  | .act act => do
    let family ← s.family.act act
    return { s with family }
  | .read =>
    if s.family.Reads ∧ 0 < s.piped then some { s with piped := s.piped - 1, room := s.room + 1 }
    else none
  | .start size =>
    if s.phase = .start then
      match size with
      | some room => some { s with family := [{}], room, phase := .running }
      | none => some { s with phase := .returned .notStarted }
    else none
  | .feed =>
    if s.family.Reads ∧ 0 < s.left ∧ 0 < s.room then
      some { s with left := s.left - 1, piped := s.piped + 1, room := s.room - 1 }
    else none
  | .wait => do
    let status ← s.family.leaderStatus
    -- Nobody is left to read when a write fails, which ends the copy as well.
    if s.done.isSome ∨ s.family.Busy (0 < s.left) then none else some { s with done := some status }
  | .receive => do
    let status ← s.done
    if s.Listens then some { s with phase := .returned (.exited status) } else none
  | .terminate =>
    if s.phase = .running ∧ s.cancelled then
      some { s with
        phase := .grace (s.now + processShutdownGrace)
        signals := s.signals ++ [(.terminate, s.now)] }
    else none
  | .kill =>
    match s.phase with
    | .grace deadline =>
      if deadline ≤ s.now then
        some { s with
          family := s.family.kill
          phase := .killed
          signals := s.signals ++ [(.kill, s.now)] }
      else none
    | _ => none

/-- The steps that need neither the child nor its context. -/
def Own (_ : Command) : RunLabel → Prop
  | .tick => True
  | .feed => True
  | .wait => True
  | .receive => True
  | .terminate => True
  | .kill => True
  | _ => False

/-- A process that holds the input keeps the call waiting: the rest of the prompt does not fit into
the pipe. -/
def Stuck (s : Command) : Prop :=
  s.room < s.left

/-- The call has come to its end. -/
def Returned (s : Command) : Prop :=
  ∃ result, s.phase = .returned result

/-! ### The invariant -/

/-- The signals that may have been sent: none, or `SIGTERM` after the context was done, or `SIGKILL`
after it and after the grace. -/
def Signalled (s : Command) : Prop :=
  s.signals = [] ∨ s.cancelled ∧ ∃ sent, s.signals = [(.terminate, sent)] ∨
    ∃ killed, sent + processShutdownGrace ≤ killed ∧
      s.signals = [(.terminate, sent), (.kill, killed)]

/-- What holds where `runCommand` stands. -/
def Stands (s : Command) : Prop :=
  match s.phase with
  | .start => s.family = [] ∧ s.done = none ∧ s.signals = []
  | .running => s.signals = []
  | .grace deadline => s.cancelled ∧ ∃ sent, deadline = sent + processShutdownGrace ∧
      s.signals = [(.terminate, sent)]
  | .killed => s.family.Scattered ∧ s.Signalled
  | .returned .notStarted => s.family = [] ∧ s.signals = []
  | .returned (.exited status) => s.done = some status ∧ s.Signalled

/-- The invariant of a call. -/
structure Sound (s : Command) : Prop where
  done : ∀ status, s.done = some status →
    ¬ s.family.Busy (0 < s.left) ∧ s.family.leaderStatus = some status
  born : s.Listens → s.family ≠ []
  stands : s.Stands

/-- The signals are as they may be. -/
theorem Sound.signalled {s : Command} (h : s.Sound) : s.Signalled := by
  have hstands := h.stands
  unfold Stands at hstands
  split at hstands
  · exact .inl hstands.2.2
  · exact .inl hstands
  · obtain ⟨hcancelled, sent, -, hsignals⟩ := hstands
    exact .inr ⟨hcancelled, sent, .inl hsignals⟩
  · exact hstands.2
  · exact .inl hstands.2
  · exact hstands.2

/-- A call starts sound, whatever it has for the input. -/
theorem sound_initial (left : ℕ) : ({ left } : Command).Sound where
  done := fun status hstatus ↦ by cases hstatus
  born := fun hlistens ↦ hlistens.elim
  stands := ⟨rfl, rfl, rfl⟩

/-- A signal that is sent stays as it is when the context is done, and so do the others. -/
theorem Stands.cancel {s : Command} (h : s.Stands) : { s with cancelled := true }.Stands := by
  obtain ⟨left, piped, room, now, cancelled, family, done, phase, signals⟩ := s
  have hsignalled : Signalled ⟨left, piped, room, now, cancelled, family, done, phase, signals⟩ →
      Signalled ⟨left, piped, room, now, true, family, done, phase, signals⟩ :=
    Or.imp_right fun hsent ↦ ⟨rfl, hsent.2⟩
  cases phase with
  | start => exact h
  | running => exact h
  | grace deadline => exact ⟨rfl, h.2⟩
  | killed => exact ⟨h.1, hsignalled h.2⟩
  | returned result =>
    cases result with
    | notStarted => exact h
    | exited status => exact ⟨h.1, hsignalled h.2⟩

/-- A call stays sound when the context is done. -/
theorem Sound.cancel {s : Command} (h : s.Sound) : { s with cancelled := true }.Sound :=
  ⟨h.done, h.born, h.stands.cancel⟩

/-- What the processes do keeps a call sound. -/
theorem Sound.act {s : Command} {act : ProcessAct} {family : Family} (h : s.Sound)
    (hact : s.family.act act = some family) : { s with family }.Sound where
  done := by
    intro status hstatus
    obtain ⟨hidle, hleader⟩ := h.done status hstatus
    exact ⟨Family.not_busy_act hidle hact, Family.leaderStatus_act hleader hact⟩
  born := by
    rintro - rfl
    rcases Family.act_cases hact with ⟨self, member, hmember, -, hadd⟩ |
      ⟨self, member, new, hmember, -, hset, -⟩
    · exact List.append_ne_nil_of_right_ne_nil _ (List.cons_ne_nil _ _) hadd.symm
    · rw [eq_comm, List.set_eq_nil_iff] at hset
      rw [hset] at hmember
      cases hmember
  stands := by
    have hstands := h.stands
    obtain ⟨left, piped, room, now, cancelled, old, done, phase, signals⟩ := s
    -- Without processes nothing acts.
    have hborn : old ≠ [] := by
      rintro rfl
      rcases Family.act_cases hact with ⟨self, member, hmember, -⟩ | ⟨self, member, new, hmember, -⟩
      · cases hmember
      · cases hmember
    cases phase with
    | start => exact absurd hstands.1 hborn
    | running => exact hstands
    | grace deadline => exact hstands
    | killed => exact ⟨hstands.1.act hact, hstands.2⟩
    | returned result =>
      cases result with
      | notStarted => exact absurd hstands.1 hborn
      | exited status => exact hstands

/-- Every step keeps a call sound. -/
theorem Sound.step {s s' : Command} {label : RunLabel} (h : s.Sound)
    (hstep : s.step label = some s') : s'.Sound := by
  cases label with
  | tick =>
    obtain rfl := Option.some.inj hstep
    exact ⟨h.done, h.born, h.stands⟩
  | cancel =>
    obtain rfl := Option.some.inj hstep
    exact h.cancel
  | act act =>
    obtain ⟨family, hact, hreturn⟩ := Option.bind_eq_some_iff.mp hstep
    obtain rfl := Option.some.inj hreturn
    exact h.act hact
  | read =>
    simp only [Command.step] at hstep
    split_ifs at hstep
    obtain rfl := Option.some.inj hstep
    exact ⟨h.done, h.born, h.stands⟩
  | start size =>
    obtain ⟨left, piped, room, now, cancelled, family, done, phase, signals⟩ := s
    simp only [Command.step] at hstep
    split_ifs at hstep with hphase
    subst hphase
    obtain ⟨rfl, rfl, rfl⟩ := h.stands
    cases size with
    | some size =>
      obtain rfl := Option.some.inj hstep
      exact ⟨fun status hstatus ↦ (by cases hstatus), fun _ ↦ List.cons_ne_nil _ _, rfl⟩
    | none =>
      obtain rfl := Option.some.inj hstep
      exact ⟨fun status hstatus ↦ (by cases hstatus), fun hlistens ↦ hlistens.elim,
        ⟨rfl, rfl⟩⟩
  | feed =>
    simp only [Command.step] at hstep
    split_ifs at hstep
    obtain rfl := Option.some.inj hstep
    refine ⟨fun status hstatus ↦ ?_, h.born, h.stands⟩
    obtain ⟨hidle, hleader⟩ := h.done status hstatus
    exact ⟨fun hbusy ↦ hidle (hbusy.mono fun hleft ↦ Nat.lt_of_lt_of_le hleft (Nat.sub_le _ _)),
      hleader⟩
  | wait =>
    obtain ⟨status, hleader, hsend⟩ := Option.bind_eq_some_iff.mp hstep
    split_ifs at hsend with hbusy
    rw [not_or, Option.not_isSome_iff_eq_none] at hbusy
    obtain rfl := Option.some.inj hsend
    refine ⟨fun other hother ↦ ?_, h.born, ?_⟩
    · obtain rfl := Option.some.inj hother
      exact ⟨hbusy.2, hleader⟩
    · have hstands := h.stands
      obtain ⟨left, piped, room, now, cancelled, family, done, phase, signals⟩ := s
      cases phase with
      | start =>
        obtain ⟨rfl, -⟩ := hstands
        cases hleader
      | returned result =>
        cases result with
        | notStarted => exact hstands
        | exited code => exact absurd (hstands.1.symm.trans hbusy.1) (Option.some_ne_none _)
      | _ => exact hstands
  | receive =>
    obtain ⟨status, hdone, hreturn⟩ := Option.bind_eq_some_iff.mp hstep
    split_ifs at hreturn with hlistens
    obtain rfl := Option.some.inj hreturn
    exact ⟨h.done, fun hlistens ↦ hlistens.elim, hdone, h.signalled⟩
  | terminate =>
    obtain ⟨left, piped, room, now, cancelled, family, done, phase, signals⟩ := s
    simp only [Command.step] at hstep
    split_ifs at hstep with hphase
    obtain ⟨rfl, hcancelled⟩ := hphase
    obtain rfl := Option.some.inj hstep
    obtain rfl : signals = [] := h.stands
    exact ⟨h.done, h.born, hcancelled, now, rfl, rfl⟩
  | kill =>
    obtain ⟨left, piped, room, now, cancelled, family, done, phase, signals⟩ := s
    cases phase with
    | grace deadline =>
      simp only [Command.step] at hstep
      split_ifs at hstep with htimer
      obtain rfl := Option.some.inj hstep
      obtain ⟨hcancelled, sent, rfl, rfl⟩ := h.stands
      refine ⟨fun status hstatus ↦ ?_, fun _ hnil ↦ ?_, Family.scattered_kill family, .inr
        ⟨hcancelled, sent, .inr ⟨now, htimer, rfl⟩⟩⟩
      · obtain ⟨hidle, hleader⟩ := h.done status hstatus
        refine ⟨fun hbusy ↦ hidle (Family.busy_kill_iff.mp hbusy).busy, ?_⟩
        exact Family.leaderStatus_kill hleader
      · exact h.born trivial (List.map_eq_nil_iff.mp hnil)
    | _ => cases hstep

/-! ### How a call ends -/

/-- The steps of the bot leave those that have escaped. -/
theorem escaped_step {s s' : Command} {label : RunLabel} (hown : s.Own label)
    (hstep : s.step label = some s') (h : s.family.Escaped s.Stuck) :
    s'.family.Escaped s'.Stuck := by
  cases label with
  | tick =>
    obtain rfl := Option.some.inj hstep
    exact h
  | feed =>
    simp only [Command.step] at hstep
    split_ifs at hstep with hfeeds
    obtain rfl := Option.some.inj hstep
    -- A byte that is written takes its place in the pipe.
    have hsame : s.Stuck ↔ s.room - 1 < s.left - 1 := by
      unfold Stuck
      omega
    rw [propext hsame] at h
    exact h
  | wait =>
    obtain ⟨status, -, hsend⟩ := Option.bind_eq_some_iff.mp hstep
    split_ifs at hsend
    obtain rfl := Option.some.inj hsend
    exact h
  | receive =>
    obtain ⟨status, -, hreturn⟩ := Option.bind_eq_some_iff.mp hstep
    split_ifs at hreturn
    obtain rfl := Option.some.inj hreturn
    exact h
  | terminate =>
    simp only [Command.step] at hstep
    split_ifs at hstep
    obtain rfl := Option.some.inj hstep
    exact h
  | kill =>
    simp only [Command.step] at hstep
    split at hstep
    · split_ifs at hstep
      obtain rfl := Option.some.inj hstep
      exact Family.escaped_kill_iff.mpr h
    · cases hstep
  | _ => exact hown.elim

/-- The steps of the bot do not touch the context. -/
theorem cancelled_step {s s' : Command} {label : RunLabel} (hown : s.Own label)
    (hstep : s.step label = some s') : s'.cancelled = s.cancelled := by
  cases label with
  | tick =>
    obtain rfl := Option.some.inj hstep
    rfl
  | feed =>
    simp only [Command.step] at hstep
    split_ifs at hstep
    obtain rfl := Option.some.inj hstep
    rfl
  | wait =>
    obtain ⟨status, -, hsend⟩ := Option.bind_eq_some_iff.mp hstep
    split_ifs at hsend
    obtain rfl := Option.some.inj hsend
    rfl
  | receive =>
    obtain ⟨status, -, hreturn⟩ := Option.bind_eq_some_iff.mp hstep
    split_ifs at hreturn
    obtain rfl := Option.some.inj hreturn
    rfl
  | terminate =>
    simp only [Command.step] at hstep
    split_ifs at hstep
    obtain rfl := Option.some.inj hstep
    rfl
  | kill =>
    simp only [Command.step] at hstep
    split at hstep
    · split_ifs at hstep
      obtain rfl := Option.some.inj hstep
      rfl
    · cases hstep
  | _ => exact hown.elim

/-- As long as a process is waited for, the call has not come to its end. -/
theorem Sound.not_returned {s : Command} (h : s.Sound) (hbusy : s.family.Busy (0 < s.left)) :
    ¬ s.Returned := by
  rintro ⟨result, hreturned⟩
  have hstands := h.stands
  unfold Stands at hstands
  rw [hreturned] at hstands
  cases result with
  | notStarted =>
    obtain ⟨self, member, hmember, -⟩ := hbusy
    rw [hstands.1] at hmember
    cases hmember
  | exited status => exact (h.done status hstands.1).1 hbusy

/-- When no process is waited for any more and the copy is through, the call comes to its end. -/
theorem Sound.returns_of_fed {s : Command} (h : s.Sound) (hlistens : s.Listens)
    (hidle : ¬ s.family.Busy (0 < s.left)) : ∃ s', Steps Command.step Own s s' ∧ s'.Returned := by
  have hreceive : ∀ {s : Command} {status : ℤ}, s.done = some status → s.Listens →
      ∃ s', Steps Command.step Own s s' ∧ s'.Returned := by
    intro s status hdone hlistens
    have hstep : s.step .receive = some { s with phase := .returned (.exited status) } := by
      simp only [Command.step, hdone, Option.bind_eq_bind, Option.bind_some, if_pos hlistens]
    exact ⟨_, .single (show Own s .receive from trivial) hstep, _, rfl⟩
  cases hdone : s.done with
  | some status => exact hreceive hdone hlistens
  | none =>
    obtain ⟨status, hstatus⟩ := Family.leaderStatus_of_not_busy (h.born hlistens) hidle
    have hwait : s.step .wait = some { s with done := some status } := by
      simp [Command.step, hstatus, hdone, hidle]
    obtain ⟨s', hsteps, hreturned⟩ := @hreceive { s with done := some status } _ rfl hlistens
    exact ⟨s', (Steps.single (show Own s .wait from trivial) hwait).trans hsteps, hreturned⟩

/-- When no process is waited for any more, the call comes to its end: what is left of the prompt
fits into the pipe, or nobody can read it. -/
theorem Sound.returns_of_idle {s : Command} (h : s.Sound) (hlistens : s.Listens)
    (hidle : ¬ s.family.Busy s.Stuck) : ∃ s', Steps Command.step Own s s' ∧ s'.Returned := by
  induction hleft : s.left generalizing s with
  | zero =>
    refine h.returns_of_fed hlistens fun hbusy ↦ hidle (hbusy.mono fun hpositive ↦ ?_)
    exact absurd hleft (Nat.ne_of_gt hpositive)
  | succ left ih =>
    by_cases hbusy : s.family.Busy (0 < s.left)
    · obtain ⟨hfits, hreads⟩ := hbusy.reads hidle
      have hroom : 0 < s.room := by
        unfold Stuck at hfits
        omega
      have hfeed : s.step .feed = some { s with
          left := s.left - 1
          piped := s.piped + 1
          room := s.room - 1 } :=
        if_pos ⟨hreads, by omega, hroom⟩
      obtain ⟨s', hsteps, hreturned⟩ := ih (h.step hfeed) hlistens
        (fun hstuck ↦ hidle (hstuck.mono fun hlt ↦ by
          unfold Stuck at hlt ⊢
          dsimp only at hlt
          omega))
        (by dsimp only; omega)
      exact ⟨s', (Steps.single (show Own s .feed from trivial) hfeed).trans hsteps, hreturned⟩
    · exact h.returns_of_fed hlistens hbusy

/-- Time passes. -/
theorem steps_tick (s : Command) (count : ℕ) :
    Steps Command.step Own s { s with now := s.now + count } := by
  induction count with
  | zero => exact .refl
  | succ count ih => exact .tail ih (show Own _ .tick from trivial) rfl

/-- After `SIGTERM`, a call comes to its end if nobody has escaped. -/
theorem Sound.returns_of_grace {s : Command} {deadline : ℕ} (h : s.Sound)
    (hphase : s.phase = .grace deadline) (hnone : ¬ s.family.Escaped s.Stuck) :
    ∃ s', Steps Command.step Own s s' ∧ s'.Returned := by
  let late : Command := { s with now := s.now + deadline }
  have hlate : Steps Command.step Own s late := steps_tick s deadline
  have hkill : late.step .kill = some { late with
      family := late.family.kill
      phase := .killed
      signals := late.signals ++ [(.kill, late.now)] } := by
    simp only [Command.step, late, hphase]
    exact if_pos (Nat.le_add_left _ _)
  have hsound : late.Sound := by
    refine hlate.invariant (P := Sound) (fun _ _ _ hsound _ hstep ↦ hsound.step hstep) h
  obtain ⟨s', hsteps, hreturned⟩ := (hsound.step hkill).returns_of_idle trivial
    fun hbusy ↦ hnone (Family.busy_kill_iff.mp hbusy)
  have hkilled := Steps.single (show Own late .kill from trivial) hkill
  exact ⟨s', (hlate.trans hkilled).trans hsteps, hreturned⟩

/-- A cancelled call can come to its end without the help of the processes exactly if none that is
waited for has left the group. -/
theorem Sound.returns_iff {s : Command} (hsound : s.Sound) (hcancelled : s.cancelled)
    (hlistens : s.Listens) :
    (∃ s', Steps Command.step Own s s' ∧ s'.Returned) ↔ ¬ s.family.Escaped s.Stuck := by
  constructor
  · rintro ⟨s', hsteps, hreturned⟩ hescaped
    have hlast : s'.Sound ∧ s'.family.Escaped s'.Stuck := by
      refine hsteps.invariant (P := fun s ↦ s.Sound ∧ s.family.Escaped s.Stuck) ?_
        ⟨hsound, hescaped⟩
      exact fun s s' label h hown hstep ↦ ⟨h.1.step hstep, escaped_step hown hstep h.2⟩
    refine hlast.1.not_returned (hlast.2.busy.mono fun hstuck ↦ ?_) hreturned
    exact Nat.lt_of_le_of_lt (Nat.zero_le _) hstuck
  · intro hnone
    cases hphase : s.phase with
    | running =>
      have hterminate : s.step .terminate = some { s with
          phase := .grace (s.now + processShutdownGrace)
          signals := s.signals ++ [(.terminate, s.now)] } := by
        simp only [Command.step]
        exact if_pos ⟨hphase, hcancelled⟩
      obtain ⟨s', hsteps, hreturned⟩ := (hsound.step hterminate).returns_of_grace rfl hnone
      have hterminated := Steps.single (show Own s .terminate from trivial) hterminate
      exact ⟨s', hterminated.trans hsteps, hreturned⟩
    | grace deadline => exact hsound.returns_of_grace hphase hnone
    | killed =>
      have hstands := hsound.stands
      unfold Stands at hstands
      rw [hphase] at hstands
      exact hsound.returns_of_idle hlistens fun hbusy ↦ hnone (hstands.1.escaped_of_busy hbusy)
    | _ =>
      unfold Listens at hlistens
      rw [hphase] at hlistens
      exact hlistens.elim

/-- However the child and its descendants behave, however long the prompt and however large the pipe
for it, whenever the context is done and however the steps interleave: no signal is sent but
`SIGTERM` to the group, once, after the context is done, and `SIGKILL`, once, at least the grace
later; what is returned is the exit of the leader, when it has exited, nobody holds the pipe of its
output, and the prompt was written or nobody can read it. A cancelled call can come to its end
without the help of the processes exactly if none that is waited for has left the group. -/
theorem runCommand_ends {left : ℕ} {s : Command}
    (hrun : Steps Command.step (fun _ _ ↦ True) { left } s) :
    s.Signalled ∧
    (∀ status, s.phase = .returned (.exited status) →
      ¬ s.family.Busy (0 < s.left) ∧ s.family.leaderStatus = some status) ∧
    (s.cancelled → s.Listens →
      ((∃ s', Steps Command.step Own s s' ∧ s'.Returned) ↔ ¬ s.family.Escaped s.Stuck)) := by
  have hsound : s.Sound := by
    refine hrun.invariant (P := Sound) (fun _ _ _ hsound _ hstep ↦ hsound.step hstep) ?_
    exact sound_initial left
  refine ⟨hsound.signalled, fun status hreturned ↦ ?_, hsound.returns_iff⟩
  have hstands := hsound.stands
  unfold Stands at hstands
  rw [hreturned] at hstands
  exact hsound.done status hstands.1

/-- A call that is cancelled while a grandchild outside the group holds nothing but the input, and
the last byte of the prompt has no room in the pipe. -/
def abandoned : Command where
  left := 1
  piped := 1
  cancelled := true
  family := [{}, { grouped := false, holds := false }]
  phase := .grace processShutdownGrace
  signals := [(.terminate, 0)]

/-- The abandoned call does not come to its end without the help of the grandchild. -/
theorem runCommand_ends_abandoned :
    ¬ ∃ s', Steps Command.step Own abandoned s' ∧ s'.Returned := by
  have heval : runLabels Command.step (fun _ _ ↦ true) { left := 2 }
      [.start (some 1), .feed, .act (.fork 0), .act (.leave 1), .act (.close 1), .cancel,
        .terminate] = some abandoned := by
    decide
  have hiff := (runCommand_ends (Steps.of_runLabels (fun _ _ _ ↦ trivial) heval)).2.2 rfl trivial
  have hstuck : abandoned.Stuck := Nat.zero_lt_one
  exact fun hends ↦ hiff.mp hends ⟨1, { grouped := false, holds := false }, rfl,
    ⟨rfl, .inr (.inr ⟨hstuck, rfl⟩)⟩, rfl⟩

end Command

end CodexQueueBot.Codex
