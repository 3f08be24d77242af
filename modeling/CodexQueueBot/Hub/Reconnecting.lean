import CodexQueueBot.Hub.Client
import CodexQueueBot.Lib.Backoff

/-!
# When the OpenILink client dials

`Run` of `hub.Client` again, now with its variable `backoff`, the timers of its waits and a clock.
The delay before a new dial doubles with every wait, up to half a minute, and starts from a second
again after a connection. `withJitter` makes it longer by up to a half.

`dials_paced` holds for every run: there is at least a second between any two dials, so that a
window of time has no more of them than it has seconds, and one; and a wait is as long as the number
of waits since the last connection says. Without the times, every run is one of the client.
-/

set_option autoImplicit false
set_option relaxedAutoImplicit false

namespace CodexQueueBot.Hub.Client

open Lib Backoff

/-! ### Times -/

/-- The longest delay before a dial. -/
def maximumBackoff : ℕ := 30 * second

/-- `withJitter`, for a draw of the random source. -/
def withJitter (duration draw : ℕ) : ℕ :=
  if duration = 0 then 0 else duration + draw % (duration / 2 + 1)

/-- The clock, the variable `backoff` of `Run`, and the timer of its wait: when it was made and when
it fires. The times of the calls of `connect`, the latest first, and the number of the waits since
the last connection stand beside them. -/
structure Times where
  now : ℕ := 0
  backoff : ℕ := second
  since : ℕ := 0
  timer : ℕ := 0
  dials : List ℕ := []
  waits : ℕ := 0
  deriving DecidableEq, Repr

/-- A client and its times. -/
structure Timed where
  client : Listener Place := new
  times : Times := {}

/-- The times after a step of `Run`. -/
def Times.run (times : Times) (client : Listener Place) (draw : ℕ) : Event → Times
  | .next =>
    match client.run with
    | .check =>
      if client.cancelled then times else { times with dials := times.now :: times.dials }
    | .setReconnecting _ =>
      { times with since := times.now, timer := times.now + withJitter times.backoff draw }
    | _ => times
  | .dialed .connected => { times with backoff := second, waits := 0 }
  | .waited true =>
    { times with
      backoff := min (times.backoff * 2) maximumBackoff
      waits := times.waits + 1 }
  | _ => times

/-- The times after a step of a client. -/
def Times.act (times : Times) (client : Listener Place) (draw : ℕ) : Label Event → Times
  | .run event => times.run client draw event
  | _ => times

/-- What can happen next: time passes, or the client takes a step. -/
inductive TimedLabel
  | elapse (duration : ℕ)
  | act (label : Label Event) (draw : ℕ)
  deriving DecidableEq, Repr

namespace Timed

/-- One step. A wait ends by its timer when this has fired. -/
def step (t : Timed) : TimedLabel → Option Timed
  | .elapse duration => some { t with times := { t.times with now := t.times.now + duration } }
  | .act label draw =>
    if label = .run (.waited true) ∧ t.times.now < t.times.timer then none
    else do
      let client ← machine.step t.client label
      return { client, times := t.times.act t.client draw label }

/-- A state that some run reaches. -/
def Reachable (t : Timed) : Prop :=
  Steps step (fun _ _ ↦ True) {} t

end Timed

/-! ### The invariant -/

/-- The places before a dial. -/
def Place.beforeDial : Place → Bool
  | .idle | .register | .setConnecting | .check => true
  | _ => false

/-- What a client knows of its times. -/
structure Paced (client : Listener Place) (times : Times) : Prop where
  backoff : times.backoff = delayAfter second maximumBackoff times.waits
  spaced : Spaced second times.dials
  past : ∀ dial ∈ times.dials, dial ≤ times.now
  waiting : client.run = .wait → times.since + times.backoff ≤ times.timer ∧
    times.timer ≤ times.since + times.backoff + times.backoff / 2 ∧
    ∀ dial ∈ times.dials, dial ≤ times.since
  ready : client.run.beforeDial = true → ∀ dial ∈ times.dials, dial + second ≤ times.now

variable {client client' : Listener Place} {times : Times} {draw : ℕ} {event : Event}

theorem second_le_maximumBackoff : second ≤ maximumBackoff :=
  Nat.le_mul_of_pos_left second (by decide)

/-- The bounds of `withJitter`. -/
theorem withJitter_bounds (duration draw : ℕ) : duration ≤ withJitter duration draw ∧
    withJitter duration draw ≤ duration + duration / 2 := by
  unfold withJitter
  split_ifs with hzero
  · omega
  · have hdraw : draw % (duration / 2 + 1) < duration / 2 + 1 := Nat.mod_lt draw (Nat.succ_pos _)
    omega

/-- The delay is never shorter than a second. -/
theorem Paced.second_le (h : Paced client times) : second ≤ times.backoff := by
  rw [h.backoff]
  exact le_delayAfter second_le_maximumBackoff

/-- A step that leaves the times, to a place at which nothing more has to be known. -/
theorem Paced.goto (h : Paced client times) (hwait : client'.run = .wait → client.run = .wait)
    (hready : client'.run.beforeDial = true → client.run.beforeDial = true) :
    Paced client' times :=
  ⟨h.backoff, h.spaced, h.past, fun hrun ↦ h.waiting (hwait hrun),
    fun hrun ↦ h.ready (hready hrun)⟩

/-- The clock goes on. -/
theorem Paced.elapse (h : Paced client times) (duration : ℕ) :
    Paced client { times with now := times.now + duration } where
  backoff := h.backoff
  spaced := h.spaced
  past dial hdial := Nat.le_trans (h.past dial hdial) (Nat.le_add_right _ _)
  waiting := h.waiting
  ready hrun dial hdial := Nat.le_trans (h.ready hrun dial hdial) (Nat.le_add_right _ _)

/-- A call of `connect`. -/
theorem Paced.dial (h : Paced client times) (hrun : client.run = .check)
    (hdial : client'.run = .dial) :
    Paced client' { times with dials := times.now :: times.dials } where
  backoff := h.backoff
  spaced := List.pairwise_cons.mpr ⟨h.ready (by rw [hrun]; rfl), h.spaced⟩
  past dial hmem := by
    rcases List.mem_cons.mp hmem with rfl | hearlier
    · exact Nat.le_refl _
    · exact h.past dial hearlier
  waiting hwait := by
    rw [hdial] at hwait
    cases hwait
  ready hready := by
    rw [hdial] at hready
    cases hready

/-- The beginning of a wait. -/
theorem Paced.wait (h : Paced client times) (draw : ℕ) (hwait : client'.run = .wait) :
    Paced client' { times with
      since := times.now
      timer := times.now + withJitter times.backoff draw } where
  backoff := h.backoff
  spaced := h.spaced
  past := h.past
  waiting _ := by
    obtain ⟨hlower, hupper⟩ := withJitter_bounds times.backoff draw
    exact ⟨Nat.add_le_add_left hlower _, by dsimp only; omega, h.past⟩
  ready hready := by
    rw [hwait] at hready
    cases hready

/-- The end of a wait by its timer, which doubles the delay. -/
theorem Paced.waited (h : Paced client times) (hrun : client.run = .wait)
    (hfired : times.timer ≤ times.now) (hcheck : client'.run = .check) :
    Paced client' { times with
      backoff := min (times.backoff * 2) maximumBackoff
      waits := times.waits + 1 } where
  backoff := by
    dsimp only
    rw [delayAfter_succ, h.backoff]
  spaced := h.spaced
  past := h.past
  waiting hwait := by
    rw [hcheck] at hwait
    cases hwait
  ready _ dial hmem := by
    obtain ⟨hlower, -, hdials⟩ := h.waiting hrun
    have hsecond := h.second_le
    have hdial := hdials dial hmem
    dsimp only at hmem ⊢
    omega

/-- A connection, after which the delay starts again. -/
theorem Paced.connected (h : Paced client times) (hconnected : client'.run = .setConnected) :
    Paced client' { times with backoff := second, waits := 0 } where
  backoff := (delayAfter_zero second_le_maximumBackoff).symm
  spaced := h.spaced
  past := h.past
  waiting hwait := by
    rw [hconnected] at hwait
    cases hwait
  ready hready := by
    rw [hconnected] at hready
    cases hready

/-- A step of `Run` that depends on nothing but the client. -/
theorem Paced.next (h : Paced client times) (hnext : next client = some client') :
    Paced client' (times.run client draw .next) := by
  cases hrun : client.run with
  | check =>
    simp only [Client.next, hrun, Option.some.injEq] at hnext
    simp only [Times.run, hrun]
    subst hnext
    split_ifs with hcancelled
    · exact h.goto (by simp) (by simp [Place.beforeDial])
    · exact h.dial hrun rfl
  | setReconnecting safeError =>
    simp only [Client.next, hrun, Option.some.injEq] at hnext
    simp only [Times.run, hrun]
    subst hnext
    exact h.wait draw rfl
  | idle | register | setConnecting =>
    simp only [Client.next, hrun, Option.some.injEq] at hnext
    simp only [Times.run, hrun]
    subst hnext
    exact h.goto (by simp) fun _ ↦ by rw [hrun]; rfl
  | setUnauthorized | setConnected | cancelling | clearing =>
    simp only [Client.next, hrun, Option.some.injEq] at hnext
    simp only [Times.run, hrun]
    subst hnext
    exact h.goto (by simp) (by simp [Place.beforeDial])
  | inspect safeError | recheck safeError =>
    simp only [Client.next, hrun, Option.some.injEq] at hnext
    simp only [Times.run, hrun]
    subst hnext
    apply h.goto
    · dsimp only
      split_ifs <;> simp
    · dsimp only
      split_ifs <;> simp [Place.beforeDial]
  | dial | wait | reading | returned => simp [Client.next, hrun] at hnext

/-- A step of `Run`. -/
theorem Paced.run (h : Paced client times) (hrun : run client event = some client')
    (hfired : event = .waited true → times.timer ≤ times.now) :
    Paced client' (times.run client draw event) := by
  cases event with
  | next => exact h.next hrun
  | dialed result =>
    simp only [Client.run] at hrun
    split_ifs at hrun with hdial
    rw [← Option.some.inj hrun]
    cases result with
    | connected => exact h.connected rfl
    | unauthorized | failed safeError => exact h.goto (by simp) (by simp [Place.beforeDial])
  | waited timer =>
    simp only [Client.run] at hrun
    split_ifs at hrun with hwait htimer hcancelled
    · subst htimer
      rw [← Option.some.inj hrun]
      exact h.waited hwait (hfired rfl) rfl
    · rw [Bool.not_eq_true] at htimer
      subst htimer
      rw [← Option.some.inj hrun]
      exact h.goto (by simp) (by simp [Place.beforeDial])
  | read safeError =>
    simp only [Client.run] at hrun
    split_ifs at hrun with hreading
    rw [← Option.some.inj hrun]
    exact h.goto (by simp) (by simp [Place.beforeDial])

/-- The other steps of a client leave `Run` where it is. -/
theorem run_of_step {label : Label Event} (hstep : machine.step client label = some client')
    (hother : ∀ event, label ≠ .run event) : client'.run = client.run := by
  cases label with
  | run event => exact absurd rfl (hother event)
  | send | cancel =>
    rw [← Option.some.inj hstep]
  | respond index rejected =>
    obtain ⟨send, -, hrespond⟩ := Option.bind_eq_some_iff.mp hstep
    split_ifs at hrespond <;> rw [← Option.some.inj hrespond] <;> rfl
  | stop index =>
    obtain ⟨send, -, hstop⟩ := Option.bind_eq_some_iff.mp hstep
    split at hstop
    · rw [← Option.some.inj hstop]
      rfl
    · rw [← Option.some.inj hstop]
      rfl
    · rw [← Option.some.inj hstop]
      rfl
    · cases hstop
    · cases hstop

/-! ### Runs -/

namespace Timed

variable {t t' : Timed}

/-- Every step keeps what a client knows of its times. -/
theorem paced_step {label : TimedLabel} (h : Paced t.client t.times)
    (hstep : t.step label = some t') : Paced t'.client t'.times := by
  cases label with
  | elapse duration =>
    rw [← Option.some.inj hstep]
    exact h.elapse duration
  | act label draw =>
    rw [step] at hstep
    split_ifs at hstep with hearly
    obtain ⟨client, hclient, hresult⟩ := Option.bind_eq_some_iff.mp hstep
    rw [← Option.some.inj hresult]
    by_cases hrun : ∃ event, label = .run event
    · obtain ⟨event, rfl⟩ := hrun
      refine h.run hclient ?_
      rintro rfl
      exact Nat.le_of_not_lt fun hbefore ↦ hearly ⟨rfl, hbefore⟩
    · have hother : ∀ event, label ≠ .run event := fun event hlabel ↦ hrun ⟨event, hlabel⟩
      have hsame := run_of_step hclient hother
      have htimes : t.times.act t.client draw label = t.times := by
        cases label with
        | run event => exact absurd rfl (hother event)
        | send | respond | stop | cancel => rfl
      rw [htimes]
      exact h.goto (fun hwait ↦ hsame ▸ hwait) fun hready ↦ hsame ▸ hready

/-- A step of a timed client is a step of the client, or none. -/
theorem steps_of_step {label : TimedLabel} (hstep : t.step label = some t') :
    Steps machine.step (fun _ _ ↦ True) t.client t'.client := by
  cases label with
  | elapse duration =>
    rw [← Option.some.inj hstep]
    exact .refl
  | act label draw =>
    rw [step] at hstep
    split_ifs at hstep
    obtain ⟨client, hclient, hresult⟩ := Option.bind_eq_some_iff.mp hstep
    rw [← Option.some.inj hresult]
    exact Steps.single trivial hclient

/-- Over every run of a client under a clock: without the times it is a run of the client. Between
two calls of `connect` there is a second at least, so that no window of time has more of them than
it has seconds, and one. A wait before a dial takes the delay that the number of waits since the
last connection asks for, half a minute at most, or longer by up to a half of it; then the client
can go on. -/
theorem dials_paced (h : t.Reachable) :
    Steps machine.step (fun _ _ ↦ True) new t.client ∧
    Spaced second t.times.dials ∧
    (∀ first last, first ≤ last →
      (t.times.dials.filter fun dial ↦ first ≤ dial ∧ dial ≤ last).length * second ≤
        last - first + second) ∧
    (t.client.run = .wait →
      t.times.since + delayAfter second maximumBackoff t.times.waits ≤ t.times.timer ∧
      t.times.timer ≤ t.times.since + delayAfter second maximumBackoff t.times.waits +
        delayAfter second maximumBackoff t.times.waits / 2 ∧
      (t.times.timer ≤ t.times.now → ∀ draw, ∃ t', t.step (.act (.run (.waited true)) draw) =
        some t' ∧ t'.client.run = .check)) := by
  have hnew : Paced ({} : Timed).client ({} : Timed).times :=
    ⟨rfl, List.Pairwise.nil, fun _ hmem ↦ absurd hmem List.not_mem_nil, by simp [new],
      fun _ _ hmem ↦ absurd hmem List.not_mem_nil⟩
  have hpaced : Paced t.client t.times := Steps.invariant
    (P := fun t : Timed ↦ Paced t.client t.times)
    (fun _ _ _ hpaced _ hstep ↦ paced_step hpaced hstep) h hnew
  have hruns : Steps machine.step (fun _ _ ↦ True) new t.client := Steps.invariant
    (P := fun t : Timed ↦ Steps machine.step (fun _ _ ↦ True) new t.client)
    (fun _ _ _ hruns _ hstep ↦ hruns.trans (steps_of_step hstep)) h .refl
  refine ⟨hruns, hpaced.spaced, fun _ _ ↦ hpaced.spaced.length_mul_le, fun hwait ↦ ?_⟩
  obtain ⟨hlower, hupper, -⟩ := hpaced.waiting hwait
  rw [← hpaced.backoff]
  refine ⟨hlower, hupper, fun hfired draw ↦ ?_⟩
  have hclient : machine.step t.client (.run (.waited true)) =
      some { t.client with run := .check } := by
    simp [Machine.step, machine, Client.run, hwait]
  let times := t.times.act t.client draw (.run (.waited true))
  refine ⟨⟨{ t.client with run := .check }, times⟩, ?_, rfl⟩
  rw [step, if_neg fun hearly ↦ Nat.not_lt.mpr hfired hearly.2, hclient]
  rfl

/-- A client whose first dial fails and that is about to dial for the second time. -/
def secondDial : List TimedLabel :=
  List.replicate 4 (.act (.run .next) 0) ++
    [.act (.run (.dialed (.failed "refused"))) 0, .act (.run .next) 0, .elapse second,
      .act (.run (.waited true)) 0, .act (.run .next) 0]

/-- The second dial comes a second after the first one, and there is no third in that second. -/
theorem dials_paced_second : ∃ t : Timed, t.Reachable ∧ t.times.dials = [second, 0] ∧
    (t.times.dials.filter fun dial ↦ 0 ≤ dial ∧ dial ≤ second).length * second ≤
      second - 0 + second := by
  have heval : (runLabels step (fun _ _ ↦ true) {} secondDial).any (fun t ↦
      decide (t.times.dials = [second, 0])) = true := by
    decide +kernel
  obtain ⟨t, hreach, htest⟩ : ∃ t, Reachable t ∧ _ :=
    Steps.exists_of_runLabels (fun _ _ _ ↦ trivial) heval
  exact ⟨t, hreach, of_decide_eq_true htest,
    (dials_paced hreach).2.2.1 0 second (Nat.zero_le second)⟩

end Timed

end CodexQueueBot.Hub.Client
