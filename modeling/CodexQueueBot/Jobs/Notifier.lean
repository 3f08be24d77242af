import CodexQueueBot.Jobs.Manager
import CodexQueueBot.Lib.Backoff
import CodexQueueBot.Lib.Runs

/-!
# Delivering a notification

`notifySuccess` starts a `notifySubscriber` goroutine for each subscriber. It sends the message, and
as long as that fails, waits and sends it again; the delay doubles from two seconds up to a minute.
How a `Send` ends, when the root context is done and when `SetMessenger` is called is up to the
label.

`notified_once` says what becomes of the message in every run: it is delivered once at most and not
sent again afterwards, it is not given up before the program stops, and retries do not crowd.
-/

set_option autoImplicit false
set_option relaxedAutoImplicit false

namespace CodexQueueBot.Jobs

open Lib Backoff

/-- Where `notifySubscriber` stands: it chooses the messenger, is about to send, waits for the end
of `Send` or for its timer, or has returned. -/
inductive NotifierPC
  | choose
  | send (messenger : ℕ)
  | sending (messenger : ℕ)
  | wait (messenger timer : ℕ)
  | returned
  deriving DecidableEq, Repr

/-- A call of `Send` with the time at which it began. -/
structure Sending where
  messenger : ℕ
  recipient : String
  message : String
  traceID : String
  time : ℕ
  deriving DecidableEq, Repr

/-- A `notifySubscriber` goroutine under a clock, with the messenger of its manager, if there is
one. Beside its state stand the messenger that the manager had when the goroutine looked for one,
the calls of `Send`, the latest first, how many of them succeeded and the number of its waits. -/
structure Notifier where
  message : String
  subscriber : Subscriber
  messenger : Option ℕ
  pc : NotifierPC := .choose
  delay : ℕ := 2 * second
  now : ℕ := 0
  rootDone : Bool := false
  found : Option (Option ℕ) := none
  sends : List Sending := []
  delivered : ℕ := 0
  waits : ℕ := 0

/-- What can happen next: time passes, the root context is done, the manager gets another messenger,
the goroutine goes on, its `Send` returns, or its wait ends by the timer or by the context. -/
inductive NotifierLabel
  | elapse (duration : ℕ)
  | cancelRoot
  | setMessenger (messenger : Option ℕ)
  | next
  | sent (succeeded : Bool)
  | waited (timer : Bool)
  deriving DecidableEq, Repr

namespace Notifier

/-- The longest delay before a retry. -/
def maximumDelay : ℕ := 60 * second

/-- The next step of `notifySubscriber`. -/
def next (n : Notifier) : Option Notifier :=
  match n.pc with
  | .choose =>
    some { n with
      found := some n.messenger
      pc := match n.subscriber.messenger.or n.messenger with
        | none => .returned
        | some messenger => .send messenger }
  | .send messenger =>
    some { n with
      pc := .sending messenger
      sends := ⟨messenger, n.subscriber.recipient, n.message, n.subscriber.traceID, n.now⟩ ::
        n.sends }
  | _ => none

/-- The return of `Send`. -/
def sent (n : Notifier) (succeeded : Bool) : Option Notifier :=
  match n.pc with
  | .sending messenger =>
    if succeeded then some { n with pc := .returned, delivered := n.delivered + 1 }
    else some { n with pc := .wait messenger (n.now + n.delay) }
  | _ => none

/-- The end of a wait. -/
def waited (n : Notifier) (timer : Bool) : Option Notifier :=
  match n.pc with
  | .wait messenger fires =>
    if timer then
      if fires ≤ n.now then
        some { n with
          pc := .send messenger
          delay := min (n.delay * 2) maximumDelay
          waits := n.waits + 1 }
      else none
    else if n.rootDone then some { n with pc := .returned }
    else none
  | _ => none

/-- One step. -/
def step (n : Notifier) : NotifierLabel → Option Notifier
  | .elapse duration => some { n with now := n.now + duration }
  | .cancelRoot => some { n with rootDone := true }
  | .setMessenger messenger => some { n with messenger }
  | .next => n.next
  | .sent succeeded => n.sent succeeded
  | .waited timer => n.waited timer

/-- A state that some run reaches, of the notification of a message to a subscriber by a manager
that has a messenger at first or has none. -/
def Reachable (message : String) (subscriber : Subscriber) (messenger : Option ℕ) (n : Notifier) :
    Prop :=
  Steps step (fun _ _ ↦ True) { message, subscriber, messenger } n

/-! ### The invariant -/

/-- What a goroutine knows where it stands. -/
def Stands (n : Notifier) : NotifierPC → Prop
  | .choose => n.delivered = 0 ∧ n.sends = []
  | .send _ => n.delivered = 0 ∧ ∀ send ∈ n.sends, send.time + 2 * second ≤ n.now
  | .sending _ => n.delivered = 0
  | .wait _ fires => n.delivered = 0 ∧ ∀ send ∈ n.sends, send.time + n.delay ≤ fires
  | .returned => n.delivered = 1 ∨ (n.delivered = 0 ∧ n.rootDone = true) ∨
    (n.delivered = 0 ∧ n.subscriber.messenger = none ∧ n.found = some none ∧ n.sends = [])

/-- A messenger is the one of the subscriber, or else the one that the manager had. -/
def Chosen (n : Notifier) (messenger : ℕ) : Prop :=
  ∃ found, n.found = some found ∧ n.subscriber.messenger.or found = some messenger

/-- The messenger that a goroutine has, if it has one, was chosen. -/
def Uses (n : Notifier) : NotifierPC → Prop
  | .send messenger | .sending messenger | .wait messenger _ => n.Chosen messenger
  | .choose | .returned => True

/-- The invariant of a notification. -/
structure Sound (message : String) (subscriber : Subscriber) (n : Notifier) : Prop where
  sameMessage : n.message = message
  sameSubscriber : n.subscriber = subscriber
  delay : n.delay = delayAfter (2 * second) maximumDelay n.waits
  spaced : Spaced (2 * second) (n.sends.map Sending.time)
  past : ∀ send ∈ n.sends, send.time ≤ n.now
  sends : ∀ send ∈ n.sends, send.recipient = subscriber.recipient ∧ send.message = message ∧
    send.traceID = subscriber.traceID ∧ n.Chosen send.messenger
  uses : n.Uses n.pc
  stands : n.Stands n.pc

variable {message : String} {subscriber : Subscriber} {messenger : Option ℕ} {n n' : Notifier}

/-- A change of the place of a goroutine only. -/
theorem Sound.goto (h : Sound message subscriber n) {pc : NotifierPC}
    (huses : n.Uses pc) (hstands : Stands { n with pc } pc) :
    Sound message subscriber { n with pc } :=
  ⟨h.sameMessage, h.sameSubscriber, h.delay, h.spaced, h.past, h.sends, huses, hstands⟩

/-- The delay is never shorter than two seconds. -/
theorem Sound.le_delay (h : Sound message subscriber n) : 2 * second ≤ n.delay := by
  rw [h.delay]
  exact le_delayAfter (Nat.mul_le_mul_right second (by decide))

/-- Time passes. -/
theorem Sound.elapse (h : Sound message subscriber n) (duration : ℕ) :
    Sound message subscriber { n with now := n.now + duration } where
  sameMessage := h.sameMessage
  sameSubscriber := h.sameSubscriber
  delay := h.delay
  spaced := h.spaced
  past send hsend := Nat.le_trans (h.past send hsend) (Nat.le_add_right _ _)
  sends := h.sends
  uses := h.uses
  stands := by
    have hstands := h.stands
    revert hstands
    cases n.pc with
    | send messenger =>
      rintro ⟨hdelivered, hsends⟩
      exact ⟨hdelivered, fun send hsend ↦ Nat.le_trans (hsends send hsend) (Nat.le_add_right _ _)⟩
    | choose | sending | wait | returned => exact id

/-- The root context is done. -/
theorem Sound.cancelRoot (h : Sound message subscriber n) :
    Sound message subscriber { n with rootDone := true } where
  sameMessage := h.sameMessage
  sameSubscriber := h.sameSubscriber
  delay := h.delay
  spaced := h.spaced
  past := h.past
  sends := h.sends
  uses := h.uses
  stands := by
    have hstands := h.stands
    revert hstands
    cases n.pc with
    | returned =>
      rintro (hone | ⟨hzero, -⟩ | hnobody)
      · exact Or.inl hone
      · exact Or.inr (Or.inl ⟨hzero, rfl⟩)
      · exact Or.inr (Or.inr hnobody)
    | choose | send | sending | wait => exact id

/-- The manager gets another messenger. -/
theorem Sound.setMessenger (h : Sound message subscriber n) (messenger : Option ℕ) :
    Sound message subscriber { n with messenger } :=
  ⟨h.sameMessage, h.sameSubscriber, h.delay, h.spaced, h.past, h.sends, h.uses, h.stands⟩

/-- The next step of the goroutine. -/
theorem Sound.next (h : Sound message subscriber n) (hnext : n.next = some n') :
    Sound message subscriber n' := by
  have hstands := h.stands
  cases hpc : n.pc with
  | choose =>
    rw [hpc] at hstands
    obtain ⟨hdelivered, hsends⟩ := hstands
    simp only [Notifier.next, hpc, Option.some.injEq] at hnext
    subst hnext
    have hnothing : ∀ {P : Sending → Prop}, ∀ send ∈ n.sends, P send := by
      rw [hsends]
      exact fun _ hmem ↦ absurd hmem List.not_mem_nil
    cases hchosen : n.subscriber.messenger.or n.messenger with
    | none =>
      obtain ⟨hown, hmanager⟩ := Option.or_eq_none_iff.mp hchosen
      exact ⟨h.sameMessage, h.sameSubscriber, h.delay, h.spaced, h.past, hnothing, trivial,
        Or.inr (Or.inr ⟨hdelivered, hown, congrArg some hmanager, hsends⟩)⟩
    | some chosen =>
      exact ⟨h.sameMessage, h.sameSubscriber, h.delay, h.spaced, h.past, hnothing,
        ⟨n.messenger, rfl, hchosen⟩, hdelivered, hnothing⟩
  | send chosen =>
    have huses := h.uses
    rw [hpc] at hstands huses
    obtain ⟨hdelivered, hearlier⟩ := hstands
    simp only [Notifier.next, hpc, Option.some.injEq] at hnext
    subst hnext
    refine ⟨h.sameMessage, h.sameSubscriber, h.delay, ?_, ?_, ?_, huses, hdelivered⟩
    · refine List.pairwise_cons.mpr ⟨fun time htime ↦ ?_, h.spaced⟩
      obtain ⟨send, hsend, rfl⟩ := List.mem_map.mp htime
      exact hearlier send hsend
    · intro send hsend
      rcases List.mem_cons.mp hsend with rfl | hold
      · exact Nat.le_refl _
      · exact h.past send hold
    · intro send hsend
      rcases List.mem_cons.mp hsend with rfl | hold
      · rw [← h.sameSubscriber, ← h.sameMessage]
        exact ⟨rfl, rfl, rfl, huses⟩
      · exact h.sends send hold
  | sending | wait | returned => simp [Notifier.next, hpc] at hnext

/-- The return of `Send`. -/
theorem Sound.sent (h : Sound message subscriber n) {succeeded : Bool}
    (hsent : n.sent succeeded = some n') : Sound message subscriber n' := by
  have hstands := h.stands
  cases hpc : n.pc with
  | sending messenger =>
    have huses := h.uses
    rw [hpc] at hstands huses
    have hdelivered : n.delivered = 0 := hstands
    simp only [Notifier.sent, hpc] at hsent
    split_ifs at hsent
    · rw [← Option.some.inj hsent]
      refine ⟨h.sameMessage, h.sameSubscriber, h.delay, h.spaced, h.past, h.sends, trivial,
        Or.inl ?_⟩
      dsimp only
      rw [hdelivered]
    · rw [← Option.some.inj hsent]
      refine h.goto huses ⟨hdelivered, fun send hsend ↦ ?_⟩
      exact Nat.add_le_add_right (h.past send hsend) _
  | choose | send | wait | returned => simp [Notifier.sent, hpc] at hsent

/-- The end of a wait. -/
theorem Sound.waited (h : Sound message subscriber n) {timer : Bool}
    (hwaited : n.waited timer = some n') : Sound message subscriber n' := by
  have hstands := h.stands
  cases hpc : n.pc with
  | wait messenger fires =>
    have huses := h.uses
    rw [hpc] at hstands huses
    obtain ⟨hdelivered, hsends⟩ := hstands
    simp only [Notifier.waited, hpc] at hwaited
    split_ifs at hwaited with htimer hfired hdone
    · rw [← Option.some.inj hwaited]
      refine ⟨h.sameMessage, h.sameSubscriber, ?_, h.spaced, h.past, h.sends, huses, hdelivered, ?_⟩
      · rw [delayAfter_succ, h.delay]
      · intro send hsend
        have hdelay := h.le_delay
        have hsend := hsends send hsend
        dsimp only
        omega
    · rw [← Option.some.inj hwaited]
      exact h.goto trivial (Or.inr (Or.inl ⟨hdelivered, hdone⟩))
  | choose | send | sending | returned => simp [Notifier.waited, hpc] at hwaited

/-- A goroutine that has delivered the message, once, has returned. -/
theorem Sound.delivered (h : Sound message subscriber n) :
    (n.pc = .returned ∧ n.delivered = 1) ∨ n.delivered = 0 := by
  have hstands := h.stands
  cases hpc : n.pc with
  | returned =>
    rw [hpc] at hstands
    rcases hstands with hone | ⟨hzero, -⟩ | ⟨hzero, -⟩
    · exact Or.inl ⟨rfl, hone⟩
    · exact Or.inr hzero
    · exact Or.inr hzero
  | sending messenger =>
    rw [hpc] at hstands
    exact Or.inr hstands
  | choose | send | wait =>
    rw [hpc] at hstands
    exact Or.inr hstands.1

/-- Every step keeps the invariant. -/
theorem Sound.step {label : NotifierLabel} (h : Sound message subscriber n)
    (hstep : n.step label = some n') : Sound message subscriber n' := by
  cases label with
  | elapse duration =>
    rw [← Option.some.inj hstep]
    exact h.elapse duration
  | cancelRoot =>
    rw [← Option.some.inj hstep]
    exact h.cancelRoot
  | setMessenger messenger =>
    rw [← Option.some.inj hstep]
    exact h.setMessenger messenger
  | next => exact h.next hstep
  | sent succeeded => exact h.sent hstep
  | waited timer => exact h.waited hstep

/-- In every reachable state the invariant holds. -/
theorem Reachable.sound (h : Reachable message subscriber messenger n) :
    Sound message subscriber n := by
  refine Steps.invariant (fun _ _ _ hsound _ hstep ↦ hsound.step hstep) h ?_
  refine ⟨rfl, rfl, ?_, List.Pairwise.nil, ?_, ?_, trivial, rfl, rfl⟩
  · exact (delayAfter_zero (Nat.mul_le_mul_right second (by decide))).symm
  · exact fun _ hmem ↦ absurd hmem List.not_mem_nil
  · exact fun _ hmem ↦ absurd hmem List.not_mem_nil

/-- A goroutine that has returned sends nothing more. -/
theorem sends_of_returned {label : NotifierLabel} (hreturned : n.pc = .returned)
    (hstep : n.step label = some n') :
    n'.sends = n.sends ∧ n'.delivered = n.delivered ∧ n'.pc = .returned := by
  cases label with
  | elapse duration | cancelRoot | setMessenger messenger =>
    rw [← Option.some.inj hstep]
    exact ⟨rfl, rfl, hreturned⟩
  | next => simp [step, Notifier.next, hreturned] at hstep
  | sent succeeded => simp [step, Notifier.sent, hreturned] at hstep
  | waited timer => simp [step, Notifier.waited, hreturned] at hstep

/-- In every run of the goroutine for a subscriber under a clock: all that is sent is the message,
to the recipient of the subscriber, and by the messenger of the subscriber if it has one, or else by
the one that the manager had when the goroutine looked. It is delivered once at most, and after that
nothing is sent. The goroutine does not give up: when it has returned, the message was delivered or
the root context is done, unless neither of them had a messenger. And it sends no more often than
every two seconds, whatever the window of time. -/
theorem notified_once (h : Reachable message subscriber messenger n) :
    (∀ send ∈ n.sends, send.recipient = subscriber.recipient ∧ send.message = message ∧
      send.traceID = subscriber.traceID ∧ ∃ found, n.found = some found ∧
        subscriber.messenger.or found = some send.messenger) ∧
    n.delivered ≤ 1 ∧
    (n.delivered = 1 → ∀ later, Steps step (fun _ _ ↦ True) n later →
      later.sends = n.sends ∧ later.delivered = 1) ∧
    (n.pc = .returned → n.delivered = 1 ∨ n.rootDone = true ∨
      (subscriber.messenger = none ∧ n.found = some none ∧ n.sends = [])) ∧
    (∀ first last, first ≤ last →
      (n.sends.map Sending.time |>.filter fun time ↦ first ≤ time ∧ time ≤ last).length *
        (2 * second) ≤ last - first + 2 * second) := by
  have hsound := h.sound
  refine ⟨fun send hsend ↦ ?_, ?_, ?_, ?_, fun _ _ ↦ hsound.spaced.length_mul_le⟩
  · have hsent := hsound.sends send hsend
    rw [Chosen, hsound.sameSubscriber] at hsent
    exact hsent
  · rcases hsound.delivered with ⟨-, hone⟩ | hzero
    · exact Nat.le_of_eq hone
    · rw [hzero]
      exact Nat.zero_le 1
  · intro hone later hrun
    rcases hsound.delivered with ⟨hreturned, -⟩ | hzero
    · -- The goroutine has returned, and keeps to that.
      have hkept : later.sends = n.sends ∧ later.delivered = n.delivered ∧ later.pc = .returned :=
        Steps.invariant (P := fun later : Notifier ↦
            later.sends = n.sends ∧ later.delivered = n.delivered ∧ later.pc = .returned)
          (fun _ _ _ hkept _ hstep ↦ by
            obtain ⟨hsends, hdelivered, hpc⟩ := sends_of_returned hkept.2.2 hstep
            exact ⟨hsends.trans hkept.1, hdelivered.trans hkept.2.1, hpc⟩)
          hrun ⟨rfl, rfl, hreturned⟩
      exact ⟨hkept.1, hkept.2.1.trans hone⟩
    · rw [hone] at hzero
      cases hzero
  · intro hreturned
    have hstands := hsound.stands
    rw [hreturned, Stands, hsound.sameSubscriber] at hstands
    exact hstands.imp_right (Or.imp And.right And.right)

/-- A message whose first `Send` fails and whose second one succeeds. -/
def secondSend : List NotifierLabel :=
  [.next, .next, .sent false, .elapse (2 * second), .waited true, .next, .sent true]

/-- The message is sent twice by the messenger of its subscriber, delivered once, and not sent
again. -/
theorem notified_once_second : ∃ n : Notifier, Reachable "m" ⟨"r", "", "", some 7⟩ (some 0) n ∧
    n.sends.map Sending.time = [2 * second, 0] ∧ n.delivered = 1 ∧
    (∀ send ∈ n.sends, send.messenger = 7) ∧
    ∀ later, Steps step (fun _ _ ↦ True) n later → later.sends = n.sends := by
  have heval : (runLabels step (fun _ _ ↦ true) ⟨"m", ⟨"r", "", "", some 7⟩, some 0, .choose,
      2 * second, 0, false, none, [], 0, 0⟩ secondSend).any (fun n ↦
      decide (n.sends.map Sending.time = [2 * second, 0] ∧ n.delivered = 1)) = true := by
    decide +kernel
  obtain ⟨n, hreach, htest⟩ : ∃ n, Reachable "m" ⟨"r", "", "", some 7⟩ (some 0) n ∧ _ :=
    Steps.exists_of_runLabels (fun _ _ _ ↦ trivial) heval
  obtain ⟨htimes, hone⟩ := of_decide_eq_true htest
  obtain ⟨hsends, -, hlater, -⟩ := notified_once hreach
  refine ⟨n, hreach, htimes, hone, fun send hsend ↦ ?_, fun later hrun ↦ (hlater hone later hrun).1⟩
  obtain ⟨-, -, -, found, -, hchosen⟩ := hsends send hsend
  exact (Option.some.inj hchosen).symm

end Notifier

end CodexQueueBot.Jobs
