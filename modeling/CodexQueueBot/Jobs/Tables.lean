import CodexQueueBot.Jobs.CallOutcomes
import CodexQueueBot.Jobs.System
import CodexQueueBot.Lib.Runs
import Mathlib.Data.Set.Basic

/-!
# The keys of the tables

The manager keeps four tables of targets, jobs, keepalive jobs and arbiters, and the order in which
targets are listed. `Tabled` says that the four tables have the same keys and that the order lists
each key once. Only the edits of targets change the keys; every other section leaves the `Domain` of
the manager, its targets with the order and the keys of the other tables, as it is. Apart from
`UpdateSettings` they also leave the `Limits`, so that both together are the `frame` of a section.

A renamed target must not take the key of another one. The manager compares identifiers there: a key
is taken when its target has another identifier than the one that is updated. So an update with an
identifier that two targets share could move the records of the one over those of the other. The
store assigns identifiers as a primary key, and `Lawful` states what the manager relies on: the
identifier of a target that is being updated is that of one target only. `Reachable` is
reachability from `New`, on targets whose normalised names are distinct, through lawful steps.
-/

set_option autoImplicit false
set_option relaxedAutoImplicit false

namespace CodexQueueBot.Jobs

open Lib

namespace Manager

/-! ### Domains -/

/-- The targets, their order, and the keys of the other tables. -/
@[ext]
structure Domain where
  targets : Table String Target
  order : List String
  jobs : Set String
  keepalives : Set String
  arbiters : Set String

/-- The domain of a manager. -/
def domain (m : Manager) : Domain where
  targets := m.targets
  order := m.order
  jobs := { key | key ∈ m.jobs }
  keepalives := { key | key ∈ m.keepalives }
  arbiters := { key | key ∈ m.arbiters }

/-- The bounds of the delays between keepalive requests, and the number of slots. -/
structure Limits where
  keepaliveMin : Duration
  keepaliveMax : Duration
  maxParallel : Int
  deriving DecidableEq, Repr

/-- The limits of a manager. -/
def limits (m : Manager) : Limits where
  keepaliveMin := m.keepaliveMin
  keepaliveMax := m.keepaliveMax
  maxParallel := m.maxParallel

/-- The domain and the limits of a manager. -/
def frame (m : Manager) : Domain × Limits :=
  (m.domain, m.limits)

/-- The four tables have the same keys, and the order lists each of them once. -/
structure Tabled (m : Manager) : Prop where
  jobs : ∀ key, key ∈ m.jobs ↔ key ∈ m.targets
  keepalives : ∀ key, key ∈ m.keepalives ↔ key ∈ m.targets
  arbiters : ∀ key, key ∈ m.arbiters ↔ key ∈ m.targets
  order : ∀ key, key ∈ m.order ↔ key ∈ m.targets
  nodup : m.order.Nodup

variable {m m' : Manager} {key : String} {runID : Nat} {now : Time}

/-- Tables with the same domain are in the same shape. -/
theorem Tabled.of_domain (h : m.Tabled) (hdomain : m'.domain = m.domain) : m'.Tabled := by
  obtain ⟨htargets, horder, hjobs, hkeepalives, harbiters⟩ := Domain.mk.inj hdomain
  refine ⟨?_, ?_, ?_, ?_, by rw [horder]; exact h.nodup⟩
  · intro key
    rw [htargets, ← h.jobs key]
    exact Set.ext_iff.mp hjobs key
  · intro key
    rw [htargets, ← h.keepalives key]
    exact Set.ext_iff.mp hkeepalives key
  · intro key
    rw [htargets, ← h.arbiters key]
    exact Set.ext_iff.mp harbiters key
  · intro key
    rw [htargets, horder, h.order key]

/-- The domain is part of the frame. -/
theorem domain_of_frame (h : m'.frame = m.frame) : m'.domain = m.domain :=
  congrArg Prod.fst h

/-- The limits are part of the frame. -/
theorem limits_of_frame (h : m'.frame = m.frame) : m'.limits = m.limits :=
  congrArg Prod.snd h

/-- A broadcast keeps the frame. -/
theorem Shown.frame (h : m.Shown m') : m'.frame = m.frame := by
  obtain ⟨_, _, rfl⟩ := h
  rfl

/-- A broadcast keeps the domain. -/
theorem Shown.domain (h : m.Shown m') : m'.domain = m.domain :=
  domain_of_frame h.frame

/-- Writing a job keeps the frame. -/
theorem frame_setJob {job : Job} (hjob : m.jobs.lookup key = some job) (new : Job) :
    (m.setJob key new).frame = m.frame := by
  simp only [Manager.frame, Manager.domain, Manager.limits, setJob, Table.mem_insert_of_lookup hjob]

/-- Writing a keepalive job keeps the frame. -/
theorem frame_setKeepalive {keepalive : KeepaliveJob}
    (hkeepalive : m.keepalives.lookup key = some keepalive) (new : KeepaliveJob) :
    (m.setKeepalive key new).frame = m.frame := by
  simp only [Manager.frame, Manager.domain, Manager.limits, setKeepalive,
    Table.mem_insert_of_lookup hkeepalive]

/-- Writing an arbiter keeps the frame. -/
theorem frame_setArbiter {arbiter : TargetArbiter}
    (harbiter : m.arbiters.lookup key = some arbiter) (new : TargetArbiter) :
    (m.setArbiter key new).frame = m.frame := by
  simp only [Manager.frame, Manager.domain, Manager.limits, setArbiter,
    Table.mem_insert_of_lookup harbiter]

/-- Replacing the channel of an arbiter keeps the frame. -/
theorem frame_resignalled {arbiter : TargetArbiter}
    (harbiter : m.arbiters.lookup key = some arbiter) (new : TargetArbiter) :
    (m.resignalled key new).frame = m.frame := by
  simp only [Manager.frame, Manager.domain, Manager.limits, resignalled,
    Table.mem_insert_of_lookup harbiter]

/-- Cancelling a context keeps the frame. -/
theorem frame_callCancel (cancel : Option Nat) : (m.callCancel cancel).frame = m.frame := by
  cases cancel <;> rfl

/-- A signal keeps the frame. -/
theorem frame_of_signal (h : m.signalTargetLocked key = some m') : m'.frame = m.frame := by
  obtain ⟨arbiter, harbiter, rfl⟩ := signalTargetLocked_cases h
  exact frame_resignalled harbiter _

/-- A release keeps the frame. -/
theorem frame_of_release {owner : RequestOwner}
    (h : m.releaseTargetLocked key owner runID = some m') : m'.frame = m.frame := by
  obtain ⟨arbiter, harbiter, ⟨-, rfl⟩ | ⟨-, rfl⟩⟩ := releaseTargetLocked_cases h
  · exact frame_resignalled harbiter _
  · rfl

/-- Stop operations keep the frame. -/
theorem Stops.frame (h : Stops now m m') : m'.frame = m.frame := by
  induction h with
  | refl => rfl
  | queue key _ hstop ih =>
    rcases stopQueueLocked_cases hstop with ⟨job, arbiter, hjob, harbiter, -, rfl⟩ | ⟨-, rfl⟩
    · rw [frame_callCancel, frame_resignalled (m := setJob _ key _) harbiter,
        frame_setJob hjob, ih]
    · exact ih
  | keepalive key _ hstop ih =>
    rcases stopKeepaliveLocked_cases hstop with
      ⟨keepalive, arbiter, hkeepalive, harbiter, -, rfl⟩ | ⟨-, rfl⟩
    · rw [frame_callCancel, frame_resignalled (m := setKeepalive _ key _) harbiter,
        frame_setKeepalive hkeepalive, ih]
    · exact ih
  | adhoc key _ ih =>
    rename_i m₁ _
    rcases stopAdhocLocked_cases m₁ key with ⟨arbiter, harbiter, -, heq⟩ | ⟨-, heq⟩
    · rw [heq, frame_callCancel, frame_setArbiter harbiter, ih]
    · rw [heq, ih]

/-- Stop operations keep the domain. -/
theorem Stops.domain (h : Stops now m m') : m'.domain = m.domain :=
  domain_of_frame h.frame

/-- Rescheduling keepalive jobs keeps the frame. -/
theorem Reschedules.frame {draw : String → Nat} (h : Reschedules now draw m m') :
    m'.frame = m.frame := by
  induction h with
  | refl => rfl
  | round key _ hround ih =>
    rcases rescheduleKeepalive_cases hround with ⟨keepalive, _, hkeepalive, -, rfl⟩ | rfl
    · rw [← ih]
      simp only [Manager.frame, Manager.domain, Manager.limits,
        Table.mem_insert_of_lookup hkeepalive]
    · exact ih

/-- Rescheduling keepalive jobs keeps the domain. -/
theorem Reschedules.domain {draw : String → Nat} (h : Reschedules now draw m m') :
    m'.domain = m.domain :=
  domain_of_frame h.frame

/-- Giving back the counts of an ad-hoc request keeps the frame. -/
theorem frame_giveBack (slotAcquired processStarted : Bool) :
    ((m.giveBackProcess processStarted).giveBackSlot slotAcquired).frame = m.frame := by
  unfold giveBackSlot giveBackProcess
  split_ifs <;> rfl

/-- `acquire` keeps the frame. -/
theorem frame_of_acquire {outcome : SlotOutcome} (h : m.acquire = (m', outcome)) :
    m'.frame = m.frame := by
  rcases acquire_cases h with ⟨-, -, rfl⟩ | ⟨-, -, rfl⟩ <;> rfl

end Manager

/-! ### Steps that keep the frame -/

section

variable [Go.NetURL] {m : Manager} {next self : Nat} {input : Input} {effect : Effect}

open Manager

/-- A step of a queue worker keeps the frame. -/
theorem QueueWorker.step_frame {w : QueueWorker} (h : w.step m self input = some effect) :
    effect.manager.frame = m.frame := by
  unfold QueueWorker.step at h
  cases hpc : w.pc <;>
    simp only [hpc, Option.bind_eq_bind, Option.bind_eq_some_iff, Prod.exists] at h
  case acquireTarget =>
    obtain ⟨m₁, outcome, hsection, h⟩ := h
    obtain ⟨job, arbiter, -, harbiter, hcases⟩ := acquireQueueTarget_cases hsection
    rcases hcases with ⟨-, rfl, rfl⟩ | ⟨-, -, rfl, rfl⟩ | ⟨-, -, rfl, rfl⟩ <;> cases h
    · rfl
    · exact frame_setArbiter harbiter _
    · rfl
  case acquire =>
    rcases hacquire : m.acquire with ⟨m₁, _ | changed⟩ <;> simp only [hacquire] at h <;> cases h <;>
      exact frame_of_acquire hacquire
  case beginAttempt =>
    obtain ⟨m₁, begun, hsection, h⟩ := h
    obtain ⟨job, arbiter, hjob, -, hcases⟩ := beginAttempt_cases hsection
    rcases hcases with ⟨-, -, rfl, hshown⟩ | ⟨-, rfl, rfl⟩ <;> cases h
    · exact hshown.frame.trans (frame_setJob hjob _)
    · rfl
  case finishProcess =>
    obtain ⟨m₁, hsection, h⟩ := h
    cases h
    exact (finishProcess_cases hsection).frame
  case markSuccess =>
    obtain ⟨m₁, success, hsection, h⟩ := h
    obtain ⟨job, hjob, hcases⟩ := markSuccess_cases hsection
    rcases hcases with ⟨-, rfl, m₂, hrelease, hshown⟩ | ⟨-, rfl, hrelease⟩ <;> cases h
    · rw [hshown.frame, frame_of_release hrelease, frame_callCancel, frame_setJob hjob]
    · exact frame_of_release hrelease
  case markFailure =>
    obtain ⟨m₁, valid, hsection, h⟩ := h
    obtain ⟨job, hjob, hcases⟩ := markFailure_cases hsection
    rcases hcases with ⟨-, rfl, m₂, hrelease, hshown⟩ | ⟨-, rfl, hrelease⟩ <;> cases h
    · rw [hshown.frame, frame_of_release hrelease, frame_setJob hjob]
    · exact frame_of_release hrelease
  case releaseTarget =>
    obtain ⟨m₁, hsection, h⟩ := h
    cases h
    exact frame_of_release hsection
  case markCancelled =>
    obtain ⟨m₁, hsection, h⟩ := h
    cases h
    obtain ⟨job, m₂, hjob, hrelease, hcases⟩ := markQueueCancelled_cases hsection
    rcases hcases with ⟨-, m₃, hsignal, hshown⟩ | ⟨-, rfl⟩
    · rw [← releaseTargetLocked_jobs hrelease] at hjob
      rw [hshown.frame, frame_of_signal hsignal, frame_setJob hjob,
        frame_of_release hrelease]
    · exact frame_of_release hrelease
  case finishWorker =>
    obtain ⟨m₁, hsection, h⟩ := h
    cases h
    rcases finishQueueWorker_cases hsection with ⟨job, hjob, -, hshown⟩ | ⟨-, rfl⟩
    · exact hshown.frame.trans (frame_setJob hjob _)
    · rfl
  case awaitTarget | awaitSlot =>
    obtain ⟨_, -, h⟩ := h
    cases h
    rfl
  case running | notifySuccess | checkContext | releaseSlot | workerDone =>
    cases h
    rfl
  case exited => cases h

/-- A step of a keepalive worker keeps the frame. -/
theorem KeepaliveWorker.step_frame {w : KeepaliveWorker}
    (h : w.step m self input = some effect) : effect.manager.frame = m.frame := by
  unfold KeepaliveWorker.step at h
  cases hpc : w.pc <;>
    simp only [hpc, Option.bind_eq_bind, Option.bind_eq_some_iff, Prod.exists] at h
  case beginRequest =>
    obtain ⟨m₁, outcome, hsection, h⟩ := h
    have hframe : m₁.frame = m.frame := by
      obtain ⟨keepalive, job, arbiter, hkeepalive, -, -, hcases⟩ :=
        beginKeepaliveRequest_cases hsection
      rcases hcases with ⟨-, -, rfl⟩ | ⟨-, -, rfl | ⟨state, -, hshown⟩⟩
      · rfl
      · rfl
      · exact hshown.frame.trans (frame_setKeepalive hkeepalive _)
    cases outcome <;> cases h <;> exact hframe
  case acquire =>
    rcases hacquire : m.acquire with ⟨m₁, _ | changed⟩ <;> simp only [hacquire] at h <;> cases h <;>
      exact frame_of_acquire hacquire
  case confirmRequest =>
    obtain ⟨m₁, outcome, hsection, h⟩ := h
    have hframe : m₁.frame = m.frame := by
      obtain ⟨keepalive, job, arbiter, hkeepalive, -, harbiter, hcases⟩ :=
        confirmKeepaliveRequest_cases hsection
      rcases hcases with ⟨-, -, rfl⟩ | ⟨-, -, -, rfl | ⟨state, -, hshown⟩⟩ | ⟨-, -, -, -, hshown⟩
      · rfl
      · rfl
      · exact hshown.frame.trans (frame_setKeepalive hkeepalive _)
      · exact hshown.frame.trans ((frame_setKeepalive (m := m.setArbiter w.key _) hkeepalive
          _).trans (frame_setArbiter harbiter _))
    cases outcome <;> cases h <;> exact hframe
  case finishProcess =>
    obtain ⟨m₁, hsection, h⟩ := h
    cases h
    exact (finishProcess_cases hsection).frame
  case finishRequest =>
    obtain ⟨m₁, valid, hsection, h⟩ := h
    cases h
    obtain ⟨keepalive, hkeepalive, hcases⟩ := finishKeepaliveRequest_cases hsection
    rcases hcases with ⟨-, -, m₂, hrelease, hshown⟩ | ⟨-, -, hrelease⟩
    · rw [hshown.frame, frame_of_release hrelease, frame_setKeepalive hkeepalive]
    · exact frame_of_release hrelease
  case waitNext =>
    split at h <;> cases h <;> rfl
  case awaitNext =>
    split_ifs at h
    · cases h
      rfl
    · rw [Option.bind_eq_some_iff] at h
      obtain ⟨_, -, h⟩ := h
      cases h
      rfl
  case markCancelled =>
    obtain ⟨m₁, hsection, h⟩ := h
    cases h
    obtain ⟨keepalive, m₂, hkeepalive, hrelease, hcases⟩ := markKeepaliveCancelled_cases hsection
    rcases hcases with ⟨-, m₃, hsignal, hshown⟩ | ⟨-, rfl⟩
    · rw [← releaseTargetLocked_keepalives hrelease] at hkeepalive
      rw [hshown.frame, frame_of_signal hsignal, frame_setKeepalive hkeepalive,
        frame_of_release hrelease]
    · exact frame_of_release hrelease
  case finishWorker =>
    obtain ⟨m₁, hsection, h⟩ := h
    cases h
    rcases finishKeepaliveWorker_cases hsection with ⟨keepalive, hkeepalive, -, hshown⟩ | ⟨-, rfl⟩
    · exact hshown.frame.trans (frame_setKeepalive hkeepalive _)
    · rfl
  case releaseSlot changed => cases changed <;> cases h <;> rfl
  case awaitTarget | awaitSlot =>
    obtain ⟨_, -, h⟩ := h
    cases h
    rfl
  case running | checkContext | workerDone =>
    cases h
    rfl
  case exited => cases h

/-- A step of a `RunAdhoc` call keeps the frame. -/
theorem AdhocCall.step_frame {call : AdhocCall} (h : call.step m self input = some effect) :
    effect.manager.frame = m.frame := by
  unfold AdhocCall.step at h
  cases hpc : call.pc <;>
    simp only [hpc, Option.bind_eq_bind, Option.bind_eq_some_iff, Prod.exists] at h
  case acquire =>
    rcases hacquire : m.acquire with ⟨m₁, _ | changed⟩ <;> simp only [hacquire] at h <;> cases h <;>
      exact frame_of_acquire hacquire
  case confirm =>
    obtain ⟨m₁, confirmed, hsection, h⟩ := h
    have hframe : m₁.frame = m.frame := by
      rcases confirmAdhoc_cases hsection with ⟨-, arbiter, -, -, hshown⟩ | ⟨-, rfl, -⟩
      · exact hshown.frame
      · rfl
    split_ifs at h <;> cases h <;> exact hframe
  case finishRequest =>
    obtain ⟨m₁, hsection, h⟩ := h
    cases h
    rw [← frame_callCancel (m := m) (some call.context)]
    rcases finishAdhocRequest_cases hsection with ⟨arbiter, harbiter, -, hshown⟩ | ⟨-, hshown⟩
    · refine hshown.frame.trans ?_
      rw [freed, @frame_resignalled _ _ arbiter (by simpa using harbiter), frame_giveBack]
    · rw [hshown.frame, frame_giveBack]
  case awaitSlot =>
    obtain ⟨_, -, h⟩ := h
    cases h
    rfl
  case checkContext | running | workerDone =>
    cases h
    rfl
  case returned => cases h

omit [Go.NetURL] in
/-- The last section for a key hands on the manager. -/
theorem StartCall.conclude_manager (call : StartCall) (m : Manager) (key : String)
    (rest : List String) (outcome : StartOutcome) :
    (call.conclude m next self key rest outcome).manager = m := by
  cases outcome <;> rfl

/-- What a step of a `Start` or `StartKeepalive` call does: a section for its first remaining
key. -/
inductive StartCall.Takes (m : Manager) (next self : Nat) (call : StartCall) (input : Input) :
    Effect → Prop
  | prepared (key : String) (m₁ : Manager) (outcome : PrepareOutcome) (pc : StartPC)
      (hsection : m.prepareMode key call.kind.mode input.now = some (m₁, outcome)) :
      Takes m next self call input { manager := m₁, proc := .start { call with pc } }
  | waited (pc : StartPC) :
      Takes m next self call input { manager := m, proc := .start { call with pc } }
  | rejected (key : String) (rest : List String) (m₁ : Manager) (outcome : StartOutcome)
      (hpc : call.pc = .reject) (hremaining : call.remaining = key :: rest)
      (hsection : call.kind.reject m key = some (m₁, outcome)) :
      Takes m next self call input (call.conclude m₁ next self key rest outcome)
  | committed (key : String) (rest : List String) (m₁ : Manager) (outcome : StartOutcome)
      (hpc : call.pc = .commit) (hremaining : call.remaining = key :: rest)
      (hsection : call.kind.commit m key input.now = some (m₁, outcome)) :
      Takes m next self call input (call.conclude m₁ next self key rest outcome)

/-- The sections of a `Start` or `StartKeepalive` call. -/
theorem StartCall.step_takes {call : StartCall} (h : call.step m next self input = some effect) :
    call.Takes m next self input effect := by
  obtain ⟨kind, remaining, pc, started, already, unknown⟩ := call
  unfold StartCall.step at h
  cases remaining with
  | nil => cases h
  | cons key rest =>
    cases pc <;>
      simp only [Option.bind_eq_bind, Option.bind_eq_some_iff, Prod.exists, Option.pure_def] at h
    case prepareMode =>
      obtain ⟨m₁, outcome, hsection, h⟩ := h
      cases outcome <;> cases h <;> exact .prepared key m₁ _ _ hsection
    case waitTargetIdle =>
      obtain ⟨outcome, -, h⟩ := h
      cases outcome <;> cases h <;> exact .waited _
    case reject =>
      obtain ⟨m₁, outcome, hsection, h⟩ := h
      cases h
      exact .rejected key rest m₁ outcome rfl rfl hsection
    case commit =>
      obtain ⟨m₁, outcome, hsection, h⟩ := h
      cases h
      exact .committed key rest m₁ outcome rfl rfl hsection

/-- A step of a `Start` or `StartKeepalive` call keeps the frame. -/
theorem StartCall.step_frame {call : StartCall} (h : call.step m next self input = some effect) :
    effect.manager.frame = m.frame := by
  cases StartCall.step_takes h with
  | prepared key m₁ outcome pc hsection =>
    obtain ⟨m₂, hstops, hshown⟩ := prepareMode_cases hsection
    exact hshown.frame.trans hstops.frame
  | waited pc => rfl
  | rejected key rest m₁ outcome hpc hremaining hsection =>
    rw [StartCall.conclude_manager]
    cases hkind : call.kind with
    | queue subscriber =>
      rw [hkind] at hsection
      rcases rejectQueue_cases hsection with ⟨rfl, -⟩ | ⟨target, job, -, hjob, -, -, -, rfl⟩
      · rfl
      · exact frame_setJob hjob _
    | keepalive =>
      rw [hkind] at hsection
      cases hsection
      rfl
  | committed key rest m₁ outcome hpc hremaining hsection =>
    rw [StartCall.conclude_manager]
    cases hkind : call.kind with
    | queue subscriber =>
      rw [hkind] at hsection
      rcases commitQueue_cases hsection with ⟨rfl, -⟩ | ⟨target, job, -, hjob, -, -, rfl⟩ |
        ⟨target, job, keepalive, arbiter, -, -, hjob, -, harbiter, -, -, -, -, hshown⟩
      · rfl
      · exact frame_setJob hjob _
      · exact hshown.frame.trans ((frame_resignalled (m := m.setJob key _) harbiter _).trans
          (frame_setJob hjob _))
    | keepalive =>
      rw [hkind] at hsection
      rcases commitKeepalive_cases hsection with ⟨rfl, -⟩ |
        ⟨target, job, keepalive, arbiter, -, -, -, hkeepalive, harbiter, -, -, -, -, hshown⟩
      · rfl
      · exact hshown.frame.trans ((frame_resignalled (m := m.setKeepalive key _) harbiter
          _).trans (frame_setKeepalive hkeepalive _))

/-- What a step of an `UpdateTarget` or `DeleteTarget` call does: a look at the target, or its last
section. -/
inductive EditCall.Takes (m : Manager) (input : Input) : EditCall → Effect → Prop
  | waited (kind : EditKind) (key : String) (pc : EditPC)
      (hnext : pc = .commit ∨ pc = .waitTargetIdle key ∨ pc = .returned (.error .targetBusy)) :
      Takes m input ⟨kind, .waitTargetIdle key⟩ { manager := m, proc := .edit ⟨kind, pc⟩ }
  | updated (id : Int) (target : Target) (m₁ : Manager) (result : Except Manager.Error Unit)
      (hsection : m.updateTarget id target input.persist = some (m₁, result)) :
      Takes m input ⟨.update id target, .commit⟩
        { manager := m₁, proc := .edit ⟨.update id target, .returned result⟩ }
  | deleted (id : Int) (m₁ : Manager) (result : Except Manager.Error Unit)
      (hsection : m.deleteTarget id input.persist = some (m₁, result)) :
      Takes m input ⟨.delete id, .commit⟩
        { manager := m₁, proc := .edit ⟨.delete id, .returned result⟩ }

/-- The sections of an `UpdateTarget` or `DeleteTarget` call. -/
theorem EditCall.step_takes {call : EditCall} (h : call.step m input = some effect) :
    EditCall.Takes m input call effect := by
  obtain ⟨kind, pc⟩ := call
  unfold EditCall.step at h
  cases pc <;> simp only [Option.bind_eq_bind, Option.bind_eq_some_iff, Prod.exists] at h
  case waitTargetIdle key =>
    obtain ⟨outcome, -, h⟩ := h
    cases outcome with
    | gone =>
      cases h
      exact .waited kind key _ (Or.inr (Or.inr rfl))
    | idle =>
      cases h
      exact .waited kind key _ (Or.inl rfl)
    | busy =>
      cases h
      refine .waited kind key _ (Or.inr ?_)
      split_ifs
      · exact Or.inl rfl
      · exact Or.inr rfl
  case commit =>
    obtain ⟨m₁, result, hsection, h⟩ := h
    cases h
    cases kind with
    | update id target => exact .updated id target m₁ result hsection
    | delete id => exact .deleted id m₁ result hsection
  case returned => cases h

/-! ### Edits -/

end

namespace Manager

variable {m m' : Manager} {key : String}

/-- At most one target has an identifier. -/
def Identifies (m : Manager) (id : Int) : Prop :=
  ∀ key other first second, m.targets.lookup key = some first →
    m.targets.lookup other = some second → first.id = id → second.id = id → key = other

/-- The key that is found for an identifier has a target with it. -/
theorem target_of_targetKeyByIDLocked (h : m.Tabled) {id : Int}
    (hkey : m.targetKeyByIDLocked id = some key) :
    ∃ target, m.targets.lookup key = some target ∧ target.id = id := by
  have hmem := List.mem_of_find?_eq_some hkey
  obtain ⟨target, htarget⟩ := Table.exists_lookup_of_mem ((h.order key).mp hmem)
  have hid := List.find?_some hkey
  simp only [Manager.target, htarget, Option.getD_some, decide_eq_true_eq] at hid
  exact ⟨target, htarget, hid⟩

/-- The order sorted lists the same keys. -/
theorem Tabled.sortTargetsLocked (h : m.Tabled) : m.sortTargetsLocked.Tabled := by
  have hperm := List.perm_insertionSort
    (fun left right ↦ ¬ targetLess (m.target right) (m.target left)) m.order
  exact ⟨h.jobs, h.keepalives, h.arbiters, fun key ↦ hperm.mem_iff.trans (h.order key),
    hperm.nodup_iff.mpr h.nodup⟩

/-- A target under a new key extends the tables. -/
theorem Tabled.addRecords (h : m.Tabled) (hfree : key ∉ m.targets) (target : Target) :
    (m.addRecords key target).Tabled where
  jobs := by
    intro other
    simp only [Manager.addRecords, AList.mem_insert, h.jobs other]
  keepalives := by
    intro other
    simp only [Manager.addRecords, AList.mem_insert, h.keepalives other]
  arbiters := by
    intro other
    simp only [Manager.addRecords, AList.mem_insert, h.arbiters other]
  order := by
    intro other
    simp only [Manager.addRecords, AList.mem_insert, List.mem_append, List.mem_singleton,
      h.order other]
    tauto
  nodup := by
    rw [Manager.addRecords, List.nodup_append]
    refine ⟨h.nodup, List.nodup_singleton _, ?_⟩
    intro other hother new hnew
    rw [List.mem_singleton.mp hnew]
    rintro rfl
    exact hfree ((h.order _).mp hother)

/-- What the move of a target to another key leaves. -/
theorem renameTarget_cases {oldKey newKey : String} (h : m.renameTarget oldKey newKey = some m') :
    ∃ job keepalive arbiter, m.jobs.lookup oldKey = some job ∧
      m.keepalives.lookup oldKey = some keepalive ∧ m.arbiters.lookup oldKey = some arbiter ∧
      m' = { m with
        targets := m.targets.erase oldKey
        jobs := (m.jobs.erase oldKey).insert newKey job
        keepalives := (m.keepalives.erase oldKey).insert newKey keepalive
        arbiters := (m.arbiters.erase oldKey).insert newKey arbiter
        order := m.order.replace oldKey newKey } := by
  simp only [renameTarget, Option.bind_eq_bind, Option.bind_eq_some_iff, Option.pure_def] at h
  obtain ⟨job, hjob, keepalive, hkeepalive, arbiter, harbiter, h⟩ := h
  cases h
  exact ⟨job, keepalive, arbiter, hjob, hkeepalive, harbiter, rfl⟩

/-- The members of a list in which one entry is replaced. -/
theorem mem_replace_iff {keys : List String} {oldKey newKey : String} (hnodup : keys.Nodup)
    (hold : oldKey ∈ keys) (key : String) :
    key ∈ keys.replace oldKey newKey ↔ key = newKey ∨ (key ≠ oldKey ∧ key ∈ keys) := by
  induction keys with
  | nil => cases hold
  | cons head keys ih =>
    rw [List.nodup_cons] at hnodup
    rw [List.replace_cons]
    by_cases hhead : oldKey = head
    · subst hhead
      have hne : key ∈ keys → key ≠ oldKey := fun hmem heq ↦ hnodup.1 (heq ▸ hmem)
      simp only [beq_self_eq_true, List.mem_cons]
      tauto
    · have hmem : oldKey ∈ keys := by simpa [hhead] using hold
      simp only [beq_false_of_ne hhead, List.mem_cons, ih hnodup.2 hmem]
      have hne : key = head → key ≠ oldKey := fun heq hold ↦ hhead (hold.symm.trans heq)
      tauto

/-- Replacing an entry by a new one keeps a list without duplicates. -/
theorem nodup_replace {keys : List String} {oldKey newKey : String} (hnodup : keys.Nodup)
    (hnew : newKey ∉ keys) : (keys.replace oldKey newKey).Nodup := by
  induction keys with
  | nil => exact hnodup
  | cons head keys ih =>
    rw [List.nodup_cons] at hnodup
    rw [List.mem_cons, not_or] at hnew
    rw [List.replace_cons]
    by_cases hhead : oldKey = head
    · simp only [hhead, beq_self_eq_true, List.nodup_cons]
      exact ⟨hnew.2, hnodup.2⟩
    · simp only [beq_false_of_ne hhead, List.nodup_cons]
      refine ⟨?_, ih hnodup.2 hnew.2⟩
      intro hmem
      by_cases hold : oldKey ∈ keys
      · rcases (mem_replace_iff hnodup.2 hold head).mp hmem with heq | ⟨-, hmem⟩
        · exact hnew.1 heq.symm
        · exact hnodup.1 hmem
      · rw [List.replace_of_not_mem hold] at hmem
        exact hnodup.1 hmem

/-- A target moved to a free key keeps the tables in shape. -/
theorem Tabled.renameTarget (h : m.Tabled) {oldKey newKey : String} (hold : oldKey ∈ m.targets)
    (hnew : newKey ∉ m.targets) (hrename : m.renameTarget oldKey newKey = some m')
    (target : Target) : { m' with targets := m'.targets.insert newKey target }.Tabled := by
  obtain ⟨job, keepalive, arbiter, -, -, -, rfl⟩ := renameTarget_cases hrename
  refine ⟨?_, ?_, ?_, ?_, nodup_replace h.nodup (mt (h.order newKey).mp hnew)⟩
  · intro key
    simp only [AList.mem_insert, AList.mem_erase, h.jobs key]
  · intro key
    simp only [AList.mem_insert, AList.mem_erase, h.keepalives key]
  · intro key
    simp only [AList.mem_insert, AList.mem_erase, h.arbiters key]
  · intro key
    rw [mem_replace_iff h.nodup ((h.order oldKey).mpr hold), AList.mem_insert, AList.mem_erase,
      h.order key]

/-- New data for a target keeps the tables in shape. -/
theorem Tabled.insertTarget (h : m.Tabled) (hkey : key ∈ m.targets) (target : Target) :
    { m with targets := m.targets.insert key target }.Tabled := by
  have hmem : ∀ other, other ∈ m.targets.insert key target ↔ other ∈ m.targets := by
    intro other
    rw [AList.mem_insert, or_iff_right_of_imp]
    rintro rfl
    exact hkey
  exact ⟨fun other ↦ (h.jobs other).trans (hmem other).symm,
    fun other ↦ (h.keepalives other).trans (hmem other).symm,
    fun other ↦ (h.arbiters other).trans (hmem other).symm,
    fun other ↦ (h.order other).trans (hmem other).symm, h.nodup⟩

/-- A target removed from all tables keeps them in shape. -/
theorem Tabled.eraseTarget (h : m.Tabled) (key : String) :
    { m with
      targets := m.targets.erase key
      jobs := m.jobs.erase key
      keepalives := m.keepalives.erase key
      arbiters := m.arbiters.erase key
      order := m.order.erase key }.Tabled := by
  refine ⟨?_, ?_, ?_, ?_, h.nodup.erase key⟩
  · intro other
    simp only [AList.mem_erase, h.jobs other]
  · intro other
    simp only [AList.mem_erase, h.keepalives other]
  · intro other
    simp only [AList.mem_erase, h.arbiters other]
  · intro other
    rw [h.nodup.mem_erase_iff, AList.mem_erase, h.order other]

/-- Targets added under distinct free keys keep the tables in shape. -/
theorem tabled_foldl_addTarget {targets : List Target} (h : m.Tabled)
    (hnames : (targets.map fun target ↦ normalizeName target.name).Nodup)
    (hfree : ∀ target ∈ targets, normalizeName target.name ∉ m.targets) :
    (targets.foldl addTarget m).Tabled := by
  induction targets generalizing m with
  | nil => exact h
  | cons target targets ih =>
    rw [List.map_cons, List.nodup_cons] at hnames
    have htarget := hfree target List.mem_cons_self
    refine ih (h.addRecords htarget target) hnames.2 ?_
    intro other hother
    rw [addTarget, addRecords, AList.mem_insert, not_or]
    refine ⟨?_, hfree other (List.mem_cons_of_mem _ hother)⟩
    intro heq
    exact hnames.1 (heq ▸ List.mem_map_of_mem hother)

/-- The tables are in shape after `New` on targets with distinct normalised names. -/
theorem tabled_new (settings : Settings) {targets : List Target}
    (hnames : (targets.map fun target ↦ normalizeName target.name).Nodup) :
    (new settings targets).Tabled := by
  refine tabled_foldl_addTarget ?_ hnames fun _ _ ↦ AList.notMem_empty _
  exact ⟨fun key ↦ by simp, fun key ↦ by simp, fun key ↦ by simp, fun key ↦ by simp,
    List.nodup_nil⟩

section

variable [Go.NetURL]

/-- `CreateTarget` keeps the tables in shape. -/
theorem Tabled.createTarget (h : m.Tabled) {target : Option Target} {persist : Persist}
    {result : Except Error Unit} (hcreate : m.createTarget target persist = some (m', result)) :
    m'.Tabled := by
  rcases createTarget_cases hcreate with ⟨rfl, -⟩ | ⟨saved, hfree, -, hshown⟩
  · exact h
  · exact (h.addRecords (AList.lookup_eq_none.mp hfree) saved).sortTargetsLocked.of_domain
      hshown.domain

omit [Go.NetURL] in
/-- Where an identifier is that of one target, the new key of an updated target is its old one or
free. -/
theorem Tabled.eq_or_free (h : m.Tabled) {id : Int} {oldKey newKey : String}
    (hid : m.Identifies id) (hkey : m.targetKeyByIDLocked id = some oldKey)
    (hconflict : m.conflicts newKey id = false) : newKey = oldKey ∨ newKey ∉ m.targets := by
  by_cases hmem : newKey ∈ m.targets
  · left
    obtain ⟨target, htarget⟩ := Table.exists_lookup_of_mem hmem
    obtain ⟨old, hold, holdID⟩ := target_of_targetKeyByIDLocked h hkey
    simp only [conflicts, htarget, Option.any_some, decide_eq_false_iff_not, not_not] at hconflict
    exact hid newKey oldKey target old htarget hold hconflict holdID
  · exact Or.inr hmem

/-- Assumes: the identifier is that of one target only. The last section of `UpdateTarget` keeps the
tables in shape. -/
theorem Tabled.updateTarget (h : m.Tabled) {id : Int} {target : Target} {persist : Persist}
    {result : Except Error Unit} (hid : m.Identifies id)
    (hupdate : m.updateTarget id target persist = some (m', result)) : m'.Tabled := by
  rcases updateTarget_cases hupdate with ⟨rfl, -⟩ |
    ⟨oldKey, saved, m₁, hkey, -, hconflict, -, -, hmove, hshown⟩
  · exact h
  · obtain ⟨old, hold, -⟩ := target_of_targetKeyByIDLocked h hkey
    have hfree := h.eq_or_free hid hkey hconflict
    generalize normalizeName saved.name = newKey at hconflict hmove hshown hfree
    refine Tabled.of_domain ?_ hshown.domain
    rcases hmove with ⟨rfl, rfl⟩ | ⟨hne, hrename⟩
    · exact (h.insertTarget (Table.mem_of_lookup hold) saved).sortTargetsLocked
    · exact (h.renameTarget (Table.mem_of_lookup hold) (hfree.resolve_left hne) hrename
        saved).sortTargetsLocked

/-- The last section of `DeleteTarget` keeps the tables in shape. -/
theorem Tabled.deleteTarget (h : m.Tabled) {id : Int} {persist : Persist}
    {result : Except Error Unit} (hdelete : m.deleteTarget id persist = some (m', result)) :
    m'.Tabled := by
  rcases deleteTarget_cases hdelete with ⟨rfl, -⟩ | ⟨key, -, -, -, hshown⟩
  · exact h
  · exact (h.eraseTarget key).of_domain hshown.domain

/-- `UpdateSettings` keeps the domain. -/
theorem domain_of_updateSettings {keepaliveMin keepaliveMax : Duration} {maxParallel : Int}
    {successMessage : String} {now : Time} {draw : String → Nat}
    (h : m.updateSettings keepaliveMin keepaliveMax maxParallel successMessage now draw =
      some m') : m'.domain = m.domain := by
  obtain ⟨m₁, m₂, hloop, hlimit, hshown⟩ := updateSettings_cases h
  have hfirst : m₁.domain = m.domain := hloop.domain
  rcases hlimit with ⟨rfl, -⟩ | ⟨-, rfl⟩
  · exact hshown.domain.trans hfirst
  · exact hshown.domain.trans hfirst

/-- `UpdateSettings` sets the limits, if the number of processes is positive. -/
theorem limits_of_updateSettings {keepaliveMin keepaliveMax : Duration} {maxParallel : Int}
    {successMessage : String} {now : Time} {draw : String → Nat} (hpositive : 0 < maxParallel)
    (h : m.updateSettings keepaliveMin keepaliveMax maxParallel successMessage now draw =
      some m') : m'.limits = ⟨keepaliveMin, keepaliveMax, maxParallel⟩ := by
  obtain ⟨m₁, m₂, hloop, hlimit, hshown⟩ := updateSettings_cases h
  have hfirst : m₁.limits = ⟨keepaliveMin, keepaliveMax, m.maxParallel⟩ :=
    limits_of_frame hloop.frame
  have hlast : m'.limits = m₂.limits := congrArg Prod.snd hshown.frame
  rw [hlast]
  rcases hlimit with ⟨rfl, hsame⟩ | ⟨-, rfl⟩
  · have hparallel : m₂.maxParallel = m.maxParallel := congrArg Limits.maxParallel hfirst
    rw [hfirst, ← hparallel, ← hsame hpositive]
  · exact congrArg (fun limits : Limits ↦ { limits with maxParallel }) hfirst

end

end Manager

/-! ### Lawful steps and reachable states -/

namespace System

variable [Go.NetURL]

/-- A target is updated only under an identifier that is its own. -/
def Lawful (s : System) : Label → Prop
  | .advance self _ => ∀ id target, s.procs[self]? =
      some (.edit { kind := .update id target, pc := .commit }) → s.manager.Identifies id
  | _ => True

/-- The states that are reached from `New`, on targets with distinct normalised names, by lawful
steps. -/
def Reachable (s : System) : Prop :=
  ∃ (settings : Manager.Settings) (targets : List Target),
    (targets.map fun target ↦ Manager.normalizeName target.name).Nodup ∧
    Steps step Lawful (init settings targets) s

/-- What holds after `New` and is kept by lawful steps holds in every reachable state. -/
theorem Reachable.invariant {P : System → Prop}
    (hinit : ∀ (settings : Manager.Settings) (targets : List Target),
      (targets.map fun target ↦ Manager.normalizeName target.name).Nodup →
      P (init settings targets))
    (hkeep : ∀ (s s' : System) (label : Label), P s → s.Lawful label →
      s.step label = some s' → P s') {s : System} (h : s.Reachable) : P s := by
  obtain ⟨settings, targets, hnames, hrun⟩ := h
  exact hrun.invariant hkeep (hinit settings targets hnames)

/-- A lawful step leads from a reachable state to a reachable one. -/
theorem Reachable.step {s s' : System} {label : Label} (h : s.Reachable) (hlawful : s.Lawful label)
    (hstep : s.step label = some s') : s'.Reachable := by
  obtain ⟨settings, targets, hnames, hrun⟩ := h
  exact ⟨settings, targets, hnames, hrun.tail hlawful hstep⟩

/-- A property of new systems that lawful steps between reachable states keep holds in every
reachable state. -/
theorem Reachable.induct {P : System → Prop}
    (hinit : ∀ (settings : Manager.Settings) (targets : List Target),
      (targets.map fun target ↦ Manager.normalizeName target.name).Nodup →
      P (init settings targets))
    (hkeep : ∀ (s s' : System) (label : Label), s.Reachable → P s → s.Lawful label →
      s.step label = some s' → P s') {s : System} (h : s.Reachable) : P s := by
  have hboth : s.Reachable ∧ P s := by
    refine h.invariant (P := fun s ↦ s.Reachable ∧ P s) ?_ ?_
    · intro settings targets hnames
      exact ⟨⟨settings, targets, hnames, .refl⟩, hinit settings targets hnames⟩
    · intro s s' label hs hlawful hstep
      exact ⟨hs.1.step hlawful hstep, hkeep s s' label hs.1 hs.2 hlawful hstep⟩
  exact hboth.2

/-- A lawful run leads from a reachable state to a reachable one. -/
theorem Reachable.steps {s s' : System} (h : s.Reachable)
    (hrun : Steps System.step Lawful s s') : s'.Reachable :=
  hrun.invariant (fun _ _ _ hs hlawful hstep ↦ hs.step hlawful hstep) h

/-- A step of a goroutine and the label it is taken under. -/
theorem step_advance {s s' : System} {self : Nat} {input : Input}
    (hstep : s.step (.advance self input) = some s') :
    ∃ proc effect, s.procs[self]? = some proc ∧
      proc.step s.manager s.procs.length self input = some effect ∧ s' = s.apply self effect := by
  simp only [System.step, Option.bind_eq_bind, Option.bind_eq_some_iff, Option.pure_def] at hstep
  obtain ⟨proc, hproc, effect, heffect, hstep⟩ := hstep
  cases hstep
  exact ⟨proc, effect, hproc, heffect, rfl⟩

/-- What a call of `UpdateTarget` or `DeleteTarget` leaves of the manager. -/
theorem editCall_manager {s s' : System} {kind : EditKind} {id : Int} {now : Time}
    (h : s.editCall kind id now = some s') :
    ∃ pc found, s.manager.stopTarget id now = some (s'.manager, found) ∧
      s'.procs = s.procs ++ [.edit { kind, pc }] ∧ s'.trace = s.trace ∧
      ((∃ key, pc = .waitTargetIdle key) ∨ ∃ result, pc = .returned result) := by
  simp only [editCall, Option.bind_eq_bind, Option.bind_eq_some_iff, Option.pure_def,
    Prod.exists] at h
  obtain ⟨m, found, hsection, h⟩ := h
  cases found with
  | error error =>
    cases h
    exact ⟨_, _, hsection, rfl, rfl, Or.inr ⟨_, rfl⟩⟩
  | ok key =>
    cases h
    exact ⟨_, _, hsection, rfl, rfl, Or.inl ⟨_, rfl⟩⟩

/-- The sections that edit targets, with the label they are taken under and the manager they
leave. -/
inductive Edits (s : System) : Label → Manager → Prop
  | create {target : Option Target} {persist : Persist} {m : Manager}
      {result : Except Manager.Error Unit}
      (hsection : s.manager.createTarget target persist = some (m, result)) :
      Edits s (.createTarget target persist) m
  | update {self : Nat} {input : Input} {id : Int} {target : Target} {m : Manager}
      {result : Except Manager.Error Unit}
      (hproc : s.procs[self]? = some (.edit { kind := .update id target, pc := .commit }))
      (hsection : s.manager.updateTarget id target input.persist = some (m, result)) :
      Edits s (.advance self input) m
  | delete {self : Nat} {input : Input} {id : Int} {m : Manager}
      {result : Except Manager.Error Unit}
      (hproc : s.procs[self]? = some (.edit { kind := .delete id, pc := .commit }))
      (hsection : s.manager.deleteTarget id input.persist = some (m, result)) :
      Edits s (.advance self input) m

/-- Every step leaves the targets, their order, the keys of the records and the limits alone, unless
it edits targets or is a call of `UpdateSettings`. -/
theorem step_frame {s s' : System} {label : Label} (hstep : s.step label = some s') :
    s'.manager.frame = s.manager.frame ∨ s.Edits label s'.manager ∨
      ∃ keepaliveMin keepaliveMax maxParallel successMessage now draw,
        label = .updateSettings keepaliveMin keepaliveMax maxParallel successMessage now draw := by
  cases label
  case stop names now =>
    simp only [System.step, Option.map_eq_some_iff] at hstep
    obtain ⟨⟨m₁, result⟩, hsection, rfl⟩ := hstep
    obtain ⟨m₂, hstops, hshown, -⟩ := Manager.stop_cases hsection
    exact Or.inl (hshown.frame.trans hstops.frame)
  case runAdhoc id now =>
    simp only [System.step, Option.bind_eq_bind, Option.bind_eq_some_iff, Option.pure_def,
      Prod.exists] at hstep
    obtain ⟨m₁, reserved, hsection, hstep⟩ := hstep
    have hframe : m₁.frame = s.manager.frame := by
      rcases Manager.reserveAdhoc_cases hsection with ⟨rfl, -⟩ |
        ⟨key, arbiter, -, -, -, -, harbiter, -, hshown⟩
      · rfl
      · exact hshown.frame.trans (Manager.frame_setArbiter harbiter _)
    cases reserved <;> cases hstep <;> exact Or.inl hframe
  case createTarget target persist =>
    simp only [System.step, Option.map_eq_some_iff] at hstep
    obtain ⟨⟨m₁, result⟩, hsection, rfl⟩ := hstep
    exact Or.inr (Or.inl (.create hsection))
  case updateTarget id target now =>
    cases target with
    | none =>
      cases hstep
      exact Or.inl rfl
    | some target =>
      obtain ⟨_, _, hsection, -⟩ := editCall_manager hstep
      obtain ⟨m₂, hstops, hshown⟩ := Manager.stopTarget_cases hsection
      exact Or.inl (hshown.frame.trans hstops.frame)
  case deleteTarget id now =>
    obtain ⟨_, _, hsection, -⟩ := editCall_manager hstep
    obtain ⟨m₂, hstops, hshown⟩ := Manager.stopTarget_cases hsection
    exact Or.inl (hshown.frame.trans hstops.frame)
  case updateSettings => exact Or.inr (Or.inr ⟨_, _, _, _, _, _, rfl⟩)
  case observe buffer =>
    simp only [System.step, Option.map_eq_some_iff] at hstep
    obtain ⟨⟨m₁, snapshot, id⟩, hsection, rfl⟩ := hstep
    obtain ⟨_, rfl⟩ := Manager.observe_cases hsection
    exact Or.inl rfl
  case beginShutdown =>
    cases hstep
    left
    show s.manager.beginShutdown.frame = s.manager.frame
    unfold Manager.beginShutdown
    split_ifs <;> rfl
  case cancelAdhoc call =>
    simp only [System.step] at hstep
    split at hstep
    · cases hstep
      exact Or.inl (Manager.frame_callCancel _)
    · cases hstep
  case advance self input =>
    obtain ⟨proc, effect, hproc, heffect, rfl⟩ := step_advance hstep
    cases proc with
    | queue worker => exact Or.inl (QueueWorker.step_frame heffect)
    | keepalive worker => exact Or.inl (KeepaliveWorker.step_frame heffect)
    | adhoc call => exact Or.inl (AdhocCall.step_frame heffect)
    | start call => exact Or.inl (StartCall.step_frame heffect)
    | edit call =>
      obtain ⟨kind, pc⟩ := call
      simp only [Proc.step, EditCall.step] at heffect
      cases pc <;> simp only [Option.bind_eq_bind, Option.bind_eq_some_iff, Prod.exists] at heffect
      case waitTargetIdle key =>
        obtain ⟨outcome, -, heffect⟩ := heffect
        cases outcome <;> cases heffect <;> exact Or.inl rfl
      case commit =>
        obtain ⟨m₁, result, hsection, heffect⟩ := heffect
        cases heffect
        cases kind with
        | update id target => exact Or.inr (Or.inl (.update hproc hsection))
        | delete id => exact Or.inr (Or.inl (.delete hproc hsection))
      case returned => cases heffect
    | wait call =>
      left
      simp only [Proc.step, WaitCall.step] at heffect
      split at heffect
      · cases heffect
      · split_ifs at heffect <;> cases heffect <;> rfl
  case start | startKeepalive | setMessenger | closeSubscription | receive | wait | cancelRoot =>
    cases hstep
    exact Or.inl rfl

/-- Every step leaves the targets, their order and the keys of the records alone, unless it edits
targets. -/
theorem step_domain {s s' : System} {label : Label} (hstep : s.step label = some s') :
    s'.manager.domain = s.manager.domain ∨ s.Edits label s'.manager := by
  rcases step_frame hstep with hframe | hedits | ⟨_, _, _, _, _, _, rfl⟩
  · exact Or.inl (Manager.domain_of_frame hframe)
  · exact Or.inr hedits
  · simp only [System.step, Option.map_eq_some_iff] at hstep
    obtain ⟨m₁, hsection, rfl⟩ := hstep
    exact Or.inl (Manager.domain_of_updateSettings hsection)

/-- A lawful step keeps the tables in shape. -/
theorem step_tabled {s s' : System} {label : Label} (h : s.manager.Tabled)
    (hlawful : s.Lawful label) (hstep : s.step label = some s') : s'.manager.Tabled := by
  rcases step_domain hstep with hdomain | hedits
  · exact h.of_domain hdomain
  · cases hedits with
    | create hsection => exact h.createTarget hsection
    | update hproc hsection => exact h.updateTarget (hlawful _ _ hproc) hsection
    | delete _ hsection => exact h.deleteTarget hsection

/-- A guard that every lawful step without an edit passes. -/
def calm (s : System) : Label → Bool
  | .advance self _ =>
    match s.procs[self]? with
    | some (.edit _) => false
    | _ => true
  | _ => true

omit [Go.NetURL] in
/-- A calm step is lawful. -/
theorem lawful_of_calm (s : System) (label : Label) (h : s.calm label = true) :
    s.Lawful label := by
  cases label
  case advance self input =>
    intro id target hproc
    simp [calm, hproc] at h
  all_goals trivial

/-- A new system on targets `a` and `b`, with one slot. -/
def sample : System :=
  init ⟨true, none, 1, 2, 1, "ok"⟩
    [{ Target.zero with id := 1, name := "a" }, { Target.zero with id := 2, name := "b" }]

/-- Given calm labels lead from the sample system to a reachable state. -/
theorem exists_of_sample (labels : List Label) (test : System → Bool)
    (h : (runLabels step calm sample labels).any test = true) :
    ∃ s : System, s.Reachable ∧ test s = true := by
  obtain ⟨s, hrun, htest⟩ := Steps.exists_of_runLabels lawful_of_calm h
  exact ⟨s, ⟨_, _, by decide, hrun⟩, htest⟩

/-- The tables are in shape in every reachable state. -/
theorem Reachable.tabled {s : System} (h : s.Reachable) : s.manager.Tabled :=
  h.invariant (fun settings _ hnames ↦ Manager.tabled_new settings hnames)
    fun _ _ _ hs hlawful hstep ↦ step_tabled hs hlawful hstep

end System

end CodexQueueBot.Jobs
