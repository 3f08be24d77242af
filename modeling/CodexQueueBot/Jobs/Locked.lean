import CodexQueueBot.Jobs.Manager
import Mathlib.Data.List.Sort

/-!
# Operations under the manager's lock

The helpers of `jobs.Manager` that are called with the mutex held: the close-and-replace signals,
the release of an arbiter, the three stop operations, the registration of a subscriber, and the
resolution of names and identifiers.
-/

set_option autoImplicit false
set_option relaxedAutoImplicit false

namespace CodexQueueBot.Jobs

open Lib

namespace Manager

/-! ### Signals -/

/-- `signalTargetLocked`: the channel of the arbiter is closed and replaced. -/
def signalTargetLocked (m : Manager) (key : String) : Option Manager := do
  let arbiter ← m.arbiters.lookup key
  return { m with
    closed := arbiter.changed :: m.closed
    nextChannel := m.nextChannel + 1
    arbiters := m.arbiters.insert key { arbiter with changed := m.nextChannel } }

/-- `signalParallelLocked`: the channel for slots is closed and replaced. -/
def signalParallelLocked (m : Manager) : Manager :=
  { m with
    closed := m.parallelChanged :: m.closed
    nextChannel := m.nextChannel + 1
    parallelChanged := m.nextChannel }

/-- `signalKeepaliveScheduleLocked`: the channel for the schedule is closed and replaced. -/
def signalKeepaliveScheduleLocked (m : Manager) (key : String) : Option Manager := do
  let current ← m.keepalives.lookup key
  return { m with
    closed := current.scheduleChanged :: m.closed
    nextChannel := m.nextChannel + 1
    keepalives := m.keepalives.insert key { current with scheduleChanged := m.nextChannel } }

/-- `releaseTargetLocked`: only the given owner and run release the target. -/
def releaseTargetLocked (m : Manager) (key : String) (owner : RequestOwner) (runID : Nat) :
    Option Manager := do
  let arbiter ← m.arbiters.lookup key
  if arbiter.owner ≠ owner ∨ arbiter.ownerRunID ≠ runID then return m
  (m.setArbiter key
    { arbiter with owner := .none, ownerRunID := 0, cancel := none }).signalTargetLocked key

/-! ### Stopping -/

/-- The job that `stopQueueLocked` leaves: the run identifier moves on, and a running job becomes
stopped without subscribers. -/
def stopJob (current : Job) (now : Time) : Job :=
  let bumped := { current with runID := current.runID + 1, cancel := none }
  if current.state = .running then
    { bumped with state := .stopped, finishedAt := now, nextAttempt := 0, subscribers := ∅ }
  else bumped

/-- `stopQueueLocked`. -/
def stopQueueLocked (m : Manager) (key : String) (now : Time) : Option Manager :=
  match m.jobs.lookup key with
  | none => some m
  | some current =>
    if current.state ≠ .running ∧ current.workers = 0 then some m
    else do
      let m ← (m.setJob key (stopJob current now)).signalTargetLocked key
      return m.callCancel current.cancel

/-- The keepalive job that `stopKeepaliveLocked` leaves. -/
def stopKeepaliveJob (current : KeepaliveJob) (now : Time) : KeepaliveJob :=
  let bumped := { current with runID := current.runID + 1, cancel := none }
  if current.state ≠ .stopped then
    { bumped with state := .stopped, stoppedAt := now, nextRequest := 0 }
  else bumped

/-- `stopKeepaliveLocked`. -/
def stopKeepaliveLocked (m : Manager) (key : String) (now : Time) : Option Manager :=
  match m.keepalives.lookup key with
  | none => some m
  | some current =>
    if current.state = .stopped ∧ current.workers = 0 then some m
    else do
      let m ← (m.setKeepalive key (stopKeepaliveJob current now)).signalTargetLocked key
      return m.callCancel current.cancel

/-- `stopAdhocLocked`: the ad-hoc request is cancelled but keeps the target. -/
def stopAdhocLocked (m : Manager) (key : String) : Manager :=
  match m.arbiters.lookup key with
  | none => m
  | some arbiter =>
    if arbiter.owner ≠ .adhoc then m
    else (m.setArbiter key { arbiter with cancel := none }).callCancel arbiter.cancel

/-! ### Subscribers -/

/-- The key under which a subscriber is stored: its trimmed key, or else its recipient. -/
def subscriberKey (subscriber : Subscriber) : String :=
  let key := Go.Strings.trimSpace subscriber.key
  if key = "" then subscriber.recipient else key

/-- `addSubscriberLocked`. -/
def addSubscriberLocked (current : Job) (subscriber : Subscriber) : Job :=
  if subscriber.recipient = "" then current
  else { current with
    subscribers := current.subscribers.insert (subscriberKey subscriber) subscriber }

/-! ### Names and identifiers -/

/-- `containsAll`. -/
def containsAll (names : List String) : Bool :=
  names.any fun name ↦ ["all", "全部", "*"].contains (normalizeName name)

/-- One round of the loop of `resolveLocked`, on the names seen, the keys and the unknown names. -/
def resolveName (m : Manager) (found : List String × List String × List String) (name : String) :
    List String × List String × List String :=
  let (seen, keys, unknown) := found
  let key := normalizeName name
  if key = "" then found
  else if seen.contains key then found
  else if (m.targets.lookup key).isNone then (key :: seen, keys, unknown ++ [name])
  else (key :: seen, keys ++ [key], unknown)

/-- `resolveLocked`: the keys of the named targets and the unknown names. -/
def resolveLocked (m : Manager) (names : List String) : List String × List String :=
  if names.isEmpty || containsAll names then (m.order, [])
  else (names.foldl m.resolveName ([], [], [])).2

/-- `targetKeyByIDLocked`. -/
def targetKeyByIDLocked (m : Manager) (id : Int) : Option String :=
  m.order.find? fun key ↦ (m.target key).id = id

/-- The comparison of `sortTargetsLocked`. -/
def targetLess (left right : Target) : Prop :=
  if left.sortOrder ≠ right.sortOrder then left.sortOrder < right.sortOrder
  else if left.id ≠ right.id then left.id < right.id
  else Go.Strings.toLower left.name < Go.Strings.toLower right.name

instance (left right : Target) : Decidable (targetLess left right) :=
  inferInstanceAs (Decidable (if left.sortOrder ≠ right.sortOrder then
    left.sortOrder < right.sortOrder
    else if left.id ≠ right.id then left.id < right.id
    else Go.Strings.toLower left.name < Go.Strings.toLower right.name))

/-- `sortTargetsLocked`: a stable sort of the keys. -/
def sortTargetsLocked (m : Manager) : Manager :=
  { m with
    order := m.order.insertionSort fun left right ↦ ¬ targetLess (m.target right) (m.target left) }

/-- `randomDuration`, for a draw of the random source. -/
def randomDuration (minimum maximum : Duration) (draw : Nat) : Duration :=
  if maximum ≤ minimum then minimum
  else minimum + draw % (maximum - minimum + 1)

end Manager

end CodexQueueBot.Jobs
