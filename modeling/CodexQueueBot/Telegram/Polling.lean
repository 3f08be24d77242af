import CodexQueueBot.Lib.Runs
import CodexQueueBot.Telegram.Batch
import Mathlib.Data.List.Nodup

/-!
# The polls of one run

One `Run` of a Telegram client, with a server that answers `getUpdates` with any updates of distinct
identifiers that are not below the offset, in any order. Polls may fail and waits may end as they
like, and calls of `Send` go on beside. The updates that the server has returned are recorded beside
the client.

`Lossless` says what such a run has to guarantee from one state to a later one. The offset is
brought behind an update by adding one, which wraps around at the last number of 64 bits: with an
update of that identifier the offset drops to the first one (`offset_drops`), and the server may
return everything again. `lossless_of_numbers` is about the runs without such an update.
-/

set_option autoImplicit false
set_option relaxedAutoImplicit false

namespace CodexQueueBot.Telegram

open Hub Lib

/-- A client and the updates that were returned to it. -/
structure Polling where
  client : Listener Client.Run
  returned : List Update
  deriving DecidableEq

namespace Polling

/-- A client before `Run` is called. -/
def new : Polling :=
  ⟨Client.new, []⟩

/-- A step of the client. The updates of an answer are returned to it. -/
def step (s : Polling) (label : Hub.Label Client.Event) : Option Polling := do
  let client ← Client.machine.step s.client label
  return ⟨client, match label with
    | .run (.polled updates) => s.returned ++ updates
    | _ => s.returned⟩

/-- The answers of the server: updates of distinct identifiers, which are numbers of 64 bits and not
below the offset. -/
def answers (s : Polling) : Hub.Label Client.Event → Bool
  | .run (.polled updates) =>
    (updates.map (·.updateID)).Nodup ∧
      ∀ update ∈ updates, s.client.run.offset ≤ update.updateID ∧
        -2 ^ 63 ≤ update.updateID ∧ update.updateID < 2 ^ 63
  | _ => true

/-- No update has the last number of 64 bits. -/
def numbers : Hub.Label Client.Event → Bool
  | .run (.polled updates) => ∀ update ∈ updates, update.updateID ≠ 2 ^ 63 - 1
  | _ => true

/-- `Run` works on its batch: it takes its next step, or the handler returns. -/
def working (label : Hub.Label Client.Event) : Bool :=
  label = .run .next ∨ label = .run .handled

/-- What a run loses and repeats from one state to a later one, which is nothing: the offset does
not decrease; the updates for the handler have been passed to it in their order, once each, apart
from those that are left of the batch; while `Run` polls, those below the offset have been passed or
are not for the handler; and what is left of the batch is passed when `Run` has worked on it. -/
structure Lossless (s s' : Polling) : Prop where
  offset : s.client.run.offset ≤ s'.client.run.offset
  order : s'.client.run.passed ++ s'.client.run.place.held.filter (·.incoming.isSome) =
    s'.returned.filter (·.incoming.isSome)
  once : (s'.client.run.passed.map (·.updateID)).Nodup
  settled : s'.client.run.place = .polling → ∀ update ∈ s'.returned,
    update.updateID < s'.client.run.offset →
      update ∈ s'.client.run.passed ∨ update.incoming = none
  finishes : ∃ s'', Steps step (fun _ label ↦ working label = true) s' s'' ∧
    s''.returned = s'.returned ∧
    s''.client.run.passed = s'.returned.filter (·.incoming.isSome)

/-! ### The invariant -/

/-- The updates that were returned have distinct identifiers. Those that are left of the batch come
last and have a next one; the others are behind the offset, and passed if they are for the
handler. -/
structure Sound (s : Polling) : Prop where
  worked : ∃ worked, s.returned = worked ++ s.client.run.place.held ∧
    (∀ update ∈ worked, update.updateID < s.client.run.offset) ∧
    s.client.run.passed = worked.filter (·.incoming.isSome)
  distinct : (s.returned.map (·.updateID)).Nodup
  held : ∀ update ∈ s.client.run.place.held, update.HasNext

variable {s s' : Polling} {label : Hub.Label Client.Event}

theorem sound_new : Sound new where
  worked := ⟨[], rfl, by simp, rfl⟩
  distinct := List.nodup_nil
  held _ hmem := absurd hmem List.not_mem_nil

/-- A step without an answer returns nothing. -/
theorem step_returned (hstep : s.step label = some s')
    (hlabel : ∀ updates, label ≠ .run (.polled updates)) :
    Client.machine.step s.client label = some s'.client ∧ s'.returned = s.returned := by
  obtain ⟨client, hclient, hresult⟩ := Option.bind_eq_some_iff.mp hstep
  rw [← Option.some.inj hresult]
  refine ⟨hclient, ?_⟩
  dsimp only
  split
  next updates => exact absurd rfl (hlabel updates)
  next => rfl

/-- What is left of a batch after its first update, and what was passed. -/
theorem run_nextUpdate (client : Listener Client.Run) (update : Update) (updates : List Update) :
    (Client.nextUpdate client update updates).run.place.held = updates ∧
      (Client.nextUpdate client update updates).run.passed =
        client.run.passed ++ [update].filter (·.incoming.isSome) := by
  rw [Client.nextUpdate]
  cases hincoming : update.incoming with
  | none => exact ⟨rfl, by simp [hincoming]⟩
  | some incoming => exact ⟨rfl, by simp [hincoming]⟩

/-- A step without an answer keeps the invariant and does not lower the offset. -/
theorem Sound.works (h : s.Sound) (hworks : Client.Works s.client s'.client)
    (hreturned : s'.returned = s.returned) :
    s'.Sound ∧ s.client.run.offset ≤ s'.client.run.offset := by
  obtain ⟨worked, hsplit, hbelow, hpassed⟩ := h.worked
  rcases hworks with ⟨hheld, hoffset, hsame⟩ | ⟨update, updates, hplace, hrun⟩
  · refine ⟨⟨⟨worked, ?_, ?_, ?_⟩, ?_, ?_⟩, le_of_eq hoffset.symm⟩
    · rw [hreturned, hheld, hsplit]
    · rw [hoffset]
      exact hbelow
    · rw [hsame, hpassed]
    · rw [hreturned]
      exact h.distinct
    · rw [hheld]
      exact h.held
  · have hbatch : s.client.run.place.held = update :: updates := by
      rw [hplace]
      rfl
    have hnext : update.HasNext := h.held update (hbatch ▸ List.mem_cons_self)
    obtain ⟨hkeeps, hbehind⟩ := @Client.offset_nextUpdate s.client _ hnext updates
    obtain ⟨hleft, hadded⟩ := run_nextUpdate s.client update updates
    rw [← hrun] at hkeeps hbehind hleft hadded
    refine ⟨⟨⟨worked ++ [update], ?_, ?_, ?_⟩, ?_, ?_⟩, hkeeps⟩
    · rw [hreturned, hleft, hsplit, hbatch, List.append_assoc, List.singleton_append]
    · intro other hmem
      rcases List.mem_append.mp hmem with hold | hlast
      · exact (hbelow other hold).trans_le hkeeps
      · rw [List.mem_singleton.mp hlast]
        exact hbehind
    · rw [hadded, hpassed, List.filter_append]
    · rw [hreturned]
      exact h.distinct
    · rw [hleft]
      exact fun other hmem ↦ h.held other (hbatch ▸ List.mem_cons_of_mem _ hmem)

/-- While `Run` polls, it is through with all that was returned. -/
theorem Sound.polling (h : s.Sound) (hheld : s.client.run.place.held = []) :
    (∀ update ∈ s.returned, update.updateID < s.client.run.offset) ∧
      s.client.run.passed = s.returned.filter (·.incoming.isSome) := by
  obtain ⟨worked, hsplit, hbelow, hpassed⟩ := h.worked
  rw [hheld, List.append_nil] at hsplit
  rw [hsplit]
  exact ⟨hbelow, hpassed⟩

/-- An answer keeps the invariant, and the offset. -/
theorem Sound.polled {updates : List Update} (h : s.Sound)
    (hanswers : s.answers (.run (.polled updates)) = true)
    (hnumbers : numbers (.run (.polled updates)) = true)
    (hstep : s.step (.run (.polled updates)) = some s') :
    s'.Sound ∧ s.client.run.offset ≤ s'.client.run.offset := by
  obtain ⟨client, hclient, hresult⟩ := Option.bind_eq_some_iff.mp hstep
  rw [← Option.some.inj hresult]
  obtain ⟨hplace, hplace', hoffset, hpassed⟩ := Client.polled_taken hclient
  obtain ⟨hnodup, hrange⟩ := of_decide_eq_true hanswers
  have hnone : s.client.run.place.held = [] := by
    rw [hplace]
    rfl
  have hheld : client.run.place.held = updates := by
    rw [hplace']
    rfl
  obtain ⟨hbelow, hall⟩ := h.polling hnone
  refine ⟨⟨⟨s.returned, ?_, ?_, ?_⟩, ?_, ?_⟩, le_of_eq hoffset.symm⟩
  · rw [hheld]
  · rw [hoffset]
    exact hbelow
  · rw [hpassed, hall]
  · rw [List.map_append, List.nodup_append]
    refine ⟨h.distinct, hnodup, ?_⟩
    -- What was returned before is below the offset.
    rintro updateID hold other hnew rfl
    obtain ⟨old, hmem, rfl⟩ := List.mem_map.mp hold
    obtain ⟨new, hmem', heq⟩ := List.mem_map.mp hnew
    have hlt := hbelow old hmem
    rw [← heq] at hlt
    exact absurd hlt (not_lt.mpr (hrange new hmem').1)
  · rw [hheld]
    intro update hmem
    obtain ⟨-, hlower, hupper⟩ := hrange update hmem
    have hne : update.updateID ≠ 2 ^ 63 - 1 := of_decide_eq_true hnumbers update hmem
    exact ⟨hlower, by omega⟩

/-- Every step that meets the conditions keeps the invariant and does not lower the offset. -/
theorem Sound.step (h : s.Sound) (hanswers : s.answers label = true)
    (hnumbers : numbers label = true) (hstep : s.step label = some s') :
    s'.Sound ∧ s.client.run.offset ≤ s'.client.run.offset := by
  by_cases hpolled : ∃ updates, label = .run (.polled updates)
  · obtain ⟨updates, rfl⟩ := hpolled
    exact h.polled hanswers hnumbers hstep
  · have hlabel : ∀ updates, label ≠ .run (.polled updates) := fun updates heq ↦
      hpolled ⟨updates, heq⟩
    obtain ⟨hclient, hreturned⟩ := step_returned hstep hlabel
    exact h.works (Client.step_works hclient hlabel) hreturned

/-- Every run whose steps meet the conditions keeps the invariant and does not lower the offset. -/
theorem Sound.steps (h : s.Sound)
    (hrun : Steps Polling.step (fun s label ↦ s.answers label = true ∧ numbers label = true) s s') :
    s'.Sound ∧ s.client.run.offset ≤ s'.client.run.offset := by
  refine hrun.invariant (P := fun s' ↦ s'.Sound ∧ s.client.run.offset ≤ s'.client.run.offset)
    ?_ ⟨h, le_refl _⟩
  intro s₁ s₂ label ⟨hsound, hle⟩ ⟨hanswers, hnumbers⟩ hstep
  obtain ⟨hsound', hle'⟩ := hsound.step hanswers hnumbers hstep
  exact ⟨hsound', hle.trans hle'⟩

/-! ### Working off a batch -/

/-- The steps that `Run` has left before it is through with its batch, at most. -/
def left : Client.Place → ℕ
  | .inspect updates => 2 * updates.length + 3
  | .setConnected updates | .handling _ updates => 2 * updates.length + 2
  | .batch updates => 2 * updates.length + 1
  | _ => 0

/-- The steps of `Run` that depend on nothing but the client. -/
theorem step_next {client : Listener Client.Run} (h : Client.next s.client = some client) :
    s.step (.run .next) = some ⟨client, s.returned⟩ := by
  change (Client.next s.client).bind _ = _
  rw [h]
  rfl

/-- `Run` takes a step on its batch. -/
theorem exists_working (hheld : s.client.run.place.held ≠ []) :
    ∃ label s', working label = true ∧ s.step label = some s' ∧ s'.returned = s.returned ∧
      left s'.client.run.place < left s.client.run.place := by
  cases hplace : s.client.run.place with
  | inspect updates =>
    have hnext : Client.next s.client = some (Client.goto s.client
        (if s.client.status.snapshot.state ≠ .connected then .setConnected updates
          else .batch updates)) := by
      simp only [Client.next, hplace]
    refine ⟨_, _, rfl, step_next hnext, rfl, ?_⟩
    rw [Client.goto]
    split_ifs
    · exact Nat.lt_succ_self _
    · simp only [left]
      omega
  | setConnected updates =>
    have hnext : Client.next s.client = some { (Client.goto s.client (.batch updates)) with
        status := s.client.status.set .connected "" } := by
      simp only [Client.next, hplace]
    exact ⟨_, _, rfl, step_next hnext, rfl, Nat.lt_succ_self _⟩
  | batch updates =>
    cases updates with
    | nil =>
      rw [hplace] at hheld
      exact absurd rfl hheld
    | cons update updates =>
      have hnext : Client.next s.client = some (Client.nextUpdate s.client update updates) := by
        simp only [Client.next, hplace]
      refine ⟨_, _, rfl, step_next hnext, rfl, ?_⟩
      rw [Client.nextUpdate]
      cases update.incoming with
      | none =>
        simp only [left, List.length_cons]
        omega
      | some incoming =>
        simp only [left, List.length_cons]
        omega
  | handling incoming updates =>
    have hhandled : Client.run s.client .handled =
        some (Client.goto s.client (.batch updates)) := by
      simp only [Client.run, hplace]
    have hstep : s.step (.run .handled) =
        some ⟨Client.goto s.client (.batch updates), s.returned⟩ := by
      change (Client.run s.client .handled).bind _ = _
      rw [hhandled]
      rfl
    exact ⟨_, _, rfl, hstep, rfl, Nat.lt_succ_self _⟩
  | idle | register | setConnecting | check | polling | failed | setUnauthorized
    | setReconnecting | wait | cancelling | clearing | returned =>
    rw [hplace] at hheld
    exact absurd rfl hheld

/-- `Run` gets through with its batch, and needs no more for it than its own steps and the returns
of the handler. -/
theorem exists_through (s : Polling) :
    ∃ s', Steps step (fun _ label ↦ working label = true) s s' ∧ s'.returned = s.returned ∧
      s'.client.run.place.held = [] := by
  induction hleft : left s.client.run.place using Nat.strong_induction_on generalizing s with
  | _ n ih =>
    by_cases hheld : s.client.run.place.held = []
    · exact ⟨s, .refl, rfl, hheld⟩
    · obtain ⟨label, s₁, hworking, hstep, hreturned, hlt⟩ := exists_working hheld
      obtain ⟨s', hrun, hsame, hdone⟩ := ih _ (hleft ▸ hlt) s₁ rfl
      have hfirst : Steps step (fun _ label ↦ working label = true) s s₁ :=
        .single hworking hstep
      exact ⟨s', hfirst.trans hrun, hsame.trans hreturned, hdone⟩

/-- The steps on a batch are none in which the server answers. -/
theorem meets_of_working (h : working label = true) :
    s.answers label = true ∧ numbers label = true := by
  rcases of_decide_eq_true h with rfl | rfl
  · exact ⟨rfl, rfl⟩
  · exact ⟨rfl, rfl⟩

/-! ### Runs -/

/-- A run in which no update has the last number of 64 bits loses and repeats nothing. -/
theorem lossless_of_numbers
    (hbefore : Steps step (fun s label ↦ s.answers label = true ∧ numbers label = true) new s)
    (hrun : Steps step (fun s label ↦ s.answers label = true ∧ numbers label = true) s s') :
    Lossless s s' := by
  obtain ⟨hsound, hoffset⟩ := (sound_new.steps hbefore).1.steps hrun
  obtain ⟨worked, hsplit, -, hpassed⟩ := hsound.worked
  constructor
  · exact hoffset
  · rw [hpassed, hsplit, List.filter_append]
  · rw [hpassed]
    refine hsound.distinct.sublist ?_
    rw [hsplit]
    exact (List.filter_sublist.trans (List.sublist_append_left _ _)).map _
  · intro hplace update hmem _
    have hnone : s'.client.run.place.held = [] := by
      rw [hplace]
      rfl
    rw [(hsound.polling hnone).2, List.mem_filter]
    cases hincoming : update.incoming with
    | none => exact Or.inr rfl
    | some incoming => exact Or.inl ⟨hmem, rfl⟩
  · obtain ⟨s'', hthrough, hreturned, hnone⟩ := exists_through s'
    have hafter := (hsound.steps (hthrough.mono fun _ _ hworking ↦ meets_of_working hworking)).1
    exact ⟨s'', hthrough, hreturned, by rw [(hafter.polling hnone).2, hreturned]⟩

/-- With an update of the last number of 64 bits, the offset drops to the first one. -/
theorem offset_drops (client : Listener Client.Run) {update : Update} (updates : List Update)
    (hlast : update.updateID = 2 ^ 63 - 1) (hoffset : client.run.offset ≤ update.updateID) :
    (Client.nextUpdate client update updates).run.offset = -2 ^ 63 := by
  have hwraps : Go.int64 (update.updateID + 1) = -2 ^ 63 := by
    rw [hlast]
    decide
  rw [Client.nextUpdate, if_pos hoffset, hwraps]
  cases update.incoming with
  | none => rfl
  | some incoming => rfl

/-- Until `Run` waits for the answer of its first poll. -/
def started : List (Hub.Label Client.Event) :=
  List.replicate 4 (.run .next)

/-- An update with a text. -/
def greets (updateID : Int) : Update :=
  ⟨updateID, some ⟨1, some 7, 7, "/status"⟩⟩

/-- Two updates come in the wrong order, and one without a message between them. -/
def unsorted : List (Hub.Label Client.Event) :=
  [.run (.polled [greets 9, ⟨8, none⟩, greets 7])] ++ List.replicate 3 (.run .next) ++
    [.run .handled, .run .next, .run .next]

/-- They are passed to the handler in their order, and the offset is behind them all. -/
theorem lossless_unsorted :
    ∃ s s', Steps step (fun s label ↦ s.answers label = true ∧ numbers label = true) new s ∧
      Steps step (fun s label ↦ s.answers label = true ∧ numbers label = true) s s' ∧
      (s'.client.run.passed = [greets 9, greets 7] ∧ s'.client.run.offset = 10) ∧
      Lossless s s' := by
  have hguard : ∀ (s : Polling) (label : Hub.Label Client.Event),
      (s.answers label && numbers label) = true →
        s.answers label = true ∧ numbers label = true :=
    fun _ _ hmeets ↦ Bool.and_eq_true_iff.mp hmeets
  have htest : (runLabels step (fun s label ↦ s.answers label && numbers label) new
      (started ++ unsorted)).any (fun s ↦
        decide (s.client.run.passed = [greets 9, greets 7] ∧ s.client.run.offset = 10)) =
          true := by
    decide +kernel
  obtain ⟨s', hrun, hend⟩ := Steps.exists_of_runLabels hguard htest
  exact ⟨new, s', .refl, hrun, of_decide_eq_true hend, lossless_of_numbers .refl hrun⟩

/-- An update with the last number of 64 bits, twice. -/
def wrapped : List (Hub.Label Client.Event) :=
  [.run (.polled [greets 9223372036854775807])] ++ List.replicate 3 (.run .next) ++
    [.run .handled] ++ List.replicate 2 (.run .next) ++
    [.run (.polled [greets 9223372036854775807])] ++ List.replicate 2 (.run .next)

/-- The offset drops, and the update is passed to the handler twice. -/
theorem lossy_wrapped :
    ¬ ∀ s s', Steps step (fun s label ↦ s.answers label = true) new s →
      Steps step (fun s label ↦ s.answers label = true) s s' → Lossless s s' := by
  intro hclaim
  have htest : (runLabels step answers new (started ++ wrapped)).any (fun s ↦
      decide (s.client.run.offset = -2 ^ 63 ∧
        s.client.run.passed.map (·.updateID) = [2 ^ 63 - 1, 2 ^ 63 - 1])) = true := by
    decide +kernel
  obtain ⟨s', hrun, hend⟩ := Steps.exists_of_runLabels (fun _ _ hanswers ↦ hanswers) htest
  have honce := (hclaim new s' .refl hrun).once
  rw [(of_decide_eq_true hend).2] at honce
  exact absurd honce (by decide)

end Polling

end CodexQueueBot.Telegram
