import CodexQueueBot.Hub.Client
import CodexQueueBot.Telegram.Client

/-!
# The status after a rejected token

The rule of `Hub.Listener` for the two clients: `unauthorized_after_rejection`. The condition on a
run is `survives`, with the places of commitment and the steps that hold back of the client. Without
it both clients can end with a different status. A dial that is cancelled by the rejection fails,
and `hub.Client.Run` writes `reconnecting` before it looks at the context. A poll that is answered
between the two steps of a rejected `Send` lets `telegram.Client.Run` write `connected`.
-/

set_option autoImplicit false
set_option relaxedAutoImplicit false

namespace CodexQueueBot.Messages

open Hub Lib

/-- The runs of the OpenILink client in which the status survives a rejection. -/
def OpenILinkRun (client : Listener Hub.Client.Place) : Prop :=
  Steps Hub.Client.machine.step (fun client label ↦
    survives Hub.Client.committed Hub.Client.holdsBack client label = true) Hub.Client.new client

/-- The runs of the Telegram client in which the status survives a rejection. -/
def TelegramRun (client : Listener Telegram.Client.Run) : Prop :=
  Steps Telegram.Client.machine.step (fun client label ↦
    survives Telegram.Client.committed Telegram.Client.holdsBack client label = true)
    Telegram.Client.new client

/-- A call of `Send` that began during `Run` and was rejected has set the status. -/
theorem rejected_of_mem {Place : Type} {client : Listener Place}
    (h : ⟨true, .done true⟩ ∈ client.sends) : client.rejected = true :=
  List.any_eq_true.mpr ⟨_, h, rfl⟩

/-- In a run in which `Run` is not committed to another status when a rejected `Send` sets it, and
does not commit itself afterwards, the status is `unauthorized` when both have returned. -/
theorem unauthorized_after_rejection {openILink : Listener Hub.Client.Place}
    {telegram : Listener Telegram.Client.Run} (hopenILink : OpenILinkRun openILink)
    (htelegram : TelegramRun telegram) :
    (∀ unauthorized, ⟨true, .done true⟩ ∈ openILink.sends →
      openILink.run = .returned unauthorized → openILink.status.snapshot.state = .unauthorized) ∧
    ∀ unauthorized, ⟨true, .done true⟩ ∈ telegram.sends →
      telegram.run.place = .returned unauthorized →
        telegram.status.snapshot.state = .unauthorized := by
  constructor
  · intro unauthorized hsend _
    exact Machine.unauthorized_of_rejected Hub.Client.commits rfl hopenILink
      (rejected_of_mem hsend)
  · intro unauthorized hsend _
    exact Machine.unauthorized_of_rejected Telegram.Client.commits rfl htelegram
      (rejected_of_mem hsend)

/-- `Run` of the OpenILink client reads while a `Send` is rejected. -/
def rejectedWhileReading : List (Label Hub.Client.Event) :=
  [.run .next, .run .next, .run .next, .run .next, .run (.dialed .connected), .run .next, .send,
    .respond 0 true, .stop 0, .stop 0, .stop 0, .run (.read "connection closed"), .run .next,
    .run .next, .run .next]

/-- `Run` of the Telegram client polls while a `Send` is rejected. -/
def rejectedWhilePolling : List (Label Telegram.Client.Event) :=
  [.run .next, .run .next, .run .next, .run .next, .send, .respond 0 true, .stop 0, .stop 0,
    .stop 0, .run (.pollFailed (.other "context canceled")), .run .next, .run .next, .run .next]

/-- Both runs end, and with the status. -/
theorem unauthorized_after_rejection_runs :
    ∃ (openILink : Listener Hub.Client.Place) (telegram : Listener Telegram.Client.Run),
      (OpenILinkRun openILink ∧ ⟨true, .done true⟩ ∈ openILink.sends ∧
        openILink.run = .returned true ∧ openILink.status.snapshot.state = .unauthorized) ∧
      TelegramRun telegram ∧ ⟨true, .done true⟩ ∈ telegram.sends ∧
        telegram.run.place = .returned false ∧
        telegram.status.snapshot.state = .unauthorized := by
  have hreading : (runLabels Hub.Client.machine.step
      (survives Hub.Client.committed Hub.Client.holdsBack) Hub.Client.new
      rejectedWhileReading).any (fun client ↦
        decide (⟨true, .done true⟩ ∈ client.sends ∧ client.run = .returned true)) = true := by
    decide +kernel
  have hpolling : (runLabels Telegram.Client.machine.step
      (survives Telegram.Client.committed Telegram.Client.holdsBack) Telegram.Client.new
      rejectedWhilePolling).any (fun client ↦
        decide (⟨true, .done true⟩ ∈ client.sends ∧ client.run.place = .returned false)) =
      true := by
    decide +kernel
  obtain ⟨openILink, hopenILink, hread⟩ :=
    Steps.exists_of_runLabels (fun _ _ hsurvives ↦ hsurvives) hreading
  obtain ⟨telegram, htelegram, hpolled⟩ :=
    Steps.exists_of_runLabels (fun _ _ hsurvives ↦ hsurvives) hpolling
  obtain ⟨hsend, hreturned⟩ := of_decide_eq_true hread
  obtain ⟨hsend', hreturned'⟩ := of_decide_eq_true hpolled
  obtain ⟨hopenILinkState, htelegramState⟩ :=
    unauthorized_after_rejection hopenILink htelegram
  exact ⟨openILink, telegram,
    ⟨hopenILink, hsend, hreturned, hopenILinkState true hsend hreturned⟩,
    htelegram, hsend', hreturned', htelegramState false hsend' hreturned'⟩

/-- A `Send` is rejected while the OpenILink client dials, and the cancellation ends the dial. -/
def rejectedWhileDialing : List (Label Hub.Client.Event) :=
  [.run .next, .run .next, .run .next, .run .next, .send, .respond 0 true, .stop 0, .stop 0,
    .stop 0, .run (.dialed (.failed "operation was canceled")), .run .next, .run (.waited false),
    .run .next, .run .next]

/-- A poll of the Telegram client is answered after a rejected `Send` has set the status, and before
it cancels. -/
def answeredBeforeStop : List (Label Telegram.Client.Event) :=
  [.run .next, .run .next, .run .next, .run .next, .send, .respond 0 true, .stop 0,
    .run (.polled []), .run .next, .run .next, .stop 0, .stop 0, .run .next, .run .next, .run .next,
    .run .next]

/-- Without the condition, each of the two clients can end with another status. -/
theorem rejection_overwritten :
    (¬ ∀ client unauthorized,
      Steps Hub.Client.machine.step (fun _ _ ↦ True) Hub.Client.new client →
        ⟨true, .done true⟩ ∈ client.sends → client.run = .returned unauthorized →
          client.status.snapshot.state = .unauthorized) ∧
    ¬ ∀ client unauthorized,
      Steps Telegram.Client.machine.step (fun _ _ ↦ True) Telegram.Client.new client →
        ⟨true, .done true⟩ ∈ client.sends → client.run.place = .returned unauthorized →
          client.status.snapshot.state = .unauthorized := by
  constructor
  · intro hclaim
    have htest : (runLabels Hub.Client.machine.step (fun _ _ ↦ true) Hub.Client.new
        rejectedWhileDialing).any (fun client ↦
          decide (⟨true, .done true⟩ ∈ client.sends ∧ client.run = .returned false ∧
            client.status.snapshot.state = .reconnecting)) = true := by
      decide +kernel
    obtain ⟨client, hrun, hend⟩ := Steps.exists_of_runLabels (fun _ _ _ ↦ trivial) htest
    obtain ⟨hsend, hreturned, hstate⟩ := of_decide_eq_true hend
    cases hstate.symm.trans (hclaim client false hrun hsend hreturned)
  · intro hclaim
    have htest : (runLabels Telegram.Client.machine.step (fun _ _ ↦ true) Telegram.Client.new
        answeredBeforeStop).any (fun client ↦
          decide (⟨true, .done true⟩ ∈ client.sends ∧ client.run.place = .returned false ∧
            client.status.snapshot.state = .connected)) = true := by
      decide +kernel
    obtain ⟨client, hrun, hend⟩ := Steps.exists_of_runLabels (fun _ _ _ ↦ trivial) htest
    obtain ⟨hsend, hreturned, hstate⟩ := of_decide_eq_true hend
    cases hstate.symm.trans (hclaim client false hrun hsend hreturned)

end CodexQueueBot.Messages
