import CodexQueueBot.Jobs.Feed
import CodexQueueBot.Jobs.Quiescence
import CodexQueueBot.Jobs.Records
import CodexQueueBot.Jobs.Redaction

/-!
# Secrets are not shown

The texts of errors that a manager shows come from its runner, through `sanitizeTargetError` with
the target that is stored when the error is judged. As long as the runner's errors mention a secret
only in calls for a target whose secret it is, no error that is shown mentions it in any state of a
run, nor does an event on its way to an observer (`secrets_undisclosed`): an edit cannot exchange
the target between the call and the judgement, and the markers that replace one secret bring no
other together.
-/

set_option autoImplicit false
set_option relaxedAutoImplicit false

namespace CodexQueueBot.Jobs

open Go.Strings Lib

/-! ### What sanitizing brings together -/

/-- A text in which pieces of another text are replaced by a marker. -/
inductive Marked (marker : List Char) : List Char → List Char → Prop
  | rest (chars : List Char) : Marked marker chars chars
  | keep (c : Char) {chars out : List Char} (h : Marked marker chars out) :
      Marked marker (c :: chars) (c :: out)
  | replace {chars remaining out : List Char} (hsuffix : remaining <:+ chars)
      (h : Marked marker remaining out) : Marked marker chars (marker ++ out)

section Marker

variable {word body chars out : List Char} {opening closing : Char}

/-- A text that avoids the start of the marker and begins the result began the text before. -/
theorem Marked.prefix_of_prefix_out (h : Marked (opening :: (body ++ [closing])) chars out)
    (hopening : opening ∉ word) (hbegins : word <+: out) : word <+: chars := by
  induction h generalizing word with
  | rest => exact hbegins
  | keep c _ ih =>
    rw [List.prefix_cons_iff] at hbegins
    rcases hbegins with rfl | ⟨tail, rfl, htail⟩
    · exact List.nil_prefix
    · rw [List.prefix_cons_inj]
      exact ih (fun hmem ↦ hopening (List.mem_cons_of_mem c hmem)) htail
  | replace =>
    rw [List.cons_append] at hbegins
    rw [eq_nil_of_prefix_separator hopening hbegins]
    exact List.nil_prefix

/-- A text that avoids the two ends of the marker occurs in the result only where it occurred
before, or in the body of the marker. -/
theorem Marked.infix_of_infix (h : Marked (opening :: (body ++ [closing])) chars out)
    (hword : word ≠ []) (hopening : opening ∉ word) (hclosing : closing ∉ word)
    (hoccurs : word <:+: out) : word <:+: body ∨ word <:+: chars := by
  induction h with
  | rest => exact Or.inr hoccurs
  | keep c hrest ih =>
    rcases List.infix_cons_iff.mp hoccurs with hstart | htail
    · exact Or.inr ((hrest.keep c).prefix_of_prefix_out hopening hstart).isInfix
    · exact (ih htail).imp_right List.infix_cons
  | replace hsuffix _ ih =>
    rcases infix_of_infix_marker hword hopening hclosing hoccurs with hbody | hafter
    · exact Or.inl hbody
    · exact (ih hafter).imp_right fun hremaining ↦ hremaining.trans hsuffix.isInfix

end Marker

/-- What is left behind a scheme is part of the text. -/
theorem suffix_of_dropFolded {letters chars remaining : List Char}
    (h : dropFolded letters chars = some remaining) : remaining <:+ chars := by
  induction letters generalizing chars with
  | nil =>
    cases h
    exact List.suffix_refl _
  | cons letter letters ih =>
    cases chars with
    | nil => cases h
    | cons c chars =>
      rw [dropFolded] at h
      split_ifs at h
      exact (ih h).trans (List.suffix_cons c chars)

/-- What is left behind an absolute URL is part of the text. -/
theorem suffix_of_dropAbsoluteURL {chars remaining : List Char}
    (h : dropAbsoluteURL chars = some remaining) : remaining <:+ chars := by
  obtain ⟨scheme, -, hscheme⟩ := List.exists_of_findSome?_eq_some h
  simp only [dropSchemeURL, Option.bind_eq_bind, Option.bind_eq_some_iff] at hscheme
  obtain ⟨afterScheme, hfolded, body, hbody, hrest⟩ := hscheme
  have hsuffix : body <:+ chars :=
    (suffix_of_dropPattern hbody).trans (suffix_of_dropFolded hfolded)
  split at hrest
  · split_ifs at hrest
    cases hrest
    exact ((List.dropWhile_suffix _).trans (List.suffix_cons _ _)).trans hsuffix
  · cases hrest

/-- URLs are replaced by a marker. -/
theorem marked_replaceURLChars (afterWord : Bool) (fuel : Nat) (chars : List Char) :
    Marked "[URL]".toList chars (replaceURLChars afterWord fuel chars) := by
  induction fuel generalizing afterWord chars with
  | zero => exact .rest chars
  | succ fuel ih =>
    cases chars with
    | nil => exact .rest []
    | cons c rest =>
      rw [replaceURLChars]
      split
      next remaining hdrop =>
        split_ifs at hdrop
        exact .replace (suffix_of_dropAbsoluteURL hdrop) (ih true remaining)
      next => exact .keep c (ih _ rest)

variable {secret : String}

/-- The replacement of URLs creates no occurrence of a secret. -/
theorem not_occurs_replaceURLs (hsecret : Redactable secret) (hurl : ¬ Occurs secret "URL")
    {value : String} (h : ¬ Occurs secret value) : ¬ Occurs secret (replaceURLs value) := by
  intro hoccurs
  rw [Occurs, replaceURLs, String.toList_ofList] at hoccurs
  have hmarked : Marked ('[' :: ("URL".toList ++ [']'])) value.toList _ :=
    marked_replaceURLChars false value.toList.length value.toList
  rcases hmarked.infix_of_infix hsecret.toList_ne_nil hsecret.opening hsecret.closing hoccurs
    with hbody | hvalue
  · exact hurl hbody
  · exact h hvalue

/-- A text that is sanitized for a target does not mention a secret, if it mentioned it at most
where it is one of that target. -/
theorem not_occurs_sanitizeTargetError (hsecret : Redactable secret) (hurl : ¬ Occurs secret "URL")
    {target : Target} {text : String} (h : Occurs secret text → secret ∈ secrets target) :
    ¬ Occurs secret (sanitizeTargetError target text) := by
  by_cases hmem : secret ∈ secrets target
  · exact (sanitizeTargetError_complete target text secret hmem hsecret).1
  · intro hoccurs
    have hloop := occurs_of_occurs_truncate hsecret.nonempty hsecret.ellipsis hoccurs
    refine not_occurs_redactSecrets hsecret _ (not_occurs_replaceURLs hsecret hurl ?_) hloop
    intro htrimmed
    refine mt h hmem (htrimmed.trans ?_)
    rw [trimSpace, String.toList_ofList]
    exact trimSpaceChars_infix _

/-! ### Results on their way to judgement -/

/-- The result that a worker carries to the section that judges it, with the key of its target. -/
def Proc.verdict : Proc → Option (String × Result)
  | .queue w => w.pc.result.map (w.key, ·)
  | .keepalive w => w.pc.result.map (w.key, ·)
  | _ => none

section

variable [Go.NetURL] {m : Manager} {self : Nat} {input : Input} {effect : Effect} {key : String}
  {result : Result}

omit [Go.NetURL] in
/-- A queue worker that carries a result is alive. -/
theorem QueueWorker.live_of_result {w : QueueWorker} (h : w.pc.result = some result) :
    w.view.live = true := by
  cases hpc : w.pc <;> simp [hpc, QueuePC.result, view] at h ⊢

omit [Go.NetURL] in
/-- A keepalive worker that carries a result is alive. -/
theorem KeepaliveWorker.live_of_result {w : KeepaliveWorker} (h : w.pc.result = some result) :
    w.view.live = true := by
  cases hpc : w.pc <;> simp [hpc, KeepalivePC.result, view] at h ⊢

omit [Go.NetURL] in
/-- A worker that carries a result is alive on the target of the result. -/
theorem Proc.live_of_verdict {proc : Proc} (h : proc.verdict = some (key, result)) :
    proc.view.live = true ∧ proc.view.key = key := by
  cases proc with
  | queue w =>
    obtain ⟨_, hresult, heq⟩ := Option.map_eq_some_iff.mp h
    cases heq
    exact ⟨QueueWorker.live_of_result hresult, rfl⟩
  | keepalive w =>
    obtain ⟨_, hresult, heq⟩ := Option.map_eq_some_iff.mp h
    cases heq
    exact ⟨KeepaliveWorker.live_of_result hresult, rfl⟩
  | adhoc | start | edit | wait => cases h

/-- A worker carries a result after its own step because it did so before, or because its runner
call has just returned it. -/
theorem Proc.step_verdict {proc : Proc} {next : Nat}
    (h : proc.step m next self input = some effect)
    (hverdict : effect.proc.verdict = some (key, result)) :
    proc.verdict = some (key, result) ∨
      result = input.result ∧ ∃ target, proc.flight = some (key, target) := by
  cases proc with
  | queue w =>
    obtain ⟨_, _, _, pc⟩ := w
    cases QueueWorker.step_takes h with
    | passed m₁ pc' _ hresult =>
      rcases hresult with hnone | hsame
      · simp [verdict, hnone] at hverdict
      · left
        simpa [verdict, hsame] using hverdict
    | returned attempt target hpc =>
      cases hpc
      cases hverdict
      exact Or.inr ⟨rfl, target, rfl⟩
    | began | failed | succeeded | notified | cancelled | finished => cases hverdict
  | keepalive w =>
    obtain ⟨_, _, _, pc⟩ := w
    cases KeepaliveWorker.step_takes h with
    | passed m₁ pc' _ hresult =>
      rcases hresult with hnone | hsame
      · simp [verdict, hnone] at hverdict
      · left
        simpa [verdict, hsame] using hverdict
    | watched m₁ keepalive state pc' _ _ _ _ _ hafter =>
      simp [verdict, KeepalivePC.result_eq_none_of_seeks hafter] at hverdict
    | returned request target hpc =>
      cases hpc
      cases hverdict
      exact Or.inr ⟨rfl, target, rfl⟩
    | began | judged | scheduled | due | fired | cancelled | finished => cases hverdict
  | adhoc call =>
    obtain ⟨pc, hproc, -⟩ := AdhocCall.step_proc h
    rw [hproc] at hverdict
    cases hverdict
  | start call =>
    obtain ⟨⟨call', hproc, -⟩, -⟩ := StartCall.step_proc h
    rw [hproc] at hverdict
    cases hverdict
  | edit call =>
    obtain ⟨⟨pc, hproc⟩, -⟩ := EditCall.step_proc h
    rw [hproc] at hverdict
    cases hverdict
  | wait call =>
    obtain ⟨-, ⟨call', hproc⟩, -⟩ := WaitCall.step_proc h
    rw [hproc] at hverdict
    cases hverdict

end

/-! ### Snapshots -/

/-- The error of a queue job after a failed attempt. -/
theorem Job.lastError_failed (job : Job) (error : String) :
    (job.failed error).lastError = error :=
  rfl

/-- The error of a keepalive job after a request. -/
theorem KeepaliveJob.lastError_judged (keepalive : KeepaliveJob) (success : Bool) (error : String)
    (now nextRequest : Time) : (keepalive.judged success error now nextRequest).lastError =
      if success then keepalive.lastError else error := by
  cases success <;> rfl

/-- No error in a snapshot mentions a secret. -/
def ManagerSnapshot.Hides (snapshot : ManagerSnapshot) (secret : String) : Prop :=
  ∀ target ∈ snapshot.targets,
    ¬ Occurs secret target.queue.lastError ∧ ¬ Occurs secret target.keepalive.lastError

/-- No error of a job mentions a secret. -/
structure Manager.Hides (m : Manager) (secret : String) : Prop where
  jobs : ∀ key job, m.jobs.lookup key = some job → ¬ Occurs secret job.lastError
  keepalives : ∀ key keepalive, m.keepalives.lookup key = some keepalive →
    ¬ Occurs secret keepalive.lastError

/-- The entries of a snapshot are those of its keys. -/
theorem Manager.exists_of_mem_entries [Go.NetURL] {m : Manager} {keys : List String}
    {entries : List TargetSnapshot} (h : keys.mapM m.targetSnapshot = some entries)
    {entry : TargetSnapshot} (hmem : entry ∈ entries) :
    ∃ key, m.targetSnapshot key = some entry := by
  induction keys generalizing entries with
  | nil =>
    cases h
    cases hmem
  | cons key keys ih =>
    simp only [List.mapM_cons, Option.bind_eq_bind, Option.bind_eq_some_iff,
      Option.pure_def] at h
    obtain ⟨first, hfirst, rest, hrest, heq⟩ := h
    cases heq
    rcases List.mem_cons.mp hmem with rfl | hmem
    · exact ⟨key, hfirst⟩
    · exact ih hrest hmem

/-- A snapshot shows no more than the jobs have. -/
theorem Manager.Hides.snapshotLocked [Go.NetURL] {m : Manager} (h : m.Hides secret)
    {snapshot : ManagerSnapshot} (hsnapshot : m.snapshotLocked = some snapshot) :
    snapshot.Hides secret := by
  simp only [Manager.snapshotLocked, Option.bind_eq_bind, Option.bind_eq_some_iff,
    Option.pure_def] at hsnapshot
  obtain ⟨targets, htargets, heq⟩ := hsnapshot
  cases heq
  intro target hmem
  obtain ⟨key, hkey⟩ := exists_of_mem_entries htargets hmem
  simp only [Manager.targetSnapshot, Option.bind_eq_bind, Option.bind_eq_some_iff,
    Option.pure_def] at hkey
  obtain ⟨job, hjob, keepalive, hkeepalive, arbiter, -, heq⟩ := hkey
  cases heq
  exact ⟨h.jobs key job hjob, h.keepalives key keepalive hkeepalive⟩

namespace System

variable [Go.NetURL] {s s' : System} {label : Label}

/-- The runner's errors mention a secret only in calls for a target whose secret it is. -/
def Discreet (secret : String) (s : System) : Label → Prop
  | .advance i input => ∀ (proc : Proc) (key : String) (target : Target),
    s.procs[i]? = some proc → proc.flight = some (key, target) →
    Occurs secret input.result.error → secret ∈ secrets target
  | _ => True

/-- No error of a job and no event on its way mentions a secret, and results that are still to be
judged mention it only where it is one of their target. -/
structure Hides (s : System) (secret : String) : Prop where
  manager : s.manager.Hides secret
  events : ∀ observer ∈ s.manager.observers, ∀ event ∈ observer.buffer,
    event.snapshot.Hides secret
  verdicts : ∀ (i : Nat) (proc : Proc) (key : String) (result : Result),
    s.procs[i]? = some proc → proc.verdict = some (key, result) →
    Occurs secret result.error → secret ∈ secrets (s.manager.target key)

/-! ### Steps -/

/-- An event in a channel after a step was in one before, or shows the new state. -/
theorem step_event (h : s.Reachable) (hstep : s.step label = some s') {observer' : Observer}
    (hobserver' : observer' ∈ s'.manager.observers) {event : Event}
    (hevent : event ∈ observer'.buffer) :
    (∃ observer ∈ s.manager.observers, event ∈ observer.buffer) ∨
      s'.manager.snapshotLocked = some event.snapshot := by
  obtain ⟨i, hi⟩ := List.mem_iff_getElem?.mp hobserver'
  by_cases hobserve : ∃ buffer, label = .observe buffer
  · obtain ⟨buffer, rfl⟩ := hobserve
    obtain ⟨observer, hobservers, hslot, -⟩ := step_observe hstep
    rw [hobservers, List.mem_append, List.mem_singleton] at hobserver'
    rcases hobserver' with hold | rfl
    · exact Or.inl ⟨observer', hold, hevent⟩
    · have hempty : observer'.buffer = [] := List.map_eq_nil_iff.mp (Slot.mk.inj hslot).1
      rw [hempty] at hevent
      cases hevent
  by_cases hclose : ∃ id, label = .closeSubscription id
  · obtain ⟨id, rfl⟩ := hclose
    cases hstep
    obtain ⟨observer, hobserver, rfl⟩ := List.mem_map.mp hobserver'
    refine Or.inl ⟨observer, hobserver, ?_⟩
    split_ifs at hevent <;> exact hevent
  by_cases hreceive : ∃ id, label = .receive id
  · obtain ⟨id, rfl⟩ := hreceive
    cases hstep
    obtain ⟨observer, hobserver, rfl⟩ := List.mem_map.mp hobserver'
    refine Or.inl ⟨observer, hobserver, ?_⟩
    split_ifs at hevent
    · exact List.mem_of_mem_tail hevent
    · exact hevent
  have hdiscloses := step_discloses h hstep (fun buffer heq ↦ hobserve ⟨buffer, heq⟩)
    (fun id heq ↦ hclose ⟨id, heq⟩) fun id heq ↦ hreceive ⟨id, heq⟩
  rcases hdiscloses with ⟨hfeed, -⟩ | ⟨published, -, hfeed, hsnapshot⟩
  · rw [(Manager.eq_of_feed hfeed).2.2] at hobserver'
    exact Or.inl ⟨observer', hobserver', hevent⟩
  · rw [(Manager.eq_of_feed hfeed).2.2] at hobserver'
    obtain ⟨observer, hobserver, rfl⟩ := List.mem_map.mp hobserver'
    unfold Manager.publishTo at hevent
    split_ifs at hevent
    · rcases List.mem_append.mp hevent with hold | hnew
      · exact Or.inl ⟨observer, hobserver, hold⟩
      · rw [List.mem_singleton.mp hnew]
        exact Or.inr hsnapshot
    · exact Or.inl ⟨observer, hobserver, hevent⟩
    · exact Or.inl ⟨observer, hobserver, hevent⟩

section

variable {secret : String}

omit [Go.NetURL] in
/-- A redactable secret does not occur in the empty text. -/
theorem not_occurs_empty (hsecret : Redactable secret) : ¬ Occurs secret "" :=
  fun hoccurs ↦ hsecret.toList_ne_nil (List.infix_nil.mp hoccurs)

omit [Go.NetURL] in
/-- A change of a queue job keeps a secret out of its error. -/
theorem Hides.job (h : s.Hides secret) (hsecret : Redactable secret)
    (hurl : ¬ Occurs secret "URL") {key : String} {job job' : Job}
    (hjob : ¬ Occurs secret job.lastError) (hchanges : job.Changes s label key job') :
    ¬ Occurs secret job'.lastError := by
  cases hchanges with
  | kept => exact hjob
  | wrote i w input job' hlabel hproc hkey hwrites =>
    cases hwrites with
    | attempted => exact hjob
    | failed result hpc =>
      rw [Job.lastError_failed]
      refine not_occurs_sanitizeTargetError hsecret hurl ?_
      exact h.verdicts i _ w.key result hproc (by simp [Proc.verdict, hpc, QueuePC.result])
    | succeeded => exact not_occurs_empty hsecret
    | cancelled => exact hjob
    | finished => exact hjob
  | subscribed subscriber =>
    unfold Manager.addSubscriberLocked
    split_ifs <;> exact hjob
  | started => exact not_occurs_empty hsecret
  | stopped now job' hstopped =>
    induction hstopped with
    | kept => exact hjob
    | again _ ih =>
      unfold Manager.stopJob
      split_ifs <;> exact ih

omit [Go.NetURL] in
/-- A change of a keepalive job keeps a secret out of its error. -/
theorem Hides.keepalive (h : s.Hides secret) (hsecret : Redactable secret)
    (hurl : ¬ Occurs secret "URL") {key : String} {keepalive keepalive' : KeepaliveJob}
    (hkeepalive : ¬ Occurs secret keepalive.lastError)
    (hchanges : keepalive.Changes s label key keepalive') :
    ¬ Occurs secret keepalive'.lastError := by
  cases hchanges with
  | kept => exact hkeepalive
  | wrote i w input keepalive' hlabel hproc hkey hwrites =>
    cases hwrites with
    | watched => exact hkeepalive
    | requested => exact hkeepalive
    | judged result hpc =>
      rw [KeepaliveJob.lastError_judged]
      split_ifs
      · exact hkeepalive
      · refine not_occurs_sanitizeTargetError hsecret hurl ?_
        exact h.verdicts i _ w.key result hproc (by simp [Proc.verdict, hpc, KeepalivePC.result])
    | cancelled => exact hkeepalive
    | finished => exact hkeepalive
  | started => exact not_occurs_empty hsecret
  | stopped now keepalive' hstopped =>
    induction hstopped with
    | kept => exact hkeepalive
    | again _ ih =>
      unfold Manager.stopKeepaliveJob
      split_ifs <;> exact ih
  | rescheduled _ _ _ _ now draw keepalive' _ hrescheduled =>
    induction hrescheduled with
    | kept => exact hkeepalive
    | again _ _ _ ih => exact ih

/-- The results that are still to be judged mention a secret after a step only where it is one of
their target. -/
theorem Hides.step_verdicts (h : s.Hides secret) (hreach : s.Reachable)
    (hlawful : s.Lawful label) (hdiscreet : s.Discreet secret label)
    (hstep : s.step label = some s') {i : Nat} {proc' : Proc} {key : String} {result : Result}
    (hproc' : s'.procs[i]? = some proc') (hverdict : proc'.verdict = some (key, result))
    (hoccurs : Occurs secret result.error) : secret ∈ secrets (s'.manager.target key) := by
  have hsteady : ∀ proc : Proc, s.procs[i]? = some proc → proc.view.live = true →
      proc.view.key = key → s'.manager.target key = s.manager.target key := by
    rintro proc hproc hlive rfl
    rw [Manager.target, step_target hreach hlawful hstep hproc hlive]
    rfl
  rcases step_proc_cases hstep hproc' with
    ⟨input, proc, effect, rfl, hproc, heffect, -, rfl⟩ | ⟨hproc, -⟩ | ⟨-, hnewborn⟩
  · rcases Proc.step_verdict heffect hverdict with hbefore | ⟨rfl, target, hflight⟩
    · obtain ⟨hlive, hkey⟩ := Proc.live_of_verdict hbefore
      rw [hsteady proc hproc hlive hkey]
      exact h.verdicts i proc key result hproc hbefore hoccurs
    · obtain ⟨hlive, hkey⟩ := Proc.live_of_carries (Proc.carries_of_flight hflight)
      have htarget := hreach.faithful i proc key target hproc (Proc.carries_of_flight hflight)
      have hread : s.manager.target key = target := by
        rw [Manager.target, htarget]
        rfl
      rw [hsteady proc hproc hlive hkey, hread]
      exact hdiscreet proc key target hproc hflight hoccurs
  · obtain ⟨hlive, hkey⟩ := Proc.live_of_verdict hverdict
    rw [hsteady proc' hproc hlive hkey]
    exact h.verdicts i proc' key result hproc hverdict hoccurs
  · cases proc' with
    | queue w =>
      obtain ⟨key', runID, context, pc⟩ := w
      cases hnewborn
      cases hverdict
    | keepalive w =>
      obtain ⟨key', runID, context, pc⟩ := w
      cases hnewborn
      cases hverdict
    | adhoc | start | edit | wait => cases hverdict

/-- A step hides a secret that the runner's errors do not give away. -/
theorem Hides.step (h : s.Hides secret) (hsecret : Redactable secret)
    (hurl : ¬ Occurs secret "URL") (hreach : s.Reachable) (hlawful : s.Lawful label)
    (hdiscreet : s.Discreet secret label) (hstep : s.step label = some s') : s'.Hides secret := by
  have hmanager : s'.manager.Hides secret := by
    refine ⟨fun key job' hjob' ↦ ?_, fun key keepalive' hkeepalive' ↦ ?_⟩
    · rcases step_job hreach hlawful hstep hjob' with
        ⟨job, hjob, hchanges⟩ | ⟨-, rfl | ⟨old, -, hold⟩⟩
      · exact h.job hsecret hurl (h.manager.jobs key job hjob) hchanges
      · exact not_occurs_empty hsecret
      · exact h.manager.jobs old job' hold
    · rcases step_keepalive hreach hlawful hstep hkeepalive' with
        ⟨keepalive, hkeepalive, hchanges⟩ | ⟨-, ⟨_, rfl⟩ | ⟨old, -, hold⟩⟩
      · exact h.keepalive hsecret hurl (h.manager.keepalives key keepalive hkeepalive) hchanges
      · exact not_occurs_empty hsecret
      · exact h.manager.keepalives old keepalive' hold
  refine ⟨hmanager, fun observer' hobserver' event hevent ↦ ?_, fun i proc' key result ↦
    h.step_verdicts hreach hlawful hdiscreet hstep⟩
  rcases step_event hreach hstep hobserver' hevent with ⟨observer, hobserver, hold⟩ | hsnapshot
  · exact h.events observer hobserver event hold
  · exact hmanager.snapshotLocked hsnapshot

omit [Go.NetURL] in
/-- A new system hides every secret. -/
theorem hides_init (hsecret : Redactable secret) (settings : Manager.Settings)
    (targets : List Target) : (init settings targets).Hides secret := by
  refine ⟨⟨fun key job hjob ↦ ?_, fun key keepalive hkeepalive ↦ ?_⟩, fun observer hobserver ↦ ?_,
    fun i proc key result hproc ↦ ?_⟩
  · rw [(lookup_init settings targets key).1 job hjob]
    exact not_occurs_empty hsecret
  · obtain ⟨_, rfl⟩ := (lookup_init settings targets key).2 keepalive hkeepalive
    exact not_occurs_empty hsecret
  · rw [init_observers] at hobserver
    cases hobserver
  · cases hproc

/-! ### Runs -/

/-- As long as the runner's errors mention a secret only in calls for a target whose secret it is,
no error that a manager shows and no event on its way to an observer mentions it, in any state of a
run, whatever targets are edited in between. -/
theorem secrets_undisclosed (hsecret : Redactable secret) (hurl : ¬ Occurs secret "URL")
    (settings : Manager.Settings) (targets : List Target)
    (hnames : (targets.map fun target ↦ Manager.normalizeName target.name).Nodup)
    (hrun : Steps System.step (fun s label ↦ s.Lawful label ∧ s.Discreet secret label)
      (init settings targets) s) :
    (∀ snapshot, s.manager.snapshotLocked = some snapshot → snapshot.Hides secret) ∧
      ∀ observer ∈ s.manager.observers, ∀ event ∈ observer.buffer,
        event.snapshot.Hides secret := by
  have hboth : s.Reachable ∧ s.Hides secret := by
    refine hrun.invariant (P := fun s ↦ s.Reachable ∧ s.Hides secret) ?_
      ⟨⟨settings, targets, hnames, .refl⟩, hides_init hsecret settings targets⟩
    rintro s s' label ⟨hreach, hides⟩ ⟨hlawful, hdiscreet⟩ hstep
    exact ⟨hreach.step hlawful hstep, hides.step hsecret hurl hreach hlawful hdiscreet hstep⟩
  exact ⟨fun snapshot hsnapshot ↦ hboth.2.manager.snapshotLocked hsnapshot, hboth.2.events⟩

omit [Go.NetURL] in
/-- A guard that steps pass which are calm and do not give a secret away. -/
def discreet (secret : String) (s : System) (label : Label) : Bool :=
  s.calm label && match label with
    | .advance i input =>
      match s.procs[i]?.bind Proc.flight with
      | some (_, target) => !decide (Occurs secret input.result.error) ||
        decide (secret ∈ secrets target)
      | none => true
    | _ => true

omit [Go.NetURL] in
/-- A step that passes the guard is lawful and discreet. -/
theorem discreet_spec (s : System) (label : Label) (h : s.discreet secret label = true) :
    s.Lawful label ∧ s.Discreet secret label := by
  obtain ⟨hcalm, hrest⟩ := Bool.and_eq_true_iff.mp h
  refine ⟨lawful_of_calm s label hcalm, ?_⟩
  cases label
  case advance i input =>
    intro proc key target hproc hflight hoccurs
    simpa [hproc, hflight, hoccurs] using hrest
  all_goals trivial

omit [Go.NetURL] in
/-- A failed attempt on `a`, whose error quotes the key of `a`, in front of an observer. -/
def leakyAttempt : List Label :=
  .observe 8 :: queueAttempt ++
    [.advance 1 { result := ⟨false, "", "", 1, "bad key sk-7", 0⟩ }, .advance 1 {}, .advance 1 {},
      .advance 1 {}]

omit [Go.NetURL] in
/-- The failure of an attempt is shown with a marker in place of the key that its error quotes. -/
theorem secrets_undisclosed_leakyAttempt :
    ∃ s : System, (s.manager.jobs.lookup "a").any (·.lastError == "bad key [REDACTED]") = true ∧
      (∀ snapshot, @Manager.snapshotLocked Go.NetURL.emptyOnly s.manager = some snapshot →
        snapshot.Hides "sk-7") ∧
      ∀ observer ∈ s.manager.observers, ∀ event ∈ observer.buffer,
        event.snapshot.Hides "sk-7" := by
  let _ := Go.NetURL.emptyOnly
  have heval : (runLabels step (discreet "sk-7") (init ⟨true, none, 1, 2, 1, "ok"⟩
      [{ Target.zero with id := 1, name := "a", apiKey := "sk-7" }]) leakyAttempt).any
        (fun s ↦ (s.manager.jobs.lookup "a").any (·.lastError == "bad key [REDACTED]")) = true := by
    decide +kernel
  obtain ⟨s, hrun, hfailed⟩ := Steps.exists_of_runLabels discreet_spec heval
  exact ⟨s, hfailed, secrets_undisclosed ⟨by decide, by decide, by decide, by decide,
    by decide +kernel⟩ (by decide +kernel) _ _ (by decide +kernel) hrun⟩

end

end System

end CodexQueueBot.Jobs
