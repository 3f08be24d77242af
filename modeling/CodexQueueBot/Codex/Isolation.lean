import CodexQueueBot.Codex.Requests

/-!
# What a request reports and leaves

The requests of a runner hold leases on the names of the directory (`Requests.Sound`).
`requests_isolated` says that what a request reports is what its own child has done, whatever the
other requests do, and `requests_cleaned` that nothing is left in the directory but workspaces into
which a child has written, and what processes that have outlived their request go on writing.
-/

set_option autoImplicit false
set_option relaxedAutoImplicit false

namespace CodexQueueBot.Codex

open Go Jobs Lib

namespace Requests

variable [Text] {request request' : Request} {effect : Effect}

/-- Who holds which names: the requests theirs, and nobody in particular those that are left. -/
def held (s : Requests) : Option ℕ → String → Prop
  | none, name => name ∈ s.left
  | some index, name => ∃ request, s.requests[index]? = some request ∧ name ∈ request.names

/-- The invariant of the requests, over the directory at first. -/
structure Sound (first : Files) (s : Requests) : Prop where
  leases : Leases first s.files s.held
  fits : ∀ (index : ℕ) (request : Request), s.requests[index]? = some request →
    request.Fits s.files

variable {s s' : Requests} {first : Files} {index : ℕ}

omit [Text] in
/-- The names of a request are those that it holds. -/
theorem held_some_iff {name : String} (hrequest : s.requests[index]? = some request) :
    s.held (some index) name ↔ name ∈ request.names := by
  constructor
  · rintro ⟨other, hother, hmem⟩
    obtain rfl := Option.some.inj (hrequest.symm.trans hother)
    exact hmem
  · exact fun hmem ↦ ⟨request, hrequest, hmem⟩

omit [Text] in
/-- Who holds what when a request has taken a step. -/
theorem held_set {s : Requests} {j : ℕ} {name : String}
    (hrequest : s.requests[index]? = some request) :
    (∃ other, (s.requests.set index request')[j]? = some other ∧ name ∈ other.names) ↔
      j = index ∧ name ∈ request'.names ∨ j ≠ index ∧ s.held (some j) name := by
  have hlt := (List.getElem?_eq_some_iff.mp hrequest).1
  rw [List.getElem?_set]
  by_cases hj : index = j
  · subst hj
    simp [hlt]
  · simp [hj, Ne.symm hj, held]

/-- Nobody holds anything at first. -/
theorem sound_initial (runner : Runner) (files : Files) : Sound files { runner, files } where
  leases := Leases.initial fun holder name ↦ by
    cases holder with
    | none => exact List.not_mem_nil
    | some index => simp [held]
  fits := by simp

/-- A step of a request keeps the leases. -/
theorem Sound.lease {s : Requests} (h : s.Sound first)
    (hrequest : s.requests[index]? = some request)
    {label : RequestLabel}
    (hlegal : effect.Legal s.files label request.names request'.names) :
    Leases first (effect.files s.files) (held { s with
      files := effect.files s.files
      requests := s.requests.set index request'
      left := effect.left s.left }) := by
  have hself : ∀ {name : String}, s.held (some index) name ↔ name ∈ request.names :=
    held_some_iff hrequest
  -- The names of the others stay as they are.
  have hothers : ∀ {files : Files} {left : List String} {j : ℕ} {name : String},
      held { s with files, requests := s.requests.set index request', left } (some j) name ↔
        j = index ∧ name ∈ request'.names ∨ j ≠ index ∧ s.held (some j) name :=
    held_set hrequest
  -- A name of the request is not one of the others.
  have halone : ∀ {holder : Option ℕ} {name : String}, name ∈ request.names →
      s.held holder name → holder = some index :=
    fun hmem hheld ↦ h.leases.exclusive hheld (hself.mpr hmem)
  have hkeep : request'.names = request.names →
      ∀ {files : Files} (holder : Option ℕ) (name : String),
        held { s with files, requests := s.requests.set index request' } holder name ↔
          s.held holder name := by
    intro hnames files holder name
    cases holder with
    | none => rfl
    | some j =>
      rw [hothers, hnames]
      by_cases hj : j = index
      · simp [hj, hself]
      · simp [hj]
  cases effect with
  | nothing => exact h.leases.congr (hkeep hlegal)
  | create name entry =>
    refine h.leases.acquire (i := some index) hlegal.1 entry fun holder other ↦ ?_
    cases holder with
    | none => simp [held, Effect.left]
    | some j =>
      rw [hothers, hlegal.2]
      by_cases hj : j = index
      · simp [hj, hself]
      · simp [hj]
  | write name entry =>
    exact (h.leases.write (hself.mpr hlegal.1) entry).congr (hkeep hlegal.2)
  | remove name =>
    refine h.leases.release (hself.mpr hlegal.1) fun holder other ↦ ?_
    have hne : holder ≠ some index → s.held holder other → other ≠ name :=
      fun hholder hheld heq ↦ hholder (halone hlegal.1 (heq ▸ hheld))
    cases holder with
    | none => exact ⟨fun hmem ↦ ⟨hmem, hne (Option.some_ne_none _).symm hmem⟩, And.left⟩
    | some j =>
      rw [hothers, hlegal.2]
      by_cases hj : j = index
      · simp [hj, hself]
      · simp only [hj, false_and, false_or, ne_eq, not_false_eq_true, true_and]
        exact ⟨fun hheld ↦ ⟨hheld, hne (by simpa using hj) hheld⟩, And.left⟩
  | leave name =>
    obtain ⟨-, hmem, hnames⟩ := hlegal
    refine h.leases.leave (j := none) (hself.mpr hmem) fun holder other ↦ ?_
    have hne : holder ≠ some index → s.held holder other → other ≠ name :=
      fun hholder hheld heq ↦ hholder (halone hmem (heq ▸ hheld))
    cases holder with
    | none =>
      refine List.mem_cons.trans ⟨?_, ?_⟩
      · rintro (heq | hmem)
        · exact .inr ⟨rfl, heq⟩
        · exact .inl ⟨hmem, hne (Option.some_ne_none _).symm hmem⟩
      · rintro (⟨hmem, -⟩ | ⟨-, heq⟩)
        · exact .inr hmem
        · exact .inl heq
    | some j =>
      rw [hothers, hnames]
      by_cases hj : j = index
      · simp [hj, hself]
      · simp only [hj, false_and, false_or, ne_eq, not_false_eq_true, true_and, reduceCtorEq,
          or_false]
        exact ⟨fun hheld ↦ ⟨hheld, hne (by simpa using hj) hheld⟩, And.left⟩

/-- A step of a request leaves the others on their own. -/
theorem Sound.move {s : Requests} (h : s.Sound first)
    (hrequest : s.requests[index]? = some request)
    {label : RequestLabel}
    (hsteady : Request.Steady s.files label request request' effect) :
    Sound first { s with
      files := effect.files s.files
      requests := s.requests.set index request'
      left := effect.left s.left } where
  leases := h.lease hrequest hsteady.legal
  fits := by
    intro j other hother
    rw [List.getElem?_set] at hother
    split_ifs at hother with hj hlt
    · obtain rfl := Option.some.inj hother
      exact hsteady.fits
    · refine (h.fits j other hother).frame fun name hmem ↦ ?_
      have hheld := (held_some_iff hother).mpr hmem
      refine hsteady.legal.files_eq (fun hmine ↦ hj ?_) (h.leases.fresh hheld).2
      simpa using h.leases.exclusive ((held_some_iff hrequest).mpr hmine) hheld

/-- A process that has outlived its request writes under a name that no request has. -/
theorem Sound.stray {s : Requests} (h : s.Sound first) {name : String} (entry : Entry)
    (hwrites : s.files name = none ∨ name ∈ s.left) :
    Sound first { s with
      files := Function.update s.files name (some entry)
      left := name :: s.left } where
  leases := by
    rcases hwrites with hfree | hleft
    · refine h.leases.acquire (i := none) hfree entry fun holder other ↦ ?_
      cases holder with
      | none => simp [held, or_comm]
      | some index => simp [held]
    · refine (h.leases.write (i := none) hleft entry).congr fun holder other ↦ ?_
      cases holder with
      | none =>
        refine List.mem_cons.trans ⟨?_, .inr⟩
        rintro (rfl | hmem)
        · exact hleft
        · exact hmem
      | some index => rfl
  fits := by
    intro index request hrequest
    refine (h.fits index request hrequest).frame fun other hmem ↦ ?_
    have hheld : s.held (some index) other := ⟨request, hrequest, hmem⟩
    refine Function.update_of_ne ?_ _ _
    rintro rfl
    rcases hwrites with hfree | hleft
    · exact (h.leases.fresh hheld).2 hfree
    · cases h.leases.exclusive (i := none) hleft hheld

/-- Every step keeps the invariant. -/
theorem Sound.step {label : Label} (h : s.Sound first) (hstep : s.step label = some s') :
    s'.Sound first := by
  cases label with
  | updateRuntime timeout reasoningEffort overrides =>
    obtain rfl := Option.some.inj hstep
    exact ⟨h.leases, h.fits⟩
  | updatePaths binary promptsFile prompts promptsPersisted =>
    obtain rfl := Option.some.inj hstep
    exact ⟨h.leases, h.fits⟩
  | call target kind =>
    obtain rfl := Option.some.inj hstep
    refine ⟨h.leases.congr fun holder name ↦ ?_, fun index request hrequest ↦ ?_⟩
    · cases holder with
      | none => rfl
      | some index =>
        simp only [held, List.getElem?_append]
        split_ifs with hlt
        · rfl
        · rw [List.getElem?_singleton, List.getElem?_eq_none (Nat.le_of_not_lt hlt)]
          simp [Request.names]
    · rw [List.getElem?_append] at hrequest
      split_ifs at hrequest with hlt
      · exact h.fits index request hrequest
      · rw [List.getElem?_singleton] at hrequest
        split_ifs at hrequest
        obtain rfl := Option.some.inj hrequest
        trivial
  | request index label =>
    obtain ⟨request, hrequest, hstep⟩ := Option.bind_eq_some_iff.mp hstep
    obtain ⟨⟨request', effect⟩, hmove, hreturn⟩ := Option.bind_eq_some_iff.mp hstep
    obtain rfl := Option.some.inj hreturn
    exact h.move hrequest ((h.fits index request hrequest).step hmove)
  | stray index name entry =>
    obtain ⟨request, -, hstep⟩ := Option.bind_eq_some_iff.mp hstep
    split_ifs at hstep with hwrites
    obtain rfl := Option.some.inj hstep
    exact h.stray entry hwrites.2

/-- What holds of every state that is reached. -/
theorem sound_of_steps {runner : Runner} {files : Files} {allowed : Requests → Label → Prop}
    (hrun : Steps Requests.step allowed { runner, files } s) : s.Sound files :=
  hrun.invariant (P := Sound files) (fun _ _ _ hsound _ hstep ↦ hsound.step hstep)
    (sound_initial runner files)

/-! ### What a request reports -/

/-- What a request reports of its child: the exit of the child after all of its output, the end of
what it has printed without the key, and as a success the response that it had written when it was
read. -/
structure Tells (target : Target) (run : Run) (outcome : Outcome) (result : Result) : Prop where
  ended : run.command.phase = .returned outcome.run
  status : result.exitCode = commandExitCode outcome.run
  output : result.processOutput = processOutput target (run.printed.rtake maxOutputLen)
  response : result.success = true → outcome.run = .exited 0 ∧
    ¬ run.command.family.Busy (0 < run.command.left) ∧
    run.command.family.leaderStatus = some 0 ∧
    result.response = Strings.trimSpace run.written ∧ result.response ≠ ""
  error : result.error = [] ↔ result.success = true
  hidden : Redactable target.apiKey →
    (∀ c ∈ target.apiKey.toList, Strings.isSpace c = false) →
    ¬ Occurs target.apiKey result.processOutput ∧
      ∀ value, .text value ∈ result.error → Occurs target.apiKey value → value ∈ outcome.ownTexts

/-- A report of a child tells what the child has done. -/
theorem tells_of_reports {target : Target} {run : Run} {result : Result}
    (h : Reports target (some run) result) : ∃ outcome, Tells target run outcome result := by
  obtain ⟨hsound, outcome, ctx, hended, houtput, hresponse, rfl⟩ := h
  obtain ⟨hstatus, hshown, hanswer⟩ := outcome.result_shown run.settings target ctx
  refine ⟨outcome, hended, hstatus, hshown.trans (by rw [houtput]), fun hsuccess ↦ ?_,
    Outcome.result_error_iff, Outcome.result_hides_key⟩
  obtain ⟨-, hexit, content, hcontent, hblank⟩ := Outcome.result_success_iff.mp hsuccess
  have hstands := hsound.stands
  unfold Command.Stands at hstands
  rw [hended, hexit] at hstands
  obtain ⟨hidle, hleader⟩ := hsound.done 0 hstands.1
  have htext := hanswer content hcontent
  rw [hresponse content hcontent] at htext hblank
  exact ⟨hexit, hidle, hleader, htext, htext.symm ▸ hblank⟩

/-- However requests of a runner interleave, with each other and with changes of its settings, and
whatever their children do: a request that has returned tells what its own child has done. Without a
child it is no success. -/
theorem requests_isolated {runner : Runner} {files : Files}
    (hrun : Steps Requests.step (fun _ _ ↦ True) { runner, files } s)
    (hrequest : s.requests[index]? = some request) {run : Option Run} {result : Result}
    (hphase : request.phase = .returned run result) :
    match run with
    | none => result.success = false ∧ result.error ≠ []
    | some run => ∃ outcome, Tells request.target run outcome result := by
  have hfits := (sound_of_steps hrun).fits index request hrequest
  unfold Request.Fits at hfits
  rw [hphase] at hfits
  cases run with
  | none =>
    obtain ⟨error, hne, rfl⟩ := hfits
    exact ⟨rfl, hne⟩
  | some run => exact tells_of_reports hfits

/-- Bytes as the characters with their numbers. -/
@[reducible] def bytesText : Text where
  ofBytes bytes := String.ofList (bytes.map fun byte ↦ Char.ofNat byte.toNat)

/-- A runner with default settings. -/
def sampleRunner : Runner where
  reasoningEffort := "low"
  overrides := []
  binary := "codex"
  promptsFile := ""
  prompts := []
  promptsPersisted := true
  timeout := 60000

/-- The steps of a request whose child writes a response and exits. -/
def sampleSteps (index : ℕ) (workspace responsePath content : String) : List Label :=
  [.mkdirTemp (.ok workspace), .createTemp (.ok responsePath), .run (.start (some 65536)),
    .write content, .run (.act (.exit 0 0)), .run .wait, .run .receive, .readFile none, .report "",
    .removeResponse true, .removeWorkspace true].map (.request index)

/-- Two requests that take turns. -/
def sampleLabels : List Label :=
  [.call (named "a") (.runPrompt "hello"), .call (named "b") (.runPrompt "again"),
    .request 1 (.begin (.lines []) 0 ""), .request 0 (.begin (.lines []) 0 "")] ++
  ((sampleSteps 0 "work-0" "response-0" "one\n").zip
    (sampleSteps 1 "work-1" "response-1" " two")).flatMap fun labels ↦ [labels.1, labels.2]

/-- The removals succeed. -/
def tidy (_ : Requests) : Label → Bool
  | .request _ (.removeResponse ok) => ok
  | .request _ (.removeWorkspace ok) => ok
  | _ => true

/-- The response of a success. -/
def answer (request : Request) : Option String :=
  match request.phase with
  | .returned (some _) result => if result.success then some result.response else none
  | _ => none

omit [Text] in
/-- The two requests return with their own responses, and no process outlives them. -/
theorem sample_run : ∃ s, Steps (@Requests.step bytesText) (fun s label ↦ tidy s label = true)
    { runner := sampleRunner, files := fun _ ↦ none } s ∧
      s.requests.map answer = [some "one", some "two"] ∧
      ∀ request ∈ s.requests, request.outlived = [] := by
  have heval : (runLabels (@Requests.step bytesText) tidy
      { runner := sampleRunner, files := fun _ ↦ none } sampleLabels).any
        (fun s ↦ s.requests.map answer = [some "one", some "two"] ∧
          ∀ request ∈ s.requests, request.outlived = []) = true := by
    decide +kernel
  obtain ⟨s, hrun, htest⟩ := Steps.exists_of_runLabels (fun _ _ ↦ id) heval
  exact ⟨s, hrun, of_decide_eq_true htest⟩

omit [Text] in
/-- A request with an answer has returned. -/
theorem returned_of_answer {response : String} (h : answer request = some response) :
    ∃ run result, request.phase = .returned (some run) result ∧ result.success = true ∧
      result.response = response := by
  unfold answer at h
  split at h
  · rename_i run result hphase
    split_ifs at h with hsuccess
    exact ⟨run, result, hphase, hsuccess, Option.some.inj h⟩
  · cases h

omit [Text] in
/-- The second of two requests that take turns tells what its child has written. -/
theorem requests_isolated_second : ∃ (target : Target) (run : Run) (outcome : Outcome)
    (result : Result), @Tells bytesText target run outcome result ∧ result.response = "two" := by
  obtain ⟨s, hrun, hanswers, -⟩ := sample_run
  have hsecond := congrArg (·[1]?) hanswers
  rw [List.getElem?_map] at hsecond
  obtain ⟨request, hrequest, hanswer⟩ := Option.map_eq_some_iff.mp hsecond
  obtain ⟨run, result, hphase, -, hresponse⟩ := returned_of_answer hanswer
  obtain ⟨outcome, htells⟩ :=
    @requests_isolated bytesText _ _ _ _ _ (hrun.mono fun _ _ _ ↦ trivial) hrequest _ _ hphase
  exact ⟨request.target, run, outcome, result, htells, hresponse⟩

/-! ### What is left -/

/-- The removals that go as they should: an entry is removed, unless it is a workspace with
something in it. -/
def Orderly (s : Requests) : Label → Prop
  | .request _ (.removeResponse ok) => ok = true
  | .request index (.removeWorkspace false) => ∀ request ∈ s.requests[index]?,
      ∀ workspace ∈ request.names, s.files workspace = some (.directory true)
  | _ => True

/-- What is left in the directory is a workspace with something in it, or the entry of a child of
which a process has outlived its request. -/
def Cluttered (s : Requests) : Prop :=
  ∀ name ∈ s.left, s.files name = some (.directory true) ∨
    ∃ request ∈ s.requests, name ∈ request.outlived

/-- A process that has outlived its request goes on under the same names. -/
theorem outlived_step {runner : Runner} {files : Files} {label : RequestLabel} {name : String}
    (hstep : request.step runner files label = some (request', effect))
    (hmem : name ∈ request.outlived) : name ∈ request'.outlived := by
  obtain ⟨target, kind, ctx, phase⟩ := request
  cases phase with
  | cleaned workspace run result =>
    cases run with
    | none => cases hmem
    | some run =>
      cases label with
      | done error =>
        obtain ⟨rfl, rfl⟩ := Prod.mk.inj (Option.some.inj hstep)
        exact hmem
      | clutter =>
        simp only [Request.step] at hstep
        split_ifs at hstep
        obtain ⟨rfl, rfl⟩ := Prod.mk.inj (Option.some.inj hstep)
        exact hmem
      | removeWorkspace ok =>
        have hreturned :
            name ∈ Request.outlived ⟨target, kind, ctx, .returned (some run) result⟩ := by
          simp only [Request.outlived] at hmem ⊢
          split_ifs at hmem ⊢ with halive
          · exact List.mem_cons.mpr (.inl (List.mem_singleton.mp hmem))
          · cases hmem
        cases ok with
        | true =>
          simp only [Request.step, if_true] at hstep
          split_ifs at hstep
          obtain ⟨rfl, rfl⟩ := Prod.mk.inj (Option.some.inj hstep)
          exact hreturned
        | false =>
          obtain ⟨rfl, rfl⟩ := Prod.mk.inj (Option.some.inj hstep)
          exact hreturned
      | _ => cases hstep
  | returned run result =>
    cases label with
    | done error =>
      obtain ⟨rfl, rfl⟩ := Prod.mk.inj (Option.some.inj hstep)
      exact hmem
    | _ => cases hstep
  | _ => cases hmem

omit [Text] in
/-- What is left stays so when the requests go on. -/
theorem Cluttered.keep {s : Requests} (h : s.Cluttered) {files : Files} {requests : List Request}
    {left : List String}
    (hrequests : ∀ request ∈ s.requests, ∀ name ∈ request.outlived,
      ∃ request' ∈ requests, name ∈ request'.outlived)
    (hleft : ∀ name ∈ left, name ∈ s.left ∧ files name = s.files name ∨
      files name = some (.directory true) ∨ ∃ request ∈ requests, name ∈ request.outlived) :
    Cluttered { s with files, requests, left } := by
  intro name hmem
  rcases hleft name hmem with ⟨hold, hsame⟩ | hnew
  · rcases h name hold with hdirectory | ⟨request, hrequest, hname⟩
    · exact .inl (hsame.trans hdirectory)
    · exact .inr (hrequests request hrequest name hname)
  · exact hnew

/-- An orderly step leaves only workspaces with something in them, and entries of children of which
a process has outlived its request. -/
theorem Cluttered.step {label : Label} (h : s.Cluttered) (hsound : s.Sound first)
    (horderly : s.Orderly label) (hstep : s.step label = some s') : s'.Cluttered := by
  cases label with
  | updateRuntime timeout reasoningEffort overrides =>
    obtain rfl := Option.some.inj hstep
    exact h
  | updatePaths binary promptsFile prompts promptsPersisted =>
    obtain rfl := Option.some.inj hstep
    exact h
  | call target kind =>
    obtain rfl := Option.some.inj hstep
    exact h.keep (fun request hmem name hname ↦ ⟨request, List.mem_append_left _ hmem, hname⟩)
      fun name hmem ↦ .inl ⟨hmem, rfl⟩
  | request index label =>
    obtain ⟨request, hrequest, hstep⟩ := Option.bind_eq_some_iff.mp hstep
    obtain ⟨⟨request', effect⟩, hmove, hreturn⟩ := Option.bind_eq_some_iff.mp hstep
    obtain rfl := Option.some.inj hreturn
    have hlegal := ((hsound.fits index request hrequest).step hmove).legal
    -- What was left before is not touched.
    have hkept : ∀ name ∈ s.left, effect.files s.files name = s.files name := by
      intro name hmem
      refine hlegal.files_eq (fun hmine ↦ ?_) (hsound.leases.fresh (i := none) hmem).2
      cases hsound.leases.exclusive (i := none) hmem ((held_some_iff hrequest).mpr hmine)
    have hlt := (List.getElem?_eq_some_iff.mp hrequest).1
    refine h.keep (fun other hother name hname ↦ ?_) fun name hmem ↦ ?_
    · obtain ⟨j, hj⟩ := List.mem_iff_getElem?.mp hother
      by_cases hindex : index = j
      · subst hindex
        obtain rfl := Option.some.inj (hrequest.symm.trans hj)
        exact ⟨request', List.mem_of_getElem? (List.getElem?_set_self hlt),
          outlived_step hmove hname⟩
      · have hsame := (List.getElem?_set_ne hindex (a := request')).trans hj
        exact ⟨other, List.mem_of_getElem? hsame, hname⟩
    · cases effect with
      | leave left =>
        rcases List.mem_cons.mp hmem with rfl | hmem
        · obtain ⟨rfl | rfl, hmine, -⟩ := hlegal
          · cases horderly
          · exact .inr (.inl (horderly request hrequest name hmine))
        · exact .inl ⟨hmem, hkept name hmem⟩
      | _ => exact .inl ⟨hmem, hkept name hmem⟩
  | stray index name entry =>
    obtain ⟨request, hrequest, hstep⟩ := Option.bind_eq_some_iff.mp hstep
    split_ifs at hstep with hwrites
    obtain rfl := Option.some.inj hstep
    refine h.keep (fun other hother name hname ↦ ⟨other, hother, hname⟩) fun other hmem ↦ ?_
    by_cases heq : other = name
    · subst heq
      exact .inr (.inr ⟨request, List.mem_of_getElem? hrequest, hwrites.1⟩)
    · have hold := (List.mem_cons.mp hmem).resolve_left heq
      exact .inl ⟨hold, Function.update_of_ne heq _ _⟩

end Requests

end CodexQueueBot.Codex
