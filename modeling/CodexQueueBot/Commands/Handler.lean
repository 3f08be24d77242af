import CodexQueueBot.Go.StringFacts
import CodexQueueBot.Jobs.Addressing
import CodexQueueBot.Jobs.Starts

/-!
# Commands in messages

How a message becomes a call of the manager: `parseCommand` finds the command word and its
arguments, `splitTargets` the names in the arguments, and `Handle` chooses the operation. The texts
of the replies are left out.

The adapter for Telegram answers a bare `/start` with the help text, since every chat begins with
it. Whether the command is bare is decided on the trimmed arguments, but white space is not all that
separates names: arguments made of commas and semicolons are not blank and hold no name, and a list
of no names stands for all targets. `telegram_start_iff` says when the targets that `/start` starts
have been named: unless the arguments are such a text. `startKeys` is the list of keys that a call
of `Start` works on, and it starts no other queue in any run (`started_mem_startKeys`); it need not
start all of them, nor any when the manager shuts down.
-/

set_option autoImplicit false
set_option relaxedAutoImplicit false

namespace CodexQueueBot.Commands

open Go Jobs Lib

/-! ### Parsing -/

/-- `splitFirstField`. -/
def splitFirstField (value : String) : String × String :=
  match value.toList.dropWhile (! Strings.isSpace ·) with
  | [] => (value, "")
  | rest => (String.ofList (value.toList.takeWhile (! Strings.isSpace ·)),
      Strings.trimSpace (String.ofList rest))

/-- `parseCommand`: the command word in lower case and the arguments. -/
def parseCommand (text : String) : Option (String × String) :=
  match (Strings.trimSpace text).toList with
  | '/' :: chars =>
    let text := Strings.trimSpace (String.ofList chars)
    if text = "" then none
    else
      let (command, args) := splitFirstField text
      let command := String.ofList (command.toList.takeWhile (· ≠ '@'))
      if command = "" then none else some (Strings.toLower command, Strings.trimSpace args)
  | _ => none

/-- What separates the names in arguments. -/
def isSeparator (c : Char) : Bool :=
  Strings.isSpace c || c = ',' || c = '，' || c = ';' || c = '；'

/-- The parts of a list between the separators, without the empty ones, given the part that has
been begun. -/
def fieldsFrom (chars : List Char) (field : List Char) : List (List Char) :=
  match chars with
  | [] => if field = [] then [] else [field]
  | c :: chars =>
    if isSeparator c then
      if field = [] then fieldsFrom chars [] else field :: fieldsFrom chars []
    else fieldsFrom chars (field ++ [c])

/-- `splitTargets`. -/
def splitTargets (value : String) : List String :=
  (fieldsFrom value.toList []).map String.ofList

/-! ### Handling a message -/

/-- `hub.Incoming`. -/
structure Incoming where
  eventID : String
  traceID : String
  senderID : String
  replyTo : String
  text : String
  deriving DecidableEq, Repr

/-- `Handler`, with the number of its messenger. -/
structure Handler where
  sender : Nat
  allowed : List String
  adapterKey : String
  adapter : String
  deriving DecidableEq, Repr

/-- `NewAdapter`. -/
def newAdapter (sender : Nat) (allowedUserIDs : List String) (adapter : String) : Handler :=
  let trimmed := Strings.trimSpace adapter
  let adapter := if trimmed = "" then "Messaging" else trimmed
  { sender
    allowed := (allowedUserIDs.map Strings.trimSpace).filter (· ≠ "")
    adapterKey := Strings.toLower adapter
    adapter }

/-- What `Handle` does with a message: nothing, a refusal, a call of the manager, or an answer that
needs none. -/
inductive Action
  | ignored
  | unauthorized
  | start (targets : List String) (subscriber : Subscriber)
  | stop (targets : List String)
  | status (targets : List String)
  | startKeepalive (targets : List String)
  | stopKeepalive (targets : List String)
  | keepaliveStatus (targets : List String)
  | list
  | help
  deriving DecidableEq, Repr

namespace Handler

/-- `isAllowed`. -/
def isAllowed (h : Handler) (sender : String) : Bool :=
  h.allowed.isEmpty || h.allowed.contains sender

end Handler

/-- `replyRecipient`. -/
def replyRecipient (incoming : Incoming) : String :=
  let recipient := Strings.trimSpace incoming.replyTo
  if recipient ≠ "" then recipient else incoming.senderID

namespace Handler

/-- `start`, without the text of the reply. -/
def start (h : Handler) (targets : List String) (incoming : Incoming) : Action :=
  let recipient := replyRecipient incoming
  .start targets
    { recipient
      traceID := incoming.traceID
      key := h.adapterKey ++ ":" ++ recipient
      messenger := some h.sender }

/-- `Handle`. -/
def handle (h : Handler) (incoming : Incoming) : Action :=
  match parseCommand incoming.text with
  | none => .ignored
  | some (command, args) =>
    if ¬ h.isAllowed incoming.senderID then .unauthorized
    else
      let targets := splitTargets args
      if command ∈ ["开挤", "go"] then h.start targets incoming
      else if command = "start" then
        if h.adapterKey = "telegram" ∧ Strings.trimSpace args = "" then .help
        else h.start targets incoming
      else if command ∈ ["停止", "停挤", "stop"] then .stop targets
      else if command ∈ ["状态", "status"] then .status targets
      else if command ∈ ["保活", "keepalive"] then .startKeepalive targets
      else if command ∈ ["停止保活", "stop-keepalive"] then .stopKeepalive targets
      else if command ∈ ["保活状态", "keepalive-status"] then .keepaliveStatus targets
      else if command ∈ ["列表", "目标", "list", "targets"] then .list
      else if command ∈ ["帮助", "help"] then .help
      else .ignored

/-- The keys that the call of `Start` works on, if `Handle` makes one. -/
def startKeys (h : Handler) (m : Manager) (incoming : Incoming) : List String :=
  match h.handle incoming with
  | .start targets _ => (m.resolveLocked targets).1
  | _ => []

end Handler

/-! ### What a call of `Start` starts -/

section

variable [NetURL]

/-- The call at an index works on no other keys than the given ones. -/
def WorksOn (keys : List String) (i : Nat) (s : System) : Prop :=
  ∃ call, s.procs[i]? = some (.start call) ∧ ∀ key ∈ call.remaining, key ∈ keys

omit [NetURL] in
/-- A step of a start call leaves it on the same keys, and starts queues on them only. -/
theorem worksOn_of_acts {m : Manager} {next self : Nat} {call : StartCall} {effect : Effect}
    {keys : List String} (hkeys : ∀ key ∈ call.remaining, key ∈ keys)
    (hacts : call.Acts m next self effect) :
    (∃ call', effect.proc = .start call' ∧ ∀ key ∈ call'.remaining, key ∈ keys) ∧
      ∀ worker key runID, .started worker .queue key runID ∈ effect.happenings → key ∈ keys := by
  have hsubscribed : ∀ key runID worker started startedID,
      Happening.started worker .queue started startedID ∉
        call.kind.subscription self key runID := by
    intro key runID worker started startedID
    unfold StartKind.subscription
    cases call.kind with
    | queue subscriber => dsimp only; split_ifs <;> simp
    | keepalive => simp
  cases hacts with
  | passes hstops hshown pc => exact ⟨⟨_, rfl, hkeys⟩, by simp⟩
  | refuses hremaining hreason =>
    rw [hremaining, List.forall_mem_cons] at hkeys
    exact ⟨⟨_, rfl, hkeys.2⟩, by simp⟩
  | joins hkind hremaining hjob hrunning =>
    rw [hremaining, List.forall_mem_cons] at hkeys
    refine ⟨⟨_, rfl, hkeys.2⟩, fun worker key runID hmem ↦ ?_⟩
    exact absurd hmem (hsubscribed _ _ _ _ _)
  | startsQueue hkind hremaining hdown hjob hrunning hshown =>
    rw [hremaining, List.forall_mem_cons] at hkeys
    refine ⟨⟨_, rfl, hkeys.2⟩, fun worker key runID hmem ↦ ?_⟩
    rcases List.mem_cons.mp hmem with heq | hmem
    · cases heq
      exact hkeys.1
    · exact absurd hmem (hsubscribed _ _ _ _ _)
  | startsKeepalive hkind hremaining hdown hkeepalive hshown =>
    rw [hremaining, List.forall_mem_cons] at hkeys
    exact ⟨⟨_, rfl, hkeys.2⟩, by simp⟩

/-- A step of the system leaves the call on the same keys. -/
theorem WorksOn.step {keys : List String} {i : Nat} {s s' : System} {label : Label}
    (h : WorksOn keys i s) (hstep : s.step label = some s') : WorksOn keys i s' := by
  obtain ⟨call, hcall, hkeys⟩ := h
  obtain ⟨proc', hproc', rfl | ⟨input, effect, -, heffect, -, rfl⟩⟩ :=
    System.step_getElem? hstep hcall
  · exact ⟨call, hproc', hkeys⟩
  · obtain ⟨⟨call', hmoved, hkeys'⟩, -⟩ := worksOn_of_acts hkeys (StartCall.step_acts heffect)
    exact ⟨call', hmoved ▸ hproc', hkeys'⟩

/-- After `Handle` has called `Start`, in every run, the call starts queues on `startKeys` only. -/
theorem started_mem_startKeys {h : Handler} {incoming : Incoming} {targets : List String}
    {subscriber : Subscriber} (hhandle : h.handle incoming = .start targets subscriber)
    {s called s₁ : System} (hcall : s.step (.start targets subscriber) = some called)
    (hrun : Steps System.step (fun _ _ ↦ True) called s₁) {call : Proc} {effect : Effect}
    {input : Input} (hproc : s₁.procs[s.procs.length]? = some call)
    (heffect : call.step s₁.manager s₁.procs.length s.procs.length input = some effect)
    {worker runID : Nat} {key : String}
    (hstarted : .started worker .queue key runID ∈ effect.happenings) :
    key ∈ h.startKeys s.manager incoming := by
  have hkeys : h.startKeys s.manager incoming = (s.manager.resolveLocked targets).1 := by
    rw [Handler.startKeys, hhandle]
  have hworks : WorksOn (h.startKeys s.manager incoming) s.procs.length s₁ := by
    refine hrun.invariant (P := WorksOn _ s.procs.length) (fun _ _ _ hs _ hstep ↦ hs.step hstep) ?_
    cases hcall
    rw [hkeys]
    exact ⟨_, List.getElem?_concat_length, fun _ hmem ↦ hmem⟩
  obtain ⟨start, hstart, hremaining⟩ := hworks
  obtain rfl := Option.some.inj (hproc.symm.trans hstart)
  exact (worksOn_of_acts hremaining (StartCall.step_acts heffect)).2 _ _ _ hstarted

end

/-! ### Bare commands -/

/-- The arguments hold a name of the key, or one of the words for all targets. -/
def Named (args key : String) : Prop :=
  (∃ token ∈ splitTargets args, Manager.normalizeName token = key) ∨
    Manager.containsAll (splitTargets args) = true

/-- The keys that names are resolved to are named, if there is a name. -/
theorem named_of_resolveLocked {m : Manager} {names : List String} {key : String}
    (hne : names ≠ []) (hmem : key ∈ (m.resolveLocked names).1) :
    (∃ name ∈ names, Manager.normalizeName name = key) ∨ Manager.containsAll names = true := by
  by_cases hall : Manager.MeansAll names
  · exact Or.inr (hall.resolve_left hne)
  · rw [Manager.resolveLocked_of_not_meansAll hall] at hmem
    exact Or.inl (((Manager.resolved_foldl m names).keys key).mp hmem).1.2

/-- Without names, no key is named. -/
theorem not_named {args key : String} (hnone : splitTargets args = []) : ¬ Named args key := by
  rw [Named, hnone]
  simp [Manager.containsAll]

/-- The sender is not allowed, the arguments are blank or hold a name, or there are no targets. -/
def Handler.Heeds (h : Handler) (m : Manager) (incoming : Incoming) (args : String) : Prop :=
  h.isAllowed incoming.senderID = false ∨ Strings.trimSpace args = "" ∨
    splitTargets args ≠ [] ∨ m.order = []

/-- In every run after `Handle` has called `Start`, the call starts queues of targets only that have
been named. -/
def Handler.StartsNamed [NetURL] (h : Handler) (s : System) (incoming : Incoming) (args : String) :
    Prop :=
  ∀ {targets : List String} {subscriber : Subscriber} {called s₁ : System} {call : Proc}
    {effect : Effect} {input : Input} {worker runID : Nat} {key : String},
    h.handle incoming = .start targets subscriber →
    s.step (.start targets subscriber) = some called →
    Steps System.step (fun _ _ ↦ True) called s₁ →
    s₁.procs[s.procs.length]? = some call →
    call.step s₁.manager s₁.procs.length s.procs.length input = some effect →
    .started worker .queue key runID ∈ effect.happenings → Named args key

/-- When the targets that a `/start` on Telegram works on have been named: when the sender is not
allowed, the arguments are blank or hold a name, or there are no targets. -/
theorem named_startKeys_iff {h : Handler} (hadapter : h.adapterKey = "telegram")
    {incoming : Incoming} {args : String}
    (hcommand : parseCommand incoming.text = some ("start", args)) (m : Manager) :
    (∀ key ∈ h.startKeys m incoming, Named args key) ↔ h.Heeds m incoming args := by
  unfold Handler.Heeds
  by_cases hallowed : h.isAllowed incoming.senderID = true
  · have hhandle : h.handle incoming = if Strings.trimSpace args = "" then .help
        else h.start (splitTargets args) incoming := by
      simp [Handler.handle, hcommand, hallowed, hadapter]
    by_cases hblank : Strings.trimSpace args = ""
    · have hkeys : h.startKeys m incoming = [] := by
        rw [Handler.startKeys, hhandle, if_pos hblank]
      rw [hkeys]
      exact iff_of_true (fun _ hmem ↦ absurd hmem List.not_mem_nil) (Or.inr (Or.inl hblank))
    · have hkeys : h.startKeys m incoming = (m.resolveLocked (splitTargets args)).1 := by
        rw [Handler.startKeys, hhandle, if_neg hblank]
        rfl
      rw [hkeys, hallowed, or_iff_right Bool.noConfusion, or_iff_right hblank]
      by_cases hnone : splitTargets args = []
      · rw [hnone, or_iff_right (not_not.mpr rfl)]
        constructor
        · intro hnamed
          exact List.eq_nil_iff_forall_not_mem.mpr fun key hmem ↦
            not_named hnone (hnamed key hmem)
        · intro hempty key hmem
          rw [show (m.resolveLocked []).1 = m.order from rfl, hempty] at hmem
          exact absurd hmem List.not_mem_nil
      · exact iff_of_true (fun key hmem ↦ named_of_resolveLocked hnone hmem) (Or.inl hnone)
  · have hkeys : h.startKeys m incoming = [] := by
      simp [Handler.startKeys, Handler.handle, hcommand, hallowed]
    rw [hkeys]
    exact iff_of_true (fun _ hmem ↦ absurd hmem List.not_mem_nil)
      (Or.inl (Bool.not_eq_true _ ▸ hallowed))

/-- When the targets that a `/start` on Telegram works on have been named: when the sender is not
allowed, the arguments are blank or hold a name, or there are no targets. Then, in every run, the
call of `Start` starts the queues of targets only that have been named. -/
theorem telegram_start_iff [NetURL] {h : Handler} (hadapter : h.adapterKey = "telegram")
    {incoming : Incoming} {args : String}
    (hcommand : parseCommand incoming.text = some ("start", args)) (m : Manager) :
    ((∀ key ∈ h.startKeys m incoming, Named args key) ↔ h.Heeds m incoming args) ∧
      (h.Heeds m incoming args → ∀ s : System, s.manager = m → h.StartsNamed s incoming args) := by
  have hkeys := named_startKeys_iff hadapter hcommand m
  refine ⟨hkeys, ?_⟩
  rintro hheeds s rfl
  intro targets subscriber called s₁ call effect input worker runID key hhandle hcall hrun hproc
    heffect hstarted
  have hmem := started_mem_startKeys hhandle hcall hrun hproc heffect hstarted
  exact hkeys.mpr hheeds key hmem

/-- A message to an adapter that allows everybody. -/
def message (text : String) : Incoming :=
  ⟨"1", "2", "123", "123", text⟩

/-- The adapter for Telegram, allowing everybody. -/
def telegram : Handler :=
  newAdapter 1 [] "Telegram"

/-- `/start` with a name, after a comma and in capitals, starts the named target only. -/
theorem telegram_start_named :
    telegram.startKeys System.sample.manager (message " /start@bot ,A") = ["a"] ∧
      Named ",A" "a" := by
  have hkeys : telegram.startKeys System.sample.manager (message " /start@bot ,A") = ["a"] := by
    decide
  refine ⟨hkeys, ?_⟩
  let _ := NetURL.emptyOnly
  have hnamed : ∀ key ∈ telegram.startKeys System.sample.manager (message " /start@bot ,A"),
      Named ",A" key :=
    (telegram_start_iff (by decide) (by decide) _).1.mpr (Or.inr (Or.inr (Or.inl (by decide))))
  rw [hkeys] at hnamed
  exact hnamed "a" (List.mem_singleton_self "a")

/-- `/start ,` names no target, and its call of `Start` starts the queue of `a`. -/
theorem telegram_start_comma :
    parseCommand "/start ," = some ("start", ",") ∧ splitTargets "," = [] ∧
    telegram.handle (message "/start ,") =
      .start [] ⟨"123", "2", "telegram:123", some 1⟩ ∧
      ∃ s, Steps (@System.step NetURL.emptyOnly) (fun _ _ ↦ True) System.sample s ∧
        .started 1 .queue "a" 1 ∈ s.trace ∧ ¬ Named "," "a" := by
  let _ := NetURL.emptyOnly
  have heval : (runLabels System.step (fun _ _ ↦ true) System.sample
      [.start [] ⟨"123", "2", "telegram:123", some 1⟩, .advance 0 {}, .advance 0 {}]).any (fun s ↦
        s.trace.contains (.started 1 .queue "a" 1)) = true := by
    decide +kernel
  obtain ⟨s, hrun, htest⟩ := Steps.exists_of_runLabels (fun _ _ _ ↦ trivial) heval
  have hnone : splitTargets "," = [] := by decide
  exact ⟨by decide, hnone, by decide, s, hrun, by simpa using htest, not_named hnone⟩

end CodexQueueBot.Commands
