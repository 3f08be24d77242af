import CodexQueueBot.Storage.Loadable

/-!
# Sequences of operations

Operations of the store run one after the other on a fresh database. The context of a request may be
cancelled at any call, and no other call to the database fails. `Loads` is what `Load` does on the
tables that an operation leaves.

An operation that returns an error may have committed: then the snapshot after the commit could not
be built. `write_outcome` shows that this is the only way, and that it makes the tables unloadable.
As long as no operation misses a clash of names it does not happen (`loads_and_unchanged`). It does
for two names that differ in the case of a letter outside ASCII (`accented_names_clash`).
-/

set_option autoImplicit false
set_option relaxedAutoImplicit false

namespace CodexQueueBot.Storage

open Go Lib Lib.Prog

/-- Calls in the context of a request may fail. -/
def cancelled (ctx : Ctx) : Prop :=
  ctx = .request

instance : DecidablePred cancelled :=
  fun ctx ↦ inferInstanceAs (Decidable (ctx = .request))

section

variable [GCM String] [Argon2] [NetURL] [Net] (store : Store)

/-! ### One operation alone -/

/-- The terms on which an operation runs alone. -/
def Store.aloneTerms (op : Write) : Terms Tables where
  faulty := cancelled
  rely := Eq
  effect := fun tables new ↦ ∃ target, Commits store tables op new target
  touch := Eq

/-- What an operation that ran alone leaves: an error leaves the tables as they were, or it is the
error of the load after the commit. -/
def Store.Outcome (op : Write) (tables new : Tables) :
    Except StoreError (Snapshot × Option Target) → Prop
  | .error error => new = tables ∨
      (∃ target, Commits store tables op new target) ∧ store.snapshot new = .error error
  | .ok (snapshot, target) => Commits store tables op new target ∧
      store.snapshot new = .ok snapshot

variable {store} {tables new : Tables} {op : Write}

/-- An operation that runs alone keeps to its outcome. -/
theorem ready_alone : Ready (store.aloneTerms op)
    (fun result phase ↦ store.Outcome op tables phase.tables result) (store.write op).run false
    tables none := by
  refine ⟨tables, rfl, by simp, run_wp (wp_write ?_)⟩
  refine ⟨rfl, fun _ _ ↦ Eq.trans, fun _ ↦ rfl, ?_, ?_⟩
  · rintro error _ rfl
    exact Or.inl rfl
  · rintro _ new target rfl hcommits
    refine ⟨⟨target, hcommits⟩, wp_load store (fun hfaulty ↦ by cases hfaulty) ?_⟩
    rintro _ rfl
    cases hsnapshot : store.snapshot new with
    | error error => exact Or.inr ⟨⟨target, hcommits⟩, hsnapshot⟩
    | ok snapshot => exact ⟨hcommits, hsnapshot⟩

/-- What an operation returns and leaves when it runs alone. -/
theorem write_outcome {answers : List (Answer SQLError)}
    {result : Except StoreError (Snapshot × Option Target)}
    (hrun : (store.write op).run.run .txDone cancelled answers tables none = some (result, new)) :
    store.Outcome op tables new result := by
  obtain ⟨phase, rfl, houtcome⟩ := ready_alone.run hrun
  exact houtcome

/-- An operation that runs alone comes to its end. -/
theorem exists_write (op : Write) (tables : Tables) : ∃ answers result new,
    (store.write op).run.run .txDone cancelled answers tables none = some (result, new) := by
  have : Std.Refl (store.aloneTerms op).rely := ⟨fun _ ↦ rfl⟩
  exact (@ready_alone _ _ _ _ store tables op).exists_run .txDone cancelled

/-! ### Loading -/

end

section

variable [GCM String] [NetURL] (store : Store)

/-- `Load` succeeds when no call fails: it comes to its end, always with a snapshot. -/
def Store.Loads (tables : Tables) : Prop :=
  (∃ answers result new, (store.load .request).run.run .txDone (fun _ ↦ False) answers tables none =
    some (result, new)) ∧
  ∀ answers result new, (store.load .request).run.run .txDone (fun _ ↦ False) answers tables none =
    some (result, new) → ∃ snapshot, result = .ok snapshot

variable {store} {tables : Tables}

/-- `Load` returns the snapshot of the tables. -/
theorem ready_load : Ready ⟨fun _ ↦ False, Eq, fun _ _ ↦ False, Eq⟩
    (fun result _ ↦ result = store.snapshot tables) (store.load .request).run false
    tables none := by
  refine ⟨tables, rfl, by simp, run_wp (wp_load store False.elim ?_)⟩
  rintro _ rfl
  cases store.snapshot tables <;> rfl

/-- `Load` succeeds on the tables that have a snapshot. -/
theorem loads_iff : store.Loads tables ↔ ∃ snapshot, store.snapshot tables = .ok snapshot := by
  have : Std.Refl (⟨fun _ ↦ False, Eq, fun _ _ ↦ False, Eq⟩ : Terms Tables).rely := ⟨fun _ ↦ rfl⟩
  have hends := (@ready_load _ _ store tables).exists_run .txDone fun _ ↦ False
  constructor
  · rintro ⟨⟨answers, result, new, hrun⟩, hall⟩
    obtain ⟨snapshot, rfl⟩ := hall answers result new hrun
    obtain ⟨phase, -, hresult⟩ := ready_load.run hrun
    exact ⟨snapshot, hresult.symm⟩
  · rintro ⟨snapshot, hsnapshot⟩
    refine ⟨hends, fun answers result new hrun ↦ ?_⟩
    obtain ⟨phase, -, hresult⟩ := ready_load.run hrun
    exact ⟨snapshot, hresult.trans hsnapshot⟩

variable (store) in
/-- `Load` comes to its end when no call fails, and returns the snapshot. -/
def Store.LoadsAs (tables : Tables) (snapshot : Snapshot) : Prop :=
  (∃ answers result new, (store.load .request).run.run .txDone (fun _ ↦ False) answers tables none =
    some (result, new)) ∧
  ∀ answers result new, (store.load .request).run.run .txDone (fun _ ↦ False) answers tables none =
    some (result, new) → result = .ok snapshot

/-- `Load` returns the snapshot of the tables. -/
theorem loadsAs_iff {snapshot : Snapshot} :
    store.LoadsAs tables snapshot ↔ store.snapshot tables = .ok snapshot := by
  constructor
  · rintro ⟨⟨answers, result, new, hrun⟩, hall⟩
    obtain rfl := hall answers result new hrun
    obtain ⟨phase, -, hresult⟩ := ready_load.run hrun
    exact hresult.symm
  · intro h
    obtain ⟨hends, -⟩ := loads_iff.mpr ⟨snapshot, h⟩
    refine ⟨hends, fun answers result new hrun ↦ ?_⟩
    obtain ⟨phase, -, hresult⟩ := ready_load.run hrun
    exact hresult.trans h

end

/-! ### One operation after the other -/

/-- The tables, and what the last operation found and returned. -/
structure Sequence where
  tables : Tables
  before : Tables
  result : Option (Except StoreError (Snapshot × Option Target)) := none

/-- The sequence before its first operation. -/
def Sequence.start (tables : Tables) : Sequence :=
  { tables, before := tables }

section

variable [GCM String] [Argon2] [NetURL] [Net] (store : Store)

/-- The next operation, with the answers to its calls. -/
def Store.perform (s : Sequence) (turn : Write × List (Answer SQLError)) : Option Sequence :=
  ((store.write turn.1).run.run .txDone cancelled turn.2 s.tables none).map
    fun (result, tables) ↦ { tables, before := s.tables, result := some result }

variable {store}

/-- What an operation leaves, if it misses no clash of names. -/
theorem Store.Intact.perform {s s' : Sequence} {turn : Write × List (Answer SQLError)}
    (h : store.Intact s.tables) (hclash : ¬ store.MissesClash s.tables turn.1)
    (hperform : store.perform s turn = some s') :
    store.Intact s'.tables ∧ ∀ error, s'.result = some (.error error) → s'.tables = s'.before := by
  obtain ⟨⟨result, new⟩, hrun, rfl⟩ := Option.map_eq_some_iff.mp hperform
  have houtcome := write_outcome hrun
  cases result with
  | error error =>
    rcases houtcome with hsame | ⟨⟨target, hcommits⟩, hsnapshot⟩
    · obtain rfl : new = s.tables := hsame
      exact ⟨h, fun _ _ ↦ rfl⟩
    · obtain ⟨⟨config, hholds⟩, -⟩ := intact_iff.mp (h.commits hcommits hclash)
      rw [snapshot_eq_ok.mpr ⟨config, hholds, rfl⟩] at hsnapshot
      cases hsnapshot
  | ok value =>
    refine ⟨h.commits houtcome.1 hclash, fun error herror ↦ ?_⟩
    cases herror

/-- From a fresh database on, as long as no operation misses a clash of names, `Load` succeeds after
every operation, and an operation that returns an error has left the tables as they were. -/
theorem loads_and_unchanged {fresh : Tables} {s : Sequence} (hfresh : store.Fresh fresh)
    (hrun : Steps store.perform (fun s turn ↦ ¬ store.MissesClash s.tables turn.1)
      (.start fresh) s) :
    store.Loads s.tables ∧ ∀ error, s.result = some (.error error) → s.tables = s.before := by
  obtain rfl := fresh_iff.mp hfresh
  have hinvariant : store.Intact s.tables ∧
      ∀ error, s.result = some (.error error) → s.tables = s.before := by
    refine hrun.invariant (P := fun s ↦ store.Intact s.tables ∧
      ∀ error, s.result = some (.error error) → s.tables = s.before) ?_ ?_
    · intro s s' turn h hclash hperform
      exact h.1.perform hclash hperform
    · exact ⟨intact_freshTables, fun error herror ↦ by cases herror⟩
  obtain ⟨⟨config, hholds⟩, -⟩ := intact_iff.mp hinvariant.1
  exact ⟨loads_iff.mpr ⟨_, snapshot_eq_ok.mpr ⟨config, hholds, rfl⟩⟩, hinvariant.2⟩

end

/-- A target with a name. -/
def namedTarget (name : String) : Target :=
  { Target.zero with name, apiBaseURL := "http://127.0.0.1", apiKey := "k", model := "m" }

/-- A target is created, and all calls go through. -/
def creation (name : String) : Write × List (Answer SQLError) :=
  (.createTarget (namedTarget name), List.replicate 19 (.fine 0))

/-- The operations of the sample store. -/
def samplePerform : Sequence → Write × List (Answer SQLError) → Option Sequence :=
  @Store.perform GCM.transparent Argon2.transparent Config.hostOnly Net.portOnly sampleStore

/-- A test for operations that miss no clash of names. -/
def apart (s : Sequence) (turn : Write × List (Answer SQLError)) : Bool :=
  match turn.1 with
  | .createTarget target => s.tables.targets.all fun row ↦
      Strings.toLower row.name ≠ Strings.toLower (Config.normalizeTarget target).name
  | .updateTarget _ _ _ => false
  | _ => true

/-- An operation that passes the test misses no clash of names. -/
theorem not_missesClash_of_apart [GCM String] [NetURL] {store : Store} {s : Sequence}
    {turn : Write × List (Answer SQLError)} (h : apart s turn = true) :
    ¬ store.MissesClash s.tables turn.1 := by
  obtain ⟨op, answers⟩ := turn
  cases op with
  | createTarget target =>
    rintro ⟨-, -, row, hmem, -, hname⟩
    exact of_decide_eq_true (List.all_eq_true.mp h row hmem) hname
  | updateTarget id target apiKey => cases h
  | _ => exact id

/-- Two targets with names that are apart: `Load` succeeds. -/
theorem loads_and_unchanged_apart :
    ∃ s, Steps samplePerform (fun s turn ↦
        ¬ @Store.MissesClash GCM.transparent sampleStore Config.hostOnly s.tables turn.1)
        (.start freshTables) s ∧
      s.tables.targets.length = 2 ∧
      @Store.Loads GCM.transparent Config.hostOnly sampleStore s.tables := by
  have heval : ((runLabels samplePerform apart (.start freshTables)
      [creation "a", creation "é"]).any fun s ↦ s.tables.targets.length == 2) = true := by
    decide +kernel
  obtain ⟨s, hrun, htest⟩ := Steps.exists_of_runLabels (fun s turn h ↦
    @not_missesClash_of_apart GCM.transparent Config.hostOnly sampleStore s turn h) heval
  refine ⟨s, hrun, beq_iff_eq.mp htest, ?_⟩
  exact (@loads_and_unchanged GCM.transparent Argon2.transparent Config.hostOnly Net.portOnly
    sampleStore freshTables s (@fresh_iff GCM.transparent Config.hostOnly _ _ |>.mpr rfl) hrun).1

/-- The second of two creations has returned an error, has left its row, and the tables do not
load. -/
def clashed (s : Sequence) : Bool :=
  s.tables.targets.length == 2 && s.before.targets.length == 1 &&
    (s.result matches some (.error _)) &&
    (@Store.snapshot GCM.transparent Config.hostOnly sampleStore s.tables matches .error _)

/-- Two targets whose names differ in the case of a letter outside ASCII: the second operation
returns an error although it has committed, and from then on `Load` fails. -/
theorem accented_names_clash :
    ∃ s, Steps samplePerform (fun _ _ ↦ True) (.start freshTables) s ∧
      (∃ error, s.result = some (.error error)) ∧ s.tables ≠ s.before ∧
      ¬ @Store.Loads GCM.transparent Config.hostOnly sampleStore s.tables := by
  let _ := GCM.transparent
  let _ := Config.hostOnly
  have heval : ((runLabels samplePerform (fun _ _ ↦ true) (.start freshTables)
      [creation "É", creation "é"]).any clashed) = true := by
    decide +kernel
  obtain ⟨s, hrun, htest⟩ := Steps.exists_of_runLabels (fun _ _ _ ↦ trivial) heval
  simp only [clashed, Bool.and_eq_true, beq_iff_eq] at htest
  obtain ⟨⟨⟨hafter, hbefore⟩, hresult⟩, hsnapshot⟩ := htest
  refine ⟨s, hrun, ?_, fun heq ↦ ?_, fun hloads ↦ ?_⟩
  · split at hresult
    · exact ⟨_, by assumption⟩
    · cases hresult
  · rw [heq, hbefore] at hafter
    cases hafter
  · obtain ⟨snapshot, hok⟩ := loads_iff.mp hloads
    rw [hok] at hsnapshot
    cases hsnapshot

end CodexQueueBot.Storage
