import CodexQueueBot.Config.Validity
import CodexQueueBot.Hub.Events

/-!
# Commands that are read back

A command for a list of targets is written as a slash, a word, a blank, and the names of the targets
with separators between them. `command_roundTrip` says that it is read back as this word and this
list, and that it makes no difference whether it comes as a text or as an event of OpenILink that
has the word and the names in two fields.

The trimming on the way does no harm because white space is a separator. The names do not fall apart
because validation forbids the separators in them, and nothing else: `splitTargets_eq_singleton_iff`
says that the names that are read back as they are have no separator in them and are not empty.
-/

set_option autoImplicit false
set_option relaxedAutoImplicit false

namespace CodexQueueBot

open Go

namespace Config

/-- Names that validation has no objection to. -/
structure ValidName (name : String) : Prop where
  named : name ≠ ""
  unreserved : Strings.toLower name ≠ "all" ∧ Strings.toLower name ≠ "全部"
  plain : ∀ c ∈ name.toList, Strings.isSpace c = false ∧ c ∉ separators

/-- The name of a valid target is valid. -/
theorem Valid.validName [NetURL] {t : Target} (h : Valid t) : ValidName t.name :=
  ⟨h.named, h.unreserved, h.plain⟩

end Config

namespace Commands

/-! ### Texts that join names -/

/-- A non-empty sequence of separators. -/
structure Gap (chars : List Char) : Prop where
  nonempty : chars ≠ []
  separators : ∀ c ∈ chars, isSeparator c = true

/-- Texts that consist of given parts and gaps between them. -/
inductive Joins : List (List Char) → List Char → Prop
  | single (part : List Char) : Joins [part] part
  | cons (part : List Char) {gap rest : List Char} {parts : List (List Char)} (hgap : Gap gap)
      (hrest : Joins parts rest) : Joins (part :: parts) (part ++ (gap ++ rest))

/-- Texts that consist of given names with gaps between them, and possibly at both ends. -/
inductive Joined (names : List String) : String → Prop
  | intro {before chars after : List Char} (hbefore : before = [] ∨ Gap before)
      (hafter : after = [] ∨ Gap after) (hjoins : Joins (names.map String.toList) chars) :
      Joined names (String.ofList (before ++ (chars ++ after)))

/-- No text joins nothing. -/
theorem Joined.ne_nil {names : List String} {joined : String} (h : Joined names joined) :
    names ≠ [] := by
  obtain ⟨-, -, hjoins⟩ := h
  rintro rfl
  cases hjoins

/-! ### Splitting -/

/-- What validation forbids in names is what separates them. -/
theorem isSeparator_eq_false_iff {c : Char} :
    isSeparator c = false ↔ Strings.isSpace c = false ∧ c ∉ Config.separators := by
  simp [isSeparator, Config.separators, and_assoc]

/-- Separators before a part are skipped. -/
theorem fieldsFrom_separators {gap : List Char} (hgap : ∀ c ∈ gap, isSeparator c = true)
    (rest : List Char) : fieldsFrom (gap ++ rest) [] = fieldsFrom rest [] := by
  induction gap with
  | nil => rfl
  | cons c gap ih =>
    obtain ⟨hc, hgap⟩ := List.forall_mem_cons.mp hgap
    rw [List.cons_append, fieldsFrom, if_pos hc, if_pos rfl, ih hgap]

/-- A part without separators is added to the part that has been begun. -/
theorem fieldsFrom_part {part : List Char} (hpart : ∀ c ∈ part, isSeparator c = false)
    (rest field : List Char) :
    fieldsFrom (part ++ rest) field = fieldsFrom rest (field ++ part) := by
  induction part generalizing field with
  | nil => rw [List.nil_append, List.append_nil]
  | cons c part ih =>
    obtain ⟨hc, hpart⟩ := List.forall_mem_cons.mp hpart
    rw [List.cons_append, fieldsFrom, if_neg (Bool.eq_false_iff.mp hc), ih hpart,
      List.append_assoc, List.singleton_append]

/-- A gap ends a part that has been begun. -/
theorem fieldsFrom_gap {gap field : List Char} (hgap : Gap gap) (hfield : field ≠ [])
    (rest : List Char) : fieldsFrom (gap ++ rest) field = field :: fieldsFrom rest [] := by
  cases gap with
  | nil => exact absurd rfl hgap.nonempty
  | cons c gap =>
    obtain ⟨hc, hgap⟩ := List.forall_mem_cons.mp hgap.separators
    rw [List.cons_append, fieldsFrom, if_pos hc, if_neg hfield, fieldsFrom_separators hgap]

/-- Separators at the end of a text end its last part, and no more. -/
theorem fieldsFrom_append_separators {gap : List Char} (hgap : ∀ c ∈ gap, isSeparator c = true)
    (chars field : List Char) : fieldsFrom (chars ++ gap) field = fieldsFrom chars field := by
  induction chars generalizing field with
  | nil =>
    cases gap with
    | nil => rfl
    | cons c gap =>
      by_cases hfield : field = []
      · subst hfield
        have hskip := fieldsFrom_separators hgap []
        rwa [List.append_nil] at hskip
      · have hend := fieldsFrom_gap ⟨List.cons_ne_nil c gap, hgap⟩ hfield []
        rw [List.append_nil] at hend
        rw [List.nil_append, hend, fieldsFrom, fieldsFrom, if_pos rfl, if_neg hfield]
  | cons c chars ih =>
    rw [List.cons_append, fieldsFrom, fieldsFrom, ih, ih]

/-- Parts without separators are read back from a text that joins them. -/
theorem fieldsFrom_joins {parts : List (List Char)} {chars : List Char}
    (hjoins : Joins parts chars)
    (hparts : ∀ part ∈ parts, part ≠ [] ∧ ∀ c ∈ part, isSeparator c = false) :
    fieldsFrom chars [] = parts := by
  induction hjoins with
  | single part =>
    obtain ⟨hne, hpart⟩ := hparts part (List.mem_singleton_self part)
    have hread := fieldsFrom_part hpart [] []
    rw [List.append_nil, List.nil_append] at hread
    rw [hread, fieldsFrom, if_neg hne]
  | cons part hgap hrest ih =>
    obtain ⟨⟨hne, hpart⟩, hparts⟩ := List.forall_mem_cons.mp hparts
    rw [fieldsFrom_part hpart, List.nil_append, fieldsFrom_gap hgap hne, ih hparts]

/-- What is read from a text has no separator in it and is not empty. -/
theorem fieldsFrom_forall {chars field : List Char}
    (hfield : ∀ c ∈ field, isSeparator c = false) :
    ∀ part ∈ fieldsFrom chars field, part ≠ [] ∧ ∀ c ∈ part, isSeparator c = false := by
  induction chars generalizing field with
  | nil =>
    intro part hmem
    rw [fieldsFrom] at hmem
    split_ifs at hmem with hempty
    · cases hmem
    · rw [List.mem_singleton.mp hmem]
      exact ⟨hempty, hfield⟩
  | cons c chars ih =>
    intro part hmem
    rw [fieldsFrom] at hmem
    split_ifs at hmem with hc hempty
    · exact ih (by simp) part hmem
    · rcases List.mem_cons.mp hmem with rfl | hmem
      · exact ⟨hempty, hfield⟩
      · exact ih (by simp) part hmem
    · refine ih (fun d hd ↦ ?_) part hmem
      rcases List.mem_append.mp hd with hd | hd
      · exact hfield d hd
      · rw [List.mem_singleton.mp hd]
        exact Bool.eq_false_iff.mpr hc

/-- Valid names are read back from a text that joins them. -/
theorem splitTargets_joined {names : List String} {joined : String}
    (hnames : ∀ name ∈ names, Config.ValidName name) (hjoined : Joined names joined) :
    splitTargets joined = names := by
  obtain @⟨before, chars, after, hbefore, hafter, hjoins⟩ := hjoined
  have hseparators : ∀ {gap : List Char}, gap = [] ∨ Gap gap → ∀ c ∈ gap, isSeparator c = true := by
    rintro gap (rfl | hgap) c hmem
    · cases hmem
    · exact hgap.separators c hmem
  have hparts : ∀ part ∈ names.map String.toList,
      part ≠ [] ∧ ∀ c ∈ part, isSeparator c = false := by
    intro part hmem
    obtain ⟨name, hname, rfl⟩ := List.mem_map.mp hmem
    exact ⟨mt String.toList_eq_nil_iff.mp (hnames name hname).named, fun c hc ↦
      isSeparator_eq_false_iff.mpr ((hnames name hname).plain c hc)⟩
  rw [splitTargets, String.toList_ofList, fieldsFrom_separators (hseparators hbefore),
    fieldsFrom_append_separators (hseparators hafter), fieldsFrom_joins hjoins hparts, List.map_map]
  simp [Function.comp_def]

/-- Trimming does not change the names in a text. -/
theorem splitTargets_trimSpace (text : String) :
    splitTargets (Strings.trimSpace text) = splitTargets text := by
  have hspace : ∀ {gap : List Char}, (∀ c ∈ gap, Strings.isSpace c = true) →
      ∀ c ∈ gap, isSeparator c = true := fun hgap c hmem ↦ by
    simp [isSeparator, hgap c hmem]
  obtain ⟨lead, tail, hlead, htail, htext⟩ := Strings.exists_trimSpaceChars text.toList
  rw [splitTargets, splitTargets, htext, fieldsFrom_separators (hspace hlead),
    fieldsFrom_append_separators (hspace htail), Strings.trimSpace, String.toList_ofList]

/-- The names that are read back as they are: those that are not empty and have no separator in
them. -/
theorem splitTargets_eq_singleton_iff (name : String) : splitTargets name = [name] ↔
    name ≠ "" ∧ ∀ c ∈ name.toList, Strings.isSpace c = false ∧ c ∉ Config.separators := by
  simp only [← isSeparator_eq_false_iff]
  constructor
  · intro hread
    have hmem : name ∈ splitTargets name := by
      rw [hread]
      exact List.mem_singleton_self name
    obtain ⟨part, hpart, rfl⟩ := List.mem_map.mp hmem
    obtain ⟨hne, hseparators⟩ := fieldsFrom_forall (by simp) part hpart
    rw [String.toList_ofList]
    exact ⟨mt String.ofList_eq_empty_iff.mp hne, hseparators⟩
  · rintro ⟨hne, hseparators⟩
    have hpart : name.toList ≠ [] := mt String.toList_eq_nil_iff.mp hne
    have hparts : ∀ part ∈ [name.toList], part ≠ [] ∧ ∀ c ∈ part, isSeparator c = false :=
      List.forall_mem_singleton.mpr ⟨hpart, hseparators⟩
    rw [splitTargets, fieldsFrom_joins (.single name.toList) hparts, List.map_singleton,
      String.ofList_toList]

/-! ### Parsing -/

/-- A word without white space is cut off before white space, with the trimmed rest behind it. -/
theorem splitFirstField_word {word rest : List Char}
    (hword : ∀ c ∈ word, Strings.isSpace c = false)
    (hrest : ∀ c ∈ rest.head?, Strings.isSpace c = true) :
    splitFirstField (String.ofList (word ++ rest)) =
      (String.ofList word, Strings.trimSpace (String.ofList rest)) := by
  have hkept : ∀ c ∈ word, (! Strings.isSpace c) = true := fun c hmem ↦ by
    rw [hword c hmem, Bool.not_false]
  rw [splitFirstField, String.toList_ofList, List.dropWhile_append_of_pos hkept,
    List.takeWhile_append_of_pos hkept]
  cases rest with
  | nil => simp
  | cons c rest =>
    have hc : Strings.isSpace c = true := hrest c rfl
    simp [hc]

/-- A slash, a word and any text are parsed as the word in lower case and the trimmed text. -/
theorem parseCommand_word {word : String} (hne : word ≠ "")
    (hword : ∀ c ∈ word.toList, Strings.isSpace c = false ∧ c ≠ '@') (text : String) :
    parseCommand ("/" ++ word ++ " " ++ text) =
      some (Strings.toLower word, Strings.trimSpace text) := by
  have hchars : word.toList ≠ [] := mt String.toList_eq_nil_iff.mp hne
  have hspaces : ∀ c ∈ word.toList, Strings.isSpace c = false := fun c hmem ↦ (hword c hmem).1
  have hcommand : word.toList.takeWhile (· ≠ '@') = word.toList :=
    List.takeWhile_eq_self_iff.mpr fun c hmem ↦ decide_eq_true (hword c hmem).2
  -- What is left behind the word: nothing, or a blank and the text without the blanks at its end.
  obtain ⟨rest, hrest⟩ : ∃ rest, (' ' :: text.toList).rdropWhile Strings.isSpace = rest := ⟨_, rfl⟩
  have htrimmed : Strings.trimSpaceChars ("/" ++ word ++ " " ++ text).toList =
      '/' :: (word.toList ++ rest) := by
    have hslash : ∀ c ∈ '/' :: word.toList, Strings.isSpace c = false :=
      List.forall_mem_cons.mpr ⟨by decide, hspaces⟩
    have hlist : ("/" ++ word ++ " " ++ text).toList =
        ('/' :: word.toList) ++ ' ' :: text.toList := by simp
    rw [hlist, Strings.trimSpaceChars_word (List.cons_ne_nil _ _) hslash, hrest, List.cons_append]
  have hbody : Strings.trimSpaceChars (word.toList ++ rest) = word.toList ++ rest := by
    rw [Strings.trimSpaceChars_word hchars hspaces, ← hrest, List.rdropWhile_idempotent]
  have hhead : ∀ c ∈ rest.head?, Strings.isSpace c = true := by
    intro c hc
    obtain ⟨tail, htail⟩ := List.rdropWhile_prefix Strings.isSpace (' ' :: text.toList)
    rw [hrest] at htail
    cases rest with
    | nil => cases hc
    | cons first rest =>
      obtain rfl : first = c := Option.some.inj hc
      rw [(List.cons.inj htail).1]
      decide
  have hargs : Strings.trimSpace (String.ofList rest) = Strings.trimSpace text := by
    have htail := @Strings.trimSpaceChars_spaces [] _ (by simp)
      (fun c hmem ↦ List.mem_rtakeWhile_imp (l := ' ' :: text.toList) hmem) rest
    have hlead := @Strings.trimSpaceChars_spaces [' '] [] (List.forall_mem_singleton.mpr rfl)
      (by simp) text.toList
    rw [List.nil_append, ← hrest, List.rdropWhile_append_rtakeWhile, hrest] at htail
    rw [List.append_nil, List.singleton_append] at hlead
    rw [Strings.trimSpace, Strings.trimSpace, String.toList_ofList, ← htail, hlead]
  have htext : Strings.trimSpace (String.ofList (word.toList ++ rest)) =
      String.ofList (word.toList ++ rest) := by
    rw [Strings.trimSpace, String.toList_ofList, hbody]
  have hblank : String.ofList (word.toList ++ rest) ≠ "" := fun hempty ↦
    hchars (List.append_eq_nil_iff.mp (String.ofList_eq_empty_iff.mp hempty)).1
  have hword : String.ofList ((String.ofList word.toList).toList.takeWhile (· ≠ '@')) = word := by
    rw [String.toList_ofList, hcommand, String.ofList_toList]
  have hslash : (Strings.trimSpace ("/" ++ word ++ " " ++ text)).toList =
      '/' :: (word.toList ++ rest) := by
    rw [Strings.trimSpace, String.toList_ofList, htrimmed]
  simp only [parseCommand, hslash, htext, if_neg hblank, splitFirstField_word hspaces hhead, hword,
    if_neg hne, hargs, Strings.trimSpace_trimSpace]

/-! ### The round trip -/

/-- An event of OpenILink with a command and its arguments, from a sender that is heard. -/
structure Carries (envelope : Hub.Envelope) (command text : String) : Prop where
  type : envelope.eventType = "command"
  data : ∃ data, envelope.data = some data ∧ data.command = command ∧ data.text = text ∧
    data.senderID ≠ "" ∧ (data.senderRole = "" ∨ data.senderRole = "user")

/-- The text of an event with a word and arguments. -/
theorem decodeIncoming_of_carries {envelope : Hub.Envelope} {word text : String}
    (h : Carries envelope word text) (hne : word ≠ "")
    (hword : ∀ c ∈ word.toList, Strings.isSpace c = false)
    (hargs : Strings.trimSpace text ≠ "") : ∃ incoming, Hub.decodeIncoming envelope =
      some incoming ∧ incoming.text = "/" ++ word ++ " " ++ Strings.trimSpace text := by
  obtain ⟨htype, data, hdata, rfl, rfl, hsender⟩ := h
  have hevent : Hub.eventText "command" data =
      some ("/" ++ data.command ++ " " ++ Strings.trimSpace data.text) := by
    rw [Hub.eventText, if_pos rfl]
    simp only [Strings.trimSpace_eq_self hword, if_neg hne, if_pos hargs]
  have htext : "/" ++ data.command ++ " " ++ Strings.trimSpace data.text ≠ "" := by
    simp
  simp [Hub.decodeIncoming, htype, hdata, hsender, hevent, htext]

/-- A command for a list of targets is read back as its word in lower case and the list, however
the names are joined, and the event with the same word and names is decoded to a text that is parsed
the same way. -/
theorem command_roundTrip {word : String} (hne : word ≠ "")
    (hword : ∀ c ∈ word.toList, Strings.isSpace c = false ∧ c ≠ '@') {names : List String}
    (hnames : ∀ name ∈ names, Config.ValidName name) {joined : String}
    (hjoined : Joined names joined) :
    (∃ args, parseCommand ("/" ++ word ++ " " ++ joined) = some (Strings.toLower word, args) ∧
      splitTargets args = names) ∧
    ∀ envelope, Carries envelope word joined → ∃ incoming,
      Hub.decodeIncoming envelope = some incoming ∧
        parseCommand incoming.text = parseCommand ("/" ++ word ++ " " ++ joined) := by
  have hnames : splitTargets joined = names := splitTargets_joined hnames hjoined
  have hargs : Strings.trimSpace joined ≠ "" := by
    intro hblank
    rw [← splitTargets_trimSpace, hblank] at hnames
    exact hjoined.ne_nil hnames.symm
  refine ⟨⟨_, parseCommand_word hne hword joined, ?_⟩, fun envelope hcarries ↦ ?_⟩
  · rw [splitTargets_trimSpace, hnames]
  · obtain ⟨incoming, hincoming, htext⟩ :=
      decodeIncoming_of_carries hcarries hne (fun c hmem ↦ (hword c hmem).1) hargs
    refine ⟨incoming, hincoming, ?_⟩
    rw [htext, parseCommand_word hne hword, parseCommand_word hne hword,
      Strings.trimSpace_trimSpace]

/-- The arguments of an event of OpenILink: two names, a comma and a blank between them, and white
space around them. -/
def spelled : String :=
  String.ofList ([' '] ++ (['a'] ++ (['，', ' '] ++ ['备']) ++ ['\t']))

/-- A command for two targets, both ways. -/
theorem command_roundTrip_spelled :
    (∃ args, parseCommand ("/" ++ "Go" ++ " " ++ spelled) = some (Strings.toLower "Go", args) ∧
      splitTargets args = ["a", "备"]) ∧
    ∃ incoming, Hub.decodeIncoming
        ⟨"event", "t", "command", "e", some ⟨"", "Go", spelled, "u", "user"⟩⟩ = some incoming ∧
      parseCommand incoming.text = parseCommand ("/" ++ "Go" ++ " " ++ spelled) := by
  have hnames : ∀ name ∈ ["a", "备"], Config.ValidName name := by
    intro name hmem
    simp only [List.mem_cons, List.not_mem_nil, or_false] at hmem
    rcases hmem with rfl | rfl <;>
      exact ⟨by decide, by decide, List.forall_mem_singleton.mpr (by decide)⟩
  have hjoined : Joined ["a", "备"] spelled :=
    .intro (.inr ⟨by decide, List.all_eq_true.mp rfl⟩) (.inr ⟨by decide, List.all_eq_true.mp rfl⟩)
      (.cons ['a'] ⟨by decide, List.all_eq_true.mp rfl⟩ (.single ['备']))
  have hword : ∀ c ∈ "Go".toList, Strings.isSpace c = false ∧ c ≠ '@' :=
    List.forall_mem_cons.mpr ⟨by decide, List.forall_mem_singleton.mpr (by decide)⟩
  have hround := @command_roundTrip "Go" (by decide) hword _ hnames _ hjoined
  exact ⟨hround.1, hround.2 _ ⟨rfl, _, rfl, rfl, rfl, by decide, by decide⟩⟩

end Commands

end CodexQueueBot
