import CodexQueueBot.Go.Strings
import Mathlib.Data.List.DropRight

/-!
# Facts about trimmed texts and lower case

A text is blank when all its code points are white space, and trimming leaves the empty text exactly
of a blank one. Trimming twice is trimming once, and a text without white space is its own trimmed
text. No code point becomes one below `a` in lower case, unless it is that one already. Lower case
neither makes nor removes white space, and changes nothing the second time. Behind a lead without
white space at its ends, trimming only touches the end of a text, and a binding `name=value` is cut
into its two parts.
-/

set_option autoImplicit false
set_option relaxedAutoImplicit false

namespace CodexQueueBot.Go.Strings

/-! ### Blank texts -/

/-- Trimming removes everything exactly when there is white space only. -/
theorem trimSpaceChars_eq_nil_iff (chars : List Char) :
    trimSpaceChars chars = [] ↔ ∀ c ∈ chars, isSpace c = true := by
  rw [trimSpaceChars, List.reverse_eq_nil_iff, List.dropWhile_eq_nil_iff]
  constructor
  · intro h
    by_contra hne
    have hdrop : chars.dropWhile isSpace ≠ [] := by
      rwa [Ne, List.dropWhile_eq_nil_iff]
    have hhead := List.head_dropWhile_not isSpace hdrop
    rw [h _ (List.mem_reverse.mpr (List.head_mem hdrop))] at hhead
    cases hhead
  · intro h c hmem
    exact h c (List.dropWhile_sublist _ |>.subset (List.mem_reverse.mp hmem))

/-- The trimmed text is empty exactly when the text is blank. -/
theorem trimSpace_eq_empty_iff (value : String) :
    trimSpace value = "" ↔ ∀ c ∈ value.toList, isSpace c = true := by
  rw [trimSpace, ← trimSpaceChars_eq_nil_iff, String.ofList_eq_empty_iff]

/-- The empty text is its own trimmed text. -/
@[simp]
theorem trimSpace_empty : trimSpace "" = "" := by
  rw [trimSpace_eq_empty_iff]
  simp

/-- A text with a code point other than white space is not blank. -/
theorem trimSpace_ne_empty {value : String} {c : Char} (hmem : c ∈ value.toList)
    (hspace : isSpace c = false) : trimSpace value ≠ "" := by
  intro hblank
  rw [(trimSpace_eq_empty_iff value).mp hblank c hmem] at hspace
  cases hspace

/-! ### Trimming again -/

/-- A list that starts and ends without white space is its own trimmed list. -/
theorem trimSpaceChars_rdropWhile (chars : List Char) :
    trimSpaceChars chars = (chars.dropWhile isSpace).rdropWhile isSpace :=
  rfl

/-- A list whose lead was dropped has nothing more to drop, and neither have its beginnings. -/
theorem dropWhile_of_prefix {α : Type*} {p : α → Bool} {start chars : List α}
    (h : start <+: chars.dropWhile p) : start.dropWhile p = start := by
  cases start with
  | nil => rfl
  | cons c rest =>
    obtain ⟨tail, htail⟩ := h
    have hne : chars.dropWhile p ≠ [] := by simp [← htail]
    have hhead := List.head_dropWhile_not p hne
    simp only [← htail, List.cons_append, List.head_cons] at hhead
    exact List.dropWhile_cons_of_neg (by simp [hhead])

/-- Only the last of two parts loses its end, if it is not lost as a whole. -/
theorem rdropWhile_append {α : Type*} (p : α → Bool) (first last : List α) :
    (first ++ last).rdropWhile p = if last.rdropWhile p = [] then first.rdropWhile p
      else first ++ last.rdropWhile p := by
  simp only [List.rdropWhile, List.reverse_append, List.dropWhile_append, List.isEmpty_iff,
    List.reverse_eq_nil_iff]
  split_ifs <;> simp

/-- Trimming twice is trimming once. -/
@[simp]
theorem trimSpace_trimSpace (value : String) : trimSpace (trimSpace value) = trimSpace value := by
  rw [trimSpace, trimSpace, String.toList_ofList, trimSpaceChars_rdropWhile,
    trimSpaceChars_rdropWhile, dropWhile_of_prefix (List.rdropWhile_prefix isSpace _),
    List.rdropWhile_idempotent]

/-- A text without white space is its own trimmed text. -/
theorem trimSpace_eq_self {value : String} (h : ∀ c ∈ value.toList, isSpace c = false) :
    trimSpace value = value := by
  have hfirst : value.toList.dropWhile isSpace = value.toList := by
    cases hchars : value.toList with
    | nil => rfl
    | cons c rest =>
      exact List.dropWhile_cons_of_neg (by simp [h c (by simp [hchars])])
  have hlast : value.toList.rdropWhile isSpace = value.toList := by
    rw [List.rdropWhile_eq_self_iff]
    intro hne
    simp [h _ (List.getLast_mem hne)]
  rw [trimSpace, trimSpaceChars_rdropWhile, hfirst, hlast, String.ofList_toList]

/-! ### Lower case -/

/-- An invalid code point becomes zero. -/
theorem toNat_ofNat_cases (code : Nat) :
    (Char.ofNat code).toNat = code ∨ (Char.ofNat code).toNat = 0 := by
  unfold Char.ofNat
  by_cases hvalid : code.isValidChar
  · rw [dif_pos hvalid]
    exact Or.inl rfl
  · rw [dif_neg hvalid]
    exact Or.inr rfl

/-- The images of the ranges of the case table are not below `a`. -/
theorem a_le_lowerRanges : ∀ range ∈ lowerRanges, 97 ≤ range.first + range.delta := by
  decide +kernel

/-- What is below `a` and not zero is in lower case only the image of itself. -/
theorem eq_of_toLowerChar {c d : Char} (h : toLowerChar c = d) (hpos : d.toNat ≠ 0)
    (hlt : d.toNat < 97) : c = d := by
  unfold toLowerChar at h
  cases hfind : lowerRanges.find? fun range ↦ range.covers c.toNat with
  | none =>
    simp only [hfind] at h
    exact h
  | some range =>
    simp only [hfind] at h
    have hmem := List.mem_of_find?_eq_some hfind
    have hcovers := List.find?_some hfind
    simp only [CaseRange.covers, Bool.and_eq_true, decide_eq_true_eq] at hcovers
    have hbound := a_le_lowerRanges range hmem
    rcases toNat_ofNat_cases (c.toNat + range.delta).toNat with hnat | hzero
    · rw [h] at hnat
      omega
    · rw [h] at hzero
      exact absurd hzero hpos

/-- Lower case leaves the empty text empty, and no other. -/
theorem toLower_eq_empty_iff (value : String) : toLower value = "" ↔ value = "" := by
  unfold toLower
  rw [String.ofList_eq_empty_iff, List.map_eq_nil_iff, String.toList_eq_nil_iff]

/-- A text of one code point below `a` is in lower case the image of itself only. -/
theorem eq_of_toLower_singleton {value : String} {d : Char}
    (h : toLower value = String.ofList [d]) (hpos : d.toNat ≠ 0) (hlt : d.toNat < 97) :
    value = String.ofList [d] := by
  unfold toLower at h
  rw [String.ofList_inj, List.map_eq_singleton_iff] at h
  obtain ⟨c, hvalue, hlower⟩ := h
  rw [← String.ofList_toList (s := value), hvalue, eq_of_toLowerChar hlower hpos hlt]

/-- The number that a range of the case table makes of one that it covers. -/
def CaseRange.image (range : CaseRange) (code : Nat) : Nat :=
  (code + range.delta).toNat

/-- No code point is the image of a range of the case table and covered by another range: the
images lie outside the other range, or between its code points. -/
def CaseRange.apart (range other : CaseRange) : Bool :=
  (range.image range.last).blt other.first || other.last.blt (range.image range.first) ||
    ((range.stride == 2 || range.first == range.last) && other.stride == 2 &&
      (range.image range.first + other.first) % 2 == 1)

/-- No image of a range is covered by one. -/
theorem apart_lowerRanges : (lowerRanges.all fun range ↦ lowerRanges.all range.apart) = true := by
  decide +kernel

/-- What a range covers is not covered after the shift by a range that lies apart. -/
theorem not_covers_of_apart {range other : CaseRange} {code : Nat} (hcovers : range.covers code)
    (hapart : range.apart other = true) (hpos : 0 ≤ range.first + range.delta) :
    other.covers (range.image code) = false := by
  rw [Bool.eq_false_iff]
  intro hother
  simp only [CaseRange.covers, Bool.and_eq_true, decide_eq_true_eq, beq_iff_eq] at hcovers hother
  simp only [CaseRange.apart, Bool.or_eq_true, Bool.and_eq_true, Nat.blt_eq, beq_iff_eq] at hapart
  obtain ⟨⟨hfirst, hlast⟩, hstep⟩ := hcovers
  have himage : range.image code = range.image range.first + (code - range.first) := by
    unfold CaseRange.image
    omega
  have hend : range.image code ≤ range.image range.last := by
    unfold CaseRange.image
    omega
  rcases hapart with (hbelow | habove) | ⟨⟨hstride | hsingle, hother₂⟩, hodd⟩
  · omega
  · omega
  · rw [hstride] at hstep
    rw [hother₂] at hother
    omega
  · rw [hother₂] at hother
    omega

/-- The white space, as numbers. -/
def spaceCodes : List Nat :=
  [0x09, 0x0A, 0x0B, 0x0C, 0x0D, 0x20, 0x85, 0xA0, 0x1680, 0x2000, 0x2001, 0x2002, 0x2003, 0x2004,
    0x2005, 0x2006, 0x2007, 0x2008, 0x2009, 0x200A, 0x2028, 0x2029, 0x202F, 0x205F, 0x3000]

theorem isSpace_iff (c : Char) : isSpace c = true ↔ c.toNat ∈ spaceCodes := by
  simp only [isSpace, spaceCodes, Bool.or_eq_true, Bool.and_eq_true, decide_eq_true_eq, beq_iff_eq,
    List.mem_cons, List.not_mem_nil, or_false]
  omega

/-- White space is not in the ranges of the case table, nor among their images. -/
theorem spaceCodes_lowerRanges : (lowerRanges.all fun range ↦ spaceCodes.all fun code ↦
    ! range.covers code &&
      (code.blt (range.image range.first) || (range.image range.last).blt code)) = true := by
  decide +kernel

/-- What lower case makes of a code point: the point itself, if no range covers it, or the image
under the range that does. -/
theorem toLowerChar_cases (c : Char) :
    ((∀ range ∈ lowerRanges, range.covers c.toNat = false) ∧ toLowerChar c = c) ∨
      ∃ range ∈ lowerRanges, range.covers c.toNat = true ∧ 0 ≤ range.first + range.delta ∧
        ((toLowerChar c).toNat = range.image c.toNat ∨ (toLowerChar c).toNat = 0) := by
  unfold toLowerChar
  cases hfind : lowerRanges.find? fun range ↦ range.covers c.toNat with
  | none =>
    rw [List.find?_eq_none] at hfind
    exact Or.inl ⟨fun range hmem ↦ Bool.eq_false_iff.mpr (hfind range hmem), rfl⟩
  | some range =>
    have hmem := List.mem_of_find?_eq_some hfind
    have hcovers := List.find?_some hfind
    have hbound := a_le_lowerRanges range hmem
    exact Or.inr ⟨range, hmem, hcovers, by omega, toNat_ofNat_cases _⟩

/-- Lower case leaves what it has made. -/
theorem toLowerChar_toLowerChar (c : Char) : toLowerChar (toLowerChar c) = toLowerChar c := by
  rcases toLowerChar_cases c with ⟨-, hsame⟩ | ⟨range, hmem, hcovers, hpos, himage⟩
  · rw [hsame, hsame]
  · have hfree : ∀ other ∈ lowerRanges, other.covers (toLowerChar c).toNat = false := by
      intro other hother
      rcases himage with himage | hzero
      · have hall := List.all_eq_true.mp apart_lowerRanges range hmem
        rw [himage]
        exact not_covers_of_apart hcovers (List.all_eq_true.mp hall other hother) hpos
      · have hfirst : ∀ other ∈ lowerRanges, other.covers 0 = false := by
          decide +kernel
        rw [hzero]
        exact hfirst other hother
    rcases toLowerChar_cases (toLowerChar c) with ⟨-, hsame⟩ | ⟨other, hother, hcovers', -⟩
    · exact hsame
    · rw [hfree other hother] at hcovers'
      cases hcovers'

/-- Lower case neither makes nor removes white space. -/
theorem isSpace_toLowerChar (c : Char) : isSpace (toLowerChar c) = isSpace c := by
  rcases toLowerChar_cases c with ⟨-, hsame⟩ | ⟨range, hmem, hcovers, hpos, himage⟩
  · rw [hsame]
  · have hspaces := List.all_eq_true.mp spaceCodes_lowerRanges range hmem
    have hspace (code : Nat) (hcode : code ∈ spaceCodes) := List.all_eq_true.mp hspaces code hcode
    simp only [Bool.and_eq_true, Bool.or_eq_true, Bool.not_eq_true', Nat.blt_eq] at hspace
    have hold : ¬ isSpace c = true := by
      rw [isSpace_iff]
      intro hcode
      rw [(hspace _ hcode).1] at hcovers
      cases hcovers
    have hnew : ¬ isSpace (toLowerChar c) = true := by
      rw [isSpace_iff]
      intro hcode
      simp only [CaseRange.covers, Bool.and_eq_true, decide_eq_true_eq] at hcovers
      have hout := (hspace _ hcode).2
      rcases himage with himage | hzero
      · rw [himage] at hout
        unfold CaseRange.image at hout
        omega
      · rw [hzero] at hcode
        exact absurd hcode (by decide)
    rw [Bool.eq_false_iff.mpr hold, Bool.eq_false_iff.mpr hnew]

/-- Lower case twice is lower case once. -/
theorem toLower_toLower (value : String) : toLower (toLower value) = toLower value := by
  unfold toLower
  rw [String.toList_ofList, List.map_map]
  congr 1
  exact List.map_congr_left fun c _ ↦ toLowerChar_toLowerChar c

/-- Trimming and lower case can be exchanged. -/
theorem trimSpace_toLower (value : String) :
    trimSpace (toLower value) = toLower (trimSpace value) := by
  have hmap (chars : List Char) :
      (chars.map toLowerChar).dropWhile isSpace = (chars.dropWhile isSpace).map toLowerChar := by
    rw [List.dropWhile_map]
    congr 2
    funext c
    exact isSpace_toLowerChar c
  unfold toLower trimSpace trimSpaceChars
  rw [String.toList_ofList, String.toList_ofList, hmap, ← List.map_reverse, hmap,
    List.map_reverse]

/-! ### Trimming parts of a text -/

/-- What trimming removes is white space before and behind the trimmed list. -/
theorem exists_trimSpaceChars (chars : List Char) : ∃ lead tail,
    (∀ c ∈ lead, isSpace c = true) ∧ (∀ c ∈ tail, isSpace c = true) ∧
      chars = lead ++ (trimSpaceChars chars ++ tail) := by
  refine ⟨chars.takeWhile isSpace, (chars.dropWhile isSpace).rtakeWhile isSpace,
    fun c hmem ↦ List.mem_takeWhile_imp hmem, fun c hmem ↦ List.mem_rtakeWhile_imp hmem, ?_⟩
  rw [trimSpaceChars_rdropWhile, List.rdropWhile_append_rtakeWhile, List.takeWhile_append_dropWhile]

/-- White space at the ends of a list makes no difference for trimming. -/
theorem trimSpaceChars_spaces {lead tail : List Char} (hlead : ∀ c ∈ lead, isSpace c = true)
    (htail : ∀ c ∈ tail, isSpace c = true) (chars : List Char) :
    trimSpaceChars (lead ++ (chars ++ tail)) = trimSpaceChars chars := by
  have hnone : tail.rdropWhile isSpace = [] := List.rdropWhile_eq_nil_iff.mpr htail
  rw [trimSpaceChars_rdropWhile, trimSpaceChars_rdropWhile, List.dropWhile_append_of_pos hlead,
    List.dropWhile_append]
  by_cases hblank : chars.dropWhile isSpace = []
  · rw [if_pos (List.isEmpty_iff.mpr hblank), hblank, List.dropWhile_eq_nil_iff.mpr htail]
  · rw [if_neg (mt List.isEmpty_iff.mp hblank), rdropWhile_append, if_pos hnone]

/-- Behind a word without white space, only the end of a list is trimmed. -/
theorem trimSpaceChars_word {word : List Char} (hne : word ≠ [])
    (hword : ∀ c ∈ word, isSpace c = false) (rest : List Char) :
    trimSpaceChars (word ++ rest) = word ++ rest.rdropWhile isSpace := by
  have hstart : (word ++ rest).dropWhile isSpace = word ++ rest := by
    cases word with
    | nil => exact absurd rfl hne
    | cons c word => exact List.dropWhile_cons_of_neg (by simp [hword c])
  have hend : word.rdropWhile isSpace = word := by
    rw [List.rdropWhile_eq_self_iff]
    intro hne
    simp [hword _ (List.getLast_mem hne)]
  rw [trimSpaceChars_rdropWhile, hstart, rdropWhile_append]
  split_ifs with hblank
  · rw [hend, hblank, List.append_nil]
  · rfl

/-! ### Trimming the end of a text -/

/-- A text ends in white space. -/
def EndsInSpace (value : String) : Prop :=
  ∃ c, value.toList.getLast? = some c ∧ isSpace c = true

/-- Behind a lead that neither starts nor ends in white space, only the end of a list is trimmed. -/
theorem trimSpaceChars_append {first last : Char} {middle : List Char}
    (hfirst : isSpace first = false) (hlast : isSpace last = false) (rest : List Char) :
    trimSpaceChars (first :: (middle ++ last :: rest)) =
      first :: (middle ++ last :: rest.rdropWhile isSpace) := by
  have hstart : ¬ isSpace first = true := by
    rw [hfirst]
    exact Bool.false_ne_true
  have hend : ¬ isSpace last = true := by
    rw [hlast]
    exact Bool.false_ne_true
  have hreverse : (first :: (middle ++ last :: rest)).reverse =
      rest.reverse ++ (last :: (middle.reverse ++ [first])) := by
    simp
  rw [trimSpaceChars, List.dropWhile_cons_of_neg hstart, hreverse, List.dropWhile_append]
  split
  next hblank =>
    rw [List.isEmpty_iff] at hblank
    rw [List.dropWhile_cons_of_neg hend, List.rdropWhile, hblank]
    simp
  next =>
    rw [List.rdropWhile]
    simp

/-- Trimming the end changes a list exactly when it ends in white space. -/
theorem rdropWhile_eq_self_iff (value : String) :
    value.toList.rdropWhile isSpace = value.toList ↔ ¬ EndsInSpace value := by
  rw [List.rdropWhile_eq_self_iff]
  constructor
  · rintro hkept ⟨c, hlast, hspace⟩
    have hne : value.toList ≠ [] := by
      rintro hnil
      rw [hnil] at hlast
      cases hlast
    rw [List.getLast?_eq_some_getLast hne] at hlast
    rw [← Option.some.inj hlast] at hspace
    exact hkept hne hspace
  · intro hkept hne hspace
    exact hkept ⟨_, List.getLast?_eq_some_getLast hne, hspace⟩

/-! ### Cutting -/

/-- A text that joins a name without an equals sign and a value is cut into the two. -/
theorem cut_binding {name : String} (hname : '=' ∉ name.toList) (value : String) :
    cut (name ++ "=" ++ value) '=' = some (name, value) := by
  have hkept : ∀ c ∈ name.toList, decide (c ≠ '=') = true := by
    intro c hmem
    rw [decide_eq_true_eq]
    rintro rfl
    exact hname hmem
  have hlist : (name ++ "=" ++ value).toList = name.toList ++ '=' :: value.toList := by
    simp
  rw [cut, hlist, List.dropWhile_append_of_pos hkept, List.takeWhile_append_of_pos hkept]
  simp

end CodexQueueBot.Go.Strings
