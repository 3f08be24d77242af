import CodexQueueBot.Lib.Toml

/-!
# `strconv.Quote`

`quote` writes a Go string literal, character by character as `appendEscapedRune` does. Which
characters are printable is a table of the Unicode standard. It is the parameter `Printable`, of
which only the part for ASCII is fixed.

A literal of Go is not a literal of TOML. The two agree on what stands for itself and on most
escapes, but the escapes `\a`, `\v` and `\x` exist in Go alone. So the text of a literal is read
back from it exactly when it has no character for which Go has one of these, which
`basicString_quote` says.
-/

set_option autoImplicit false
set_option relaxedAutoImplicit false

namespace CodexQueueBot.Go.Strconv

open Lib

/-- `strconv.IsPrint`. Of the ASCII characters, the blank, letters, digits and punctuation are
printable. -/
class Printable where
  isPrint : Char → Bool
  isPrint_ascii : ∀ c : Char, c.toNat < 128 → (isPrint c = true ↔ 32 ≤ c.toNat ∧ c.toNat ≤ 126)

/-- A table in which no character outside ASCII is printable. -/
@[reducible]
def Printable.ascii : Printable where
  isPrint c := decide (32 ≤ c.toNat ∧ c.toNat ≤ 126)
  isPrint_ascii _ _ := decide_eq_true_iff

/-- A digit of `lowerhex`. -/
def lowerHex (d : ℕ) : Char :=
  if d < 10 then Char.ofNat (48 + d) else Char.ofNat (87 + d)

section

variable [Printable]

/-- `appendEscapedRune`, for the quotation mark of `Quote`. -/
def escapedRune (r : Char) : List Char :=
  if r = '"' ∨ r = '\\' then ['\\', r]
  else if Printable.isPrint r then [r]
  else if r.toNat = 7 then ['\\', 'a']
  else if r.toNat = 8 then ['\\', 'b']
  else if r.toNat = 12 then ['\\', 'f']
  else if r.toNat = 10 then ['\\', 'n']
  else if r.toNat = 13 then ['\\', 'r']
  else if r.toNat = 9 then ['\\', 't']
  else if r.toNat = 11 then ['\\', 'v']
  else if r.toNat < 32 ∨ r.toNat = 127 then '\\' :: 'x' :: Toml.hexDigits lowerHex 2 r.toNat
  else if r.toNat < 0x10000 then '\\' :: 'u' :: Toml.hexDigits lowerHex 4 r.toNat
  else '\\' :: 'U' :: Toml.hexDigits lowerHex 8 r.toNat

/-- `strconv.Quote`. -/
def quote (value : String) : String :=
  String.ofList ('"' :: (value.toList.flatMap escapedRune ++ ['"']))

end

/-- The characters that Go writes with an escape of its own: `\a`, `\v`, and `\x` for the other
control characters of ASCII without a letter. -/
def goOnly (c : Char) : Bool :=
  c.toNat < 8 || c.toNat = 11 || (14 ≤ c.toNat && c.toNat < 32) || c.toNat = 127

/-- Texts without a character that Go writes with an escape of its own. -/
def Portable (value : String) : Prop :=
  ∀ c ∈ value.toList, goOnly c = false

instance (value : String) : Decidable (Portable value) :=
  List.decidableBAll (fun c ↦ goOnly c = false) value.toList

/-! ### Reading a Go literal as one of TOML -/

/-- The digits of Go are digits of TOML. -/
theorem hexValue_lowerHex : ∀ d < 16, Toml.hexValue (lowerHex d) = some d := by
  decide

/-- An escape with a letter that TOML does not have, whatever follows it. -/
theorem scan_unescaped {letter : Char} (hletter : Toml.step .escape letter = none)
    (rest : List Char) : Toml.scan .text ('\\' :: letter :: rest) = none := by
  have hopen : Toml.step .text '\\' = some (.escape, []) := rfl
  rw [Toml.scan, hopen, Option.bind_some, Toml.scan, hletter]
  rfl

/-- The escapes with a code point. -/
theorem scan_codePoint {letter : Char} {left : ℕ} (c : Char)
    (hletter : Toml.step .escape letter = some (.digits left 0, []))
    (hwidth : c.toNat < 16 ^ (left + 1)) :
    Toml.scan .text ('\\' :: letter :: Toml.hexDigits lowerHex (left + 1) c.toNat) =
      some (.text, [c]) := by
  have hopen : Toml.step .text '\\' = some (.escape, []) := rfl
  rw [Toml.scan, hopen, Option.bind_some, Toml.scan, hletter, Option.bind_some,
    Toml.scan_hexDigits hexValue_lowerHex, Nat.zero_mul, Nat.zero_add, Nat.mod_eq_of_lt hwidth,
    Toml.scalar_toNat]
  rfl

/-- Code points are below `0x110000`. -/
theorem toNat_lt (c : Char) : c.toNat < 0x110000 := by
  have hvalid : c.toNat.isValidChar := c.valid
  rcases hvalid with h | h <;> omega

variable [Printable]

/-- A printable character stands for itself in both languages. -/
theorem scan_printable {c : Char} (hmark : ¬ (c = '"' ∨ c = '\\'))
    (hprint : Printable.isPrint c = true) : Toml.scan .text [c] = some (.text, [c]) := by
  have hrange : 32 ≤ c.toNat ∧ c.toNat ≠ 127 := by
    by_cases hascii : c.toNat < 128
    · have := (Printable.isPrint_ascii c hascii).mp hprint
      omega
    · omega
  have hunescaped : Toml.unescaped c = true := by
    simp [Toml.unescaped, hrange, not_or.mp hmark]
  have hstep : Toml.step .text c = some (.text, [c]) := by
    rw [Toml.step, if_neg (not_or.mp hmark).1, if_neg (not_or.mp hmark).2, if_pos hunescaped]
  rw [Toml.scan, hstep]
  rfl

/-- What Go writes for a character is read as that character, except when the escape is one that
TOML does not have. -/
theorem scan_escapedRune (c : Char) :
    Toml.scan .text (escapedRune c) = if goOnly c = false then some (.text, [c]) else none := by
  have hnamed : ∀ n, c.toNat = n → c = Char.ofNat n := by
    rintro n rfl
    exact (Char.ofNat_toNat c).symm
  have hgo : goOnly c = true ↔
      c.toNat < 8 ∨ c.toNat = 11 ∨ (14 ≤ c.toNat ∧ c.toNat < 32) ∨ c.toNat = 127 := by
    simp [goOnly, or_assoc]
  rw [escapedRune]
  by_cases hmark : c = '"' ∨ c = '\\'
  · rw [if_pos hmark]
    rcases hmark with rfl | rfl <;> rfl
  rw [if_neg hmark]
  by_cases hprint : Printable.isPrint c = true
  · have hplain : goOnly c = false := by
      rw [Bool.eq_false_iff, ne_eq, hgo]
      intro hrange
      have := (Printable.isPrint_ascii c (by omega)).mp hprint
      omega
    rw [if_pos hprint, if_pos hplain, scan_printable hmark hprint]
  rw [if_neg hprint]
  generalize hread : (if goOnly c = false then some (Toml.Position.text, [c]) else none) = read
  split_ifs with hbell hback hfeed hline hreturn htab hvertical hcontrol hshort
  · rw [← hread, hnamed 7 hbell]
    rfl
  · rw [← hread, hnamed 8 hback]
    rfl
  · rw [← hread, hnamed 12 hfeed]
    rfl
  · rw [← hread, hnamed 10 hline]
    rfl
  · rw [← hread, hnamed 13 hreturn]
    rfl
  · rw [← hread, hnamed 9 htab]
    rfl
  · rw [← hread, hnamed 11 hvertical]
    rfl
  · have hgoOnly : goOnly c = true := hgo.mpr (by omega)
    rw [← hread, hgoOnly, if_neg (by decide), scan_unescaped rfl]
  · have hplain : goOnly c = false := Bool.eq_false_iff.mpr (mt hgo.mp (by omega))
    rw [← hread, if_pos hplain, scan_codePoint c rfl hshort]
  · have hplain : goOnly c = false := Bool.eq_false_iff.mpr (mt hgo.mp (by omega))
    have := toNat_lt c
    rw [← hread, if_pos hplain, scan_codePoint c rfl (by omega)]

/-- A Go literal is a basic string of TOML exactly when no character of its text needs an escape
that Go alone has, and it then denotes the same text. -/
theorem basicString_quote (value : String) :
    Toml.basicString (quote value) = if Portable value then some value else none := by
  have hall : (value.toList.all (goOnly · = false)) = true ↔ Portable value := by
    simp only [List.all_eq_true, decide_eq_true_eq]
    rfl
  rw [quote, Toml.basicString_quoted, Toml.scan_flatMap scan_escapedRune]
  by_cases hportable : Portable value
  · rw [if_pos (hall.mpr hportable), if_pos hportable]
    exact congrArg some String.ofList_toList
  · rw [if_neg (mt hall.mp hportable), if_neg hportable]

end CodexQueueBot.Go.Strconv
