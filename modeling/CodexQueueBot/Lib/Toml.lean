import Mathlib.Tactic.Ring

/-!
# Basic strings of TOML 1.0

A basic string stands between quotation marks. Between them a character stands for itself, a
backslash and a letter for one of seven characters, and a backslash with `u` or `U` and four or
eight hexadecimal digits for the Unicode scalar value that the digits name. Everything else is an
error, and so is text behind the closing quotation mark.

`step` reads one character, `scan` a text from a given position on, and `basicString` a whole
literal. `scan_flatMap` is the rule for encoders that write a text character by character: the
literal can be read when every character of it can, and it then denotes that text.
-/

set_option autoImplicit false
set_option relaxedAutoImplicit false

namespace CodexQueueBot.Lib.Toml

/-! ### The reader -/

/-- Where a reader stands: before the literal, between two characters of its text, behind a
backslash, before the last `left + 1` digits of a code point whose digits so far name `value`, or
behind the closing quotation mark. -/
inductive Position where
  | opening
  | text
  | escape
  | digits (left value : ℕ)
  | closed
  deriving DecidableEq, Repr

/-- The characters that stand for themselves: tabulators, and what is neither a control character
nor a quotation mark nor a backslash. -/
def unescaped (c : Char) : Bool :=
  c = '\t' || (32 ≤ c.toNat && c ≠ '"' && c ≠ '\\' && c.toNat ≠ 127)

/-- What a letter behind a backslash stands for. -/
def escaped : Char → Option Char
  | 'b' => some (Char.ofNat 8)
  | 't' => some '\t'
  | 'n' => some '\n'
  | 'f' => some (Char.ofNat 12)
  | 'r' => some '\r'
  | '"' => some '"'
  | '\\' => some '\\'
  | _ => none

/-- The value of a hexadecimal digit. -/
def hexValue (c : Char) : Option ℕ :=
  if '0' ≤ c ∧ c ≤ '9' then some (c.toNat - '0'.toNat)
  else if 'a' ≤ c ∧ c ≤ 'f' then some (c.toNat - 'a'.toNat + 10)
  else if 'A' ≤ c ∧ c ≤ 'F' then some (c.toNat - 'A'.toNat + 10)
  else none

/-- The end of a code point, which must be a Unicode scalar value. -/
def scalar (value : ℕ) : Option (Position × List Char) :=
  if value.isValidChar then some (.text, [Char.ofNat value]) else none

/-- One character of a literal: where the reader stands then, and what it has read of the text. -/
def step : Position → Char → Option (Position × List Char)
  | .opening, c => if c = '"' then some (.text, []) else none
  | .text, c =>
    if c = '"' then some (.closed, [])
    else if c = '\\' then some (.escape, [])
    else if unescaped c then some (.text, [c])
    else none
  | .escape, c =>
    if c = 'u' then some (.digits 3 0, [])
    else if c = 'U' then some (.digits 7 0, [])
    else (escaped c).map fun d ↦ (.text, [d])
  | .digits left value, c =>
    (hexValue c).bind fun d ↦
      match left with
      | 0 => scalar (16 * value + d)
      | left + 1 => some (.digits left (16 * value + d), [])
  | .closed, _ => none

/-- Several characters of a literal in a row. -/
def scan : Position → List Char → Option (Position × List Char)
  | position, [] => some (position, [])
  | position, c :: rest =>
    (step position c).bind fun first ↦
      (scan first.1 rest).map fun last ↦ (last.1, first.2 ++ last.2)

/-- The text that a literal denotes, if it is a basic string. -/
def basicString (literal : String) : Option String :=
  match scan .opening literal.toList with
  | some (.closed, text) => some (String.ofList text)
  | _ => none

example : basicString "\"a\\u00e9\\\"\"" = some "aé\"" := by decide

example : basicString "\"\\a\"" = none := by decide

/-! ### Texts in parts -/

/-- A text is read part by part. -/
theorem scan_append (position : Position) (first rest : List Char) :
    scan position (first ++ rest) = (scan position first).bind fun read ↦
      (scan read.1 rest).map fun last ↦ (last.1, read.2 ++ last.2) := by
  induction first generalizing position with
  | nil => simp [scan]
  | cons c first ih =>
    rw [List.cons_append, scan, scan]
    cases step position c with
    | none => rfl
    | some head =>
      rw [Option.bind_some, Option.bind_some, ih, Option.bind_map]
      cases scan head.1 first with
      | none => rfl
      | some middle =>
        simp only [Option.bind_some, Option.map_map, Function.comp_def, List.append_assoc]

/-- An encoder that writes every character so that it is read as that character, or so that it
cannot be read, writes a readable text when it does so for each character, and never another
text. -/
theorem scan_flatMap {encode : Char → List Char} {readable : Char → Prop} [DecidablePred readable]
    (hencode : ∀ c, scan .text (encode c) = if readable c then some (.text, [c]) else none)
    (text : List Char) :
    scan .text (text.flatMap encode) =
      if text.all (readable ·) then some (.text, text) else none := by
  induction text with
  | nil => simp [scan]
  | cons c text ih =>
    rw [List.flatMap_cons, scan_append, hencode, List.all_cons]
    by_cases hc : readable c
    · rw [if_pos hc, Option.bind_some, ih, decide_eq_true hc, Bool.true_and]
      cases text.all (readable ·) with
      | true => rfl
      | false => rfl
    · rw [if_neg hc, decide_eq_false hc, Bool.false_and]
      rfl

/-- What stands between two quotation marks and is read as a text is a literal of that text. -/
theorem basicString_quoted (body : List Char) :
    basicString (String.ofList ('"' :: (body ++ ['"']))) =
      match scan .text body with
      | some (.text, text) => some (String.ofList text)
      | _ => none := by
  have hlast : ∀ position : Position, scan position ['"'] =
      (step position '"').map fun last ↦ (last.1, last.2) := by
    intro position
    rw [scan]
    cases step position '"' with
    | none => rfl
    | some last => rw [Option.bind_some, scan, Option.map_some, List.append_nil, Option.map_some]
  have hopening : scan .opening ('"' :: (body ++ ['"'])) = scan .text (body ++ ['"']) := by
    rw [scan, step, if_pos rfl, Option.bind_some]
    exact Option.map_id_apply
  rw [basicString, String.toList_ofList, hopening, scan_append]
  rcases scan .text body with - | ⟨position, text⟩
  · rfl
  · rw [Option.bind_some, hlast]
    cases position with
    | opening => rfl
    | text => simp [step]
    | escape => rfl
    | digits left value => cases left <;> rfl
    | closed => rfl

/-! ### Code points -/

/-- The digits of a code point, of a given number, from the most significant one on. -/
def hexDigits (digit : ℕ → Char) : ℕ → ℕ → List Char
  | 0, _ => []
  | width + 1, value => digit (value / 16 ^ width % 16) :: hexDigits digit width value

/-- Digits are read as the number that they write, behind the digits before them. -/
theorem scan_hexDigits {digit : ℕ → Char} (hdigit : ∀ d < 16, hexValue (digit d) = some d)
    (left before value : ℕ) :
    scan (.digits left before) (hexDigits digit (left + 1) value) =
      scalar (before * 16 ^ (left + 1) + value % 16 ^ (left + 1)) := by
  have hread : ∀ width, hexValue (digit (value / 16 ^ width % 16)) =
      some (value / 16 ^ width % 16) := fun width ↦ hdigit _ (Nat.mod_lt _ (by decide))
  induction left generalizing before with
  | zero =>
    rw [hexDigits, hexDigits, scan, step, hread, Option.bind_some, Nat.pow_zero, Nat.div_one,
      Nat.zero_add, Nat.pow_one, Nat.mul_comm before]
    cases scalar (16 * before + value % 16) with
    | none => rfl
    | some read => rw [Option.bind_some, scan, Option.map_some, List.append_nil]
  | succ left ih =>
    have hvalue : (16 * before + value / 16 ^ (left + 1) % 16) * 16 ^ (left + 1) +
        value % 16 ^ (left + 1) = before * 16 ^ (left + 2) + value % 16 ^ (left + 2) := by
      rw [Nat.mod_pow_succ (k := left + 1), Nat.pow_succ 16 (left + 1)]
      ring
    rw [hexDigits, scan, step, hread, Option.bind_some, Option.bind_some, ih, hvalue]
    exact Option.map_id_apply

/-- A character whose code point is written out is read as that character. -/
theorem scalar_toNat (c : Char) : scalar c.toNat = some (.text, [c]) := by
  have hvalid : c.toNat.isValidChar := c.valid
  rw [scalar, if_pos hvalid, Char.ofNat_toNat]

end CodexQueueBot.Lib.Toml
