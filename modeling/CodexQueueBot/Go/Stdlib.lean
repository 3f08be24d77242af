import CodexQueueBot.Go.Strings
import Mathlib.Algebra.Group.Int.Defs
import Mathlib.Algebra.Group.Nat.Defs

/-!
# Texts of errors, integers and addresses

What the configuration uses of `fmt`, `strconv` and `net`. An error text is kept as the pieces that
its format puts together, so that nothing depends on how `%q` quotes. Integers are 64 bits wide, and
`int64` is the wrapping of a result that does not fit. The parsers of the `net` package are
parameters: nothing in this development depends on which texts they accept.
-/

set_option autoImplicit false
set_option relaxedAutoImplicit false

namespace CodexQueueBot.Go

/-- A piece of an error text: a text as it stands, a text in the quotes of `%q`, or a number. -/
inductive Fragment
  | text (value : String)
  | quoted (value : String)
  | number (value : Int)
  deriving DecidableEq, Repr

/-- An error text, as the pieces that its format puts together. -/
abbrev Message := List Fragment

/-- A 64-bit integer: the number, wrapped around. -/
def int64 (value : Int) : Int :=
  Int.bmod value (2 ^ 64)

/-- A number is kept exactly when it fits into 64 bits. -/
theorem int64_eq_self_iff {value : Int} :
    int64 value = value ↔ -2 ^ 63 ≤ value ∧ value < 2 ^ 63 := by
  unfold int64
  constructor
  · intro h
    have hlower := Int.le_bmod (x := value) (m := 2 ^ 64) (by decide)
    have hupper := Int.bmod_lt (x := value) (m := 2 ^ 64) (by decide)
    rw [h] at hlower hupper
    omega
  · rintro ⟨hlower, hupper⟩
    exact Int.bmod_eq_of_le (by omega) (by omega)

/-- The number that decimal digits denote; there must be one at least. -/
def digitsValue (digits : List Char) : Option Int :=
  if digits ≠ [] ∧ digits.all Char.isDigit then
    some (digits.foldl (fun value c ↦ 10 * value + (c.toNat - '0'.toNat)) 0)
  else none

/-- `strconv.Atoi`: an optional sign and decimal digits, within 64 bits. -/
def atoi (value : String) : Option Int := do
  let number ← match value.toList with
    | '-' :: digits => (digitsValue digits).map (-·)
    | '+' :: digits => digitsValue digits
    | digits => digitsValue digits
  if int64 number = number then some number else none

/-- The parsers of the `net` package: the host and the port of an address, and whether a text is an
IP address or a network in CIDR form. -/
class Net where
  splitHostPort : String → Option (String × String)
  parseIP : String → Bool
  parseCIDR : String → Bool

/-- Parsers that find a port after a leading colon, and neither addresses nor networks. -/
@[reducible]
def Net.portOnly : Net where
  splitHostPort text :=
    match text.toList with
    | ':' :: port => if port.contains ':' then none else some ("", String.ofList port)
    | _ => none
  parseIP _ := false
  parseCIDR _ := false

example : atoi "-42" = some (-42) := by decide

end CodexQueueBot.Go
