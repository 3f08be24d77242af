import CodexQueueBot.Go.Strings

/-!
# The `net/url` functions the repository calls

`url.QueryEscape` is written out. `url.Parse` is a parameter: `NetURL` supplies the parser, and
nothing in this development depends on which texts it accepts.
-/

set_option autoImplicit false
set_option relaxedAutoImplicit false

namespace CodexQueueBot.Go

/-- The fields of `url.URL` that the repository reads; `opaqueData` is the field `Opaque`. -/
structure URL where
  scheme : String
  host : String
  hasUser : Bool
  rawQuery : String
  fragment : String
  opaqueData : String
  deriving DecidableEq, Repr

/-- The parser of the `net/url` package: `none` stands for a returned error. -/
class NetURL where
  parse : String → Option URL

/-- A parser that accepts the empty text only, whose URL is empty. -/
@[reducible]
def NetURL.emptyOnly : NetURL where
  parse text := if text = "" then some ⟨"", "", false, "", "", ""⟩ else none

/-- A hexadecimal digit of `url.QueryEscape`. -/
def upperHexDigit (n : Nat) : Char :=
  if n < 10 then Char.ofNat (48 + n) else Char.ofNat (55 + n)

/-- Whether `url.QueryEscape` keeps an ASCII byte: letters, digits and `-_.~`. -/
def queryUnreserved (byte : Nat) : Bool :=
  (97 ≤ byte && byte ≤ 122) || (65 ≤ byte && byte ≤ 90) || (48 ≤ byte && byte ≤ 57) ||
    byte == 45 || byte == 95 || byte == 46 || byte == 126

/-- One byte of `url.QueryEscape`: a blank becomes `+`, an unreserved byte stays, every other byte
becomes a percent triple. -/
def queryEscapeByte (byte : Nat) : List Char :=
  if byte = 32 then ['+']
  else if queryUnreserved byte then [Char.ofNat byte]
  else ['%', upperHexDigit (byte / 16), upperHexDigit (byte % 16)]

/-- `url.QueryEscape`. -/
def queryEscape (value : String) : String :=
  String.ofList (value.toList.flatMap fun c ↦
    (String.utf8EncodeChar c).flatMap fun byte ↦ queryEscapeByte byte.toNat)

example : queryEscape "a b/é" = "a+b%2F%C3%A9" := by decide

end CodexQueueBot.Go
