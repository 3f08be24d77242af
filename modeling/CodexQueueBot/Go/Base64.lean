import CodexQueueBot.Go.Strings

/-!
# The `encoding/base64` functions the repository calls

`base64.StdEncoding` and `base64.RawStdEncoding`, which differ in the padding. Decoding skips line
breaks wherever they stand, and does not look at the bits of the last digit that no byte needs.
-/

set_option autoImplicit false
set_option relaxedAutoImplicit false

namespace CodexQueueBot.Go.Base64

/-- A digit of the standard alphabet. -/
def stdDigit (n : Nat) : Char :=
  if n < 26 then Char.ofNat (65 + n)
  else if n < 52 then Char.ofNat (71 + n)
  else if n < 62 then Char.ofNat (n - 4)
  else if n = 62 then '+'
  else '/'

/-- The number of a digit of the standard alphabet. -/
def stdValue (c : Char) : Option Nat :=
  if 'A' ≤ c ∧ c ≤ 'Z' then some (c.toNat - 65)
  else if 'a' ≤ c ∧ c ≤ 'z' then some (c.toNat - 71)
  else if '0' ≤ c ∧ c ≤ '9' then some (c.toNat + 4)
  else if c = '+' then some 62
  else if c = '/' then some 63
  else none

/-- The digits of bytes, on the bytes as numbers, with or without padding. -/
def encode (padded : Bool) : List Nat → List Char
  | a :: b :: c :: rest =>
    stdDigit (a / 4) :: stdDigit (a % 4 * 16 + b / 16) :: stdDigit (b % 16 * 4 + c / 64) ::
      stdDigit (c % 64) :: encode padded rest
  | [a, b] => stdDigit (a / 4) :: stdDigit (a % 4 * 16 + b / 16) :: stdDigit (b % 16 * 4) ::
      (if padded then ['='] else [])
  | [a] => stdDigit (a / 4) :: stdDigit (a % 4 * 16) :: (if padded then ['=', '='] else [])
  | [] => []

/-- The first byte of a quantum of digits. -/
def firstByte (x y : Nat) : Nat :=
  x * 4 + y / 16

/-- The second byte of a quantum of digits. -/
def secondByte (y z : Nat) : Nat :=
  y % 16 * 16 + z / 4

/-- The third byte of a quantum of digits. -/
def thirdByte (z w : Nat) : Nat :=
  z % 4 * 64 + w

/-- The bytes of digits, in quanta of four. With padding the last quantum is filled up, and without
it the last one may be short. -/
def decode (padded : Bool) : List Char → Option (List Nat)
  | a :: b :: c :: d :: rest =>
    if padded && d == '=' then
      if rest ≠ [] then none
      else if c = '=' then do
        return [firstByte (← stdValue a) (← stdValue b)]
      else do
        let y ← stdValue b
        return [firstByte (← stdValue a) y, secondByte y (← stdValue c)]
    else do
      let y ← stdValue b
      let z ← stdValue c
      let bytes ← decode padded rest
      return firstByte (← stdValue a) y :: secondByte y z :: thirdByte z (← stdValue d) :: bytes
  | [a, b, c] =>
    if padded then none
    else do
      let y ← stdValue b
      return [firstByte (← stdValue a) y, secondByte y (← stdValue c)]
  | [a, b] =>
    if padded then none else do return [firstByte (← stdValue a) (← stdValue b)]
  | [_] => none
  | [] => some []

/-- The characters that decoding skips. -/
def lineBreak (c : Char) : Bool :=
  c == '\n' || c == '\r'

/-- `DecodeString`. -/
def decodeString (padded : Bool) (text : String) : Option (List UInt8) :=
  (decode padded (text.toList.filter (!lineBreak ·))).map (·.map UInt8.ofNat)

/-! ### The round trip -/

/-- The number of a digit is read back. -/
theorem stdValue_stdDigit : ∀ n < 64, stdValue (stdDigit n) = some n := by
  decide

/-- No digit is the padding. -/
theorem stdDigit_ne_padding : ∀ n < 64, (stdDigit n == '=') = false := by
  decide

/-- Bytes are read back from their digits. -/
theorem decode_encode (padded : Bool) {bytes : List Nat} (hbytes : ∀ byte ∈ bytes, byte < 256) :
    decode padded (encode padded bytes) = some bytes := by
  induction bytes using encode.induct with
  | case1 a b c rest ih =>
    simp only [List.forall_mem_cons] at hbytes
    obtain ⟨ha, hb, hc, hrest⟩ := hbytes
    rw [encode, decode, stdDigit_ne_padding _ (by omega), Bool.and_false, if_neg (by simp),
      stdValue_stdDigit _ (by omega), stdValue_stdDigit _ (by omega),
      stdValue_stdDigit _ (by omega), stdValue_stdDigit _ (by omega), ih hrest]
    have hfirst : firstByte (a / 4) (a % 4 * 16 + b / 16) = a := by unfold firstByte; omega
    have hsecond : secondByte (a % 4 * 16 + b / 16) (b % 16 * 4 + c / 64) = b := by
      unfold secondByte
      omega
    have hthird : thirdByte (b % 16 * 4 + c / 64) (c % 64) = c := by unfold thirdByte; omega
    simp [hfirst, hsecond, hthird]
  | case2 a b =>
    simp only [List.forall_mem_cons] at hbytes
    obtain ⟨ha, hb, -⟩ := hbytes
    have hfirst : firstByte (a / 4) (a % 4 * 16 + b / 16) = a := by unfold firstByte; omega
    have hsecond : secondByte (a % 4 * 16 + b / 16) (b % 16 * 4) = b := by
      unfold secondByte
      omega
    have hdigit := stdDigit_ne_padding (b % 16 * 4) (by omega)
    rw [beq_eq_false_iff_ne] at hdigit
    cases padded <;>
      simp [encode, decode, stdValue_stdDigit _ (show a / 4 < 64 by omega),
        stdValue_stdDigit _ (show a % 4 * 16 + b / 16 < 64 by omega),
        stdValue_stdDigit _ (show b % 16 * 4 < 64 by omega), hfirst, hsecond, hdigit]
  | case3 a =>
    have ha := hbytes a (List.mem_singleton_self a)
    have hfirst : firstByte (a / 4) (a % 4 * 16) = a := by unfold firstByte; omega
    cases padded <;>
      simp [encode, decode, stdValue_stdDigit _ (show a / 4 < 64 by omega),
        stdValue_stdDigit _ (show a % 4 * 16 < 64 by omega), hfirst]
  | case4 => rfl

/-- With padding, digits come in quanta of four. -/
theorem length_of_decode_padded : ∀ {chars : List Char} {bytes : List Nat},
    decode true chars = some bytes → 4 ∣ chars.length
  | a :: b :: c :: d :: rest, bytes, h => by
    by_cases hrest : rest = []
    · subst hrest
      exact ⟨1, rfl⟩
    by_cases hpadding : (true && d == '=') = true
    · rw [decode, if_pos hpadding, if_pos hrest] at h
      cases h
    · rw [decode, if_neg hpadding] at h
      simp only [Option.bind_eq_bind, Option.bind_eq_some_iff] at h
      obtain ⟨y, -, z, -, tail, htail, -⟩ := h
      obtain ⟨k, hk⟩ := length_of_decode_padded htail
      exact ⟨k + 1, by simp only [List.length_cons]; omega⟩
  | [_, _, _], _, h | [_, _], _, h | [_], _, h => by simp [decode] at h
  | [], _, _ => ⟨0, rfl⟩

/-- The number of digits of bytes. -/
theorem length_encode_unpadded (bytes : List Nat) :
    (encode false bytes).length = (bytes.length * 4 + 2) / 3 := by
  induction bytes using encode.induct with
  | case1 a b c rest ih =>
    simp only [encode, List.length_cons, ih]
    omega
  | case2 | case3 => simp [encode]
  | case4 => rfl

end CodexQueueBot.Go.Base64
