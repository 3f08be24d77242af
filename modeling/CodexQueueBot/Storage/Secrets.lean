import CodexQueueBot.Go.Stdlib

/-!
# Encrypted values and password hashes

`Store.encrypt` seals a text with AES-GCM under the master key: the version byte, the nonce and the
sealed text stand one after the other. The associated data bind a value to its place. `GCM` is the
cipher of the standard library: what it has sealed it opens again under the same key, nonce and
associated data, and sealing adds sixteen bytes at least. The plaintexts are bytes in the source.
They are a parameter here, since the other modules do not tell a text from its bytes.

`hashPassword` and `verifyPassword` work on the fields of the stored hash, which the source writes
as one text; `Argon2` is the function of `golang.org/x/crypto/argon2`.
-/

set_option autoImplicit false
set_option relaxedAutoImplicit false

namespace CodexQueueBot.Storage

open Go

/-! ### Encryption -/

/-- The AES-GCM cipher, for a type of plaintexts. -/
class GCM (Plain : outParam Type) where
  gcmSeal : (key nonce : List UInt8) → (plain : Plain) → (aad : String) → List UInt8
  gcmOpen : (key nonce sealed : List UInt8) → (aad : String) → Option Plain
  gcmOpen_gcmSeal : ∀ (key nonce : List UInt8) (plain : Plain) (aad : String),
    gcmOpen key nonce (gcmSeal key nonce plain aad) aad = some plain
  overhead_le_length : ∀ (key nonce : List UInt8) (plain : Plain) (aad : String),
    16 ≤ (gcmSeal key nonce plain aad).length

/-- `gcm.NonceSize()`. -/
def nonceSize : Nat := 12

/-- `gcm.Overhead()`. -/
def overhead : Nat := 16

/-- `cipherVersion`. -/
def cipherVersion : UInt8 := 1

/-- The bytes that are read from a draw of the random source. -/
def bytesOfDraw (size draw : Nat) : List UInt8 :=
  (List.range size).map fun i ↦ UInt8.ofNat (draw / 256 ^ i)

/-- The nonce that is read from a draw of the random source. -/
def nonceOfDraw (draw : Nat) : List UInt8 :=
  bytesOfDraw nonceSize draw

/-- A nonce has the size of a nonce. -/
@[simp]
theorem length_nonceOfDraw (draw : Nat) : (nonceOfDraw draw).length = nonceSize := by
  simp [nonceOfDraw, bytesOfDraw]

section

variable {Plain : Type} [GCM Plain] (key : List UInt8)

/-- `encrypt`, with the draw that its nonce is read from. -/
def encrypt (draw : Nat) (plain : Plain) (aad : String) : List UInt8 :=
  cipherVersion :: nonceOfDraw draw ++ GCM.gcmSeal key (nonceOfDraw draw) plain aad

/-- `decrypt`; `none` stands for a returned error. -/
def decrypt (value : List UInt8) (aad : String) : Option Plain :=
  match value with
  | [] => none
  | version :: rest =>
    if value.length < 1 + nonceSize + overhead ∨ version ≠ cipherVersion then none
    else GCM.gcmOpen key (rest.take nonceSize) (rest.drop nonceSize) aad

/-- An encrypted value is decrypted under its associated data. -/
@[simp]
theorem decrypt_encrypt (draw : Nat) (plain : Plain) (aad : String) :
    decrypt key (encrypt key draw plain aad) aad = some plain := by
  have hlength : ¬ (encrypt key draw plain aad).length < 1 + nonceSize + overhead := by
    have := GCM.overhead_le_length key (nonceOfDraw draw) plain aad
    simp only [encrypt, List.cons_append, List.length_cons, List.length_append,
      length_nonceOfDraw, overhead]
    omega
  have htake : (nonceOfDraw draw ++ GCM.gcmSeal key (nonceOfDraw draw) plain aad).take nonceSize =
      nonceOfDraw draw :=
    List.take_left' (length_nonceOfDraw draw)
  have hdrop : (nonceOfDraw draw ++ GCM.gcmSeal key (nonceOfDraw draw) plain aad).drop nonceSize =
      GCM.gcmSeal key (nonceOfDraw draw) plain aad :=
    List.drop_left' (length_nonceOfDraw draw)
  unfold encrypt at hlength ⊢
  unfold decrypt
  simp only [List.cons_append, htake, hdrop] at hlength ⊢
  rw [if_neg (by simpa only [ne_eq, not_true_eq_false, or_false] using hlength),
    GCM.gcmOpen_gcmSeal]

/-- An encrypted value is not empty. -/
theorem encrypt_ne_nil (draw : Nat) (plain : Plain) (aad : String) :
    encrypt key draw plain aad ≠ [] := by
  simp [encrypt]

end

/-- The three bytes of a character. -/
def bytesOfChar (c : Char) : List UInt8 :=
  [UInt8.ofNat (c.toNat / 65536), UInt8.ofNat (c.toNat / 256), UInt8.ofNat c.toNat]

/-- The characters of bytes in threes. -/
def charsOfBytes : List UInt8 → List Char
  | high :: middle :: low :: rest =>
    Char.ofNat (high.toNat * 65536 + middle.toNat * 256 + low.toNat) :: charsOfBytes rest
  | _ => []

/-- Characters are read back from their bytes. -/
theorem charsOfBytes_flatMap (chars : List Char) :
    charsOfBytes (chars.flatMap bytesOfChar) = chars := by
  induction chars with
  | nil => rfl
  | cons c chars ih =>
    have hbound : c.toNat < 0x110000 := by
      rcases c.valid with hlow | hhigh
      · exact Nat.lt_trans hlow (by decide)
      · exact hhigh.2
    have hnumber : c.toNat / 65536 % 256 * 65536 + c.toNat / 256 % 256 * 256 + c.toNat % 256 =
        c.toNat := by
      omega
    simp only [List.flatMap_cons, bytesOfChar, List.cons_append, List.nil_append, charsOfBytes, ih,
      UInt8.toNat_ofNat', hnumber, Char.ofNat_toNat]

/-- A cipher that hides nothing: a tag of zeros, and the bytes of the text. -/
@[reducible]
def GCM.transparent : GCM String where
  gcmSeal _ _ plain _ := List.replicate 16 0 ++ plain.toList.flatMap bytesOfChar
  gcmOpen _ _ sealed _ := some (String.ofList (charsOfBytes (sealed.drop 16)))
  gcmOpen_gcmSeal := by
    intro key nonce plain aad
    simp [charsOfBytes_flatMap]
  overhead_le_length := by
    intro key nonce plain aad
    simp

/-- A digit of the URL alphabet of Base64. -/
def base64Digit (n : Nat) : Char :=
  if n < 26 then Char.ofNat (65 + n)
  else if n < 52 then Char.ofNat (71 + n)
  else if n < 62 then Char.ofNat (n - 4)
  else if n = 62 then '-'
  else '_'

/-- `base64.RawURLEncoding.EncodeToString`, on the bytes as numbers. -/
def rawURLEncoding : List Nat → List Char
  | a :: b :: c :: rest =>
    base64Digit (a / 4) :: base64Digit (a % 4 * 16 + b / 16) ::
      base64Digit (b % 16 * 4 + c / 64) :: base64Digit (c % 64) :: rawURLEncoding rest
  | [a, b] =>
    [base64Digit (a / 4), base64Digit (a % 4 * 16 + b / 16), base64Digit (b % 16 * 4)]
  | [a] => [base64Digit (a / 4), base64Digit (a % 4 * 16)]
  | [] => []

/-- The eight bytes of an integer, the highest first. -/
def bigEndian (value : Int) : List Nat :=
  (List.range 8).map fun i ↦ (value % 2 ^ 64).toNat / 256 ^ (7 - i) % 256

/-- `targetAPIKeyAAD`. -/
def targetAPIKeyAAD (id : Int) : String :=
  "target:" ++ String.ofList (rawURLEncoding (bigEndian id)) ++ ":api_key"

example : targetAPIKeyAAD 1 = "target:AAAAAAAAAAE:api_key" := by decide

/-! ### Passwords -/

/-- The key derivation of `argon2.IDKey`: password, salt, iterations, memory, parallelism and length
of the key. -/
class Argon2 where
  idKey : (password : String) → (salt : List UInt8) →
    (iterations memory parallelism keyLength : Nat) → List UInt8

/-- A key derivation that puts the salt and the password together. -/
@[reducible]
def Argon2.transparent : Argon2 where
  idKey password salt _ _ _ _ := salt ++ password.toList.flatMap bytesOfChar

/-- A password hash, as the fields that its text encodes. -/
structure PasswordHash where
  version : Nat
  memory : Nat
  iterations : Nat
  parallelism : Nat
  salt : List UInt8
  digest : List UInt8
  deriving DecidableEq, Repr

/-- `argon2.Version`. -/
def argon2Version : Nat := 19

section

variable [Argon2]

/-- `hashPassword`, with the salt that it draws. -/
def hashPassword (salt : List UInt8) (password : String) : PasswordHash where
  version := argon2Version
  memory := 32 * 1024
  iterations := 2
  parallelism := 1
  salt := salt
  digest := Argon2.idKey password salt 2 (32 * 1024) 1 32

/-- `verifyPassword`. -/
def verifyPassword (password : String) (encoded : PasswordHash) : Except Message Bool :=
  if encoded.version ≠ argon2Version then .error [.text "unsupported Argon2id version"]
  else .ok (Argon2.idKey password encoded.salt encoded.iterations encoded.memory
    encoded.parallelism encoded.digest.length = encoded.digest)

omit [Argon2] in
/-- The salt that user names are hashed with. -/
def usernameSalt : List UInt8 :=
  "codex-queue-username".toList.flatMap String.utf8EncodeChar

/-- The key that `VerifyAdmin` compares user names by. -/
def usernameKey (username : String) : List UInt8 :=
  Argon2.idKey username usernameSalt 1 (8 * 1024) 1 32

end

end CodexQueueBot.Storage
