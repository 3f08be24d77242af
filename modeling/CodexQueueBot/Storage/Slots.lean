import CodexQueueBot.Storage.Secrets
import Mathlib.Data.Nat.Digits.Defs

/-!
# Secrets and their slots

A secret stands in a slot of the database: the check of the master key, the token of OpenILink or
Telegram, or the API key of a target. `encrypt` binds it to the slot by its associated data.
`secrets_bound` says what that is worth with an ideal cipher, which opens exactly what was sealed
under the same key, nonce and associated data: a secret is read back from its own slot, is rejected
in every other one, and whatever `encrypt` has not written for a slot is rejected there.

For this, the associated data of two slots must be different. Those of two targets are, because the
eight bytes of an identifier can be read back from it, and the digits of Base64 from the bytes
(`targetAPIKeyAAD_injective`). And `decrypt` must take a value apart in the way `encrypt` has put it
together (`decrypt_eq_some_iff`), at every length. `decryptIndexed` is `decrypt` with every access
to the value checked, and no check of it ever fails.
-/

set_option autoImplicit false
set_option relaxedAutoImplicit false

namespace CodexQueueBot.Storage

/-! ### Slots -/

/-- `masterKeyCheckAAD`. -/
def masterKeyCheckAAD : String :=
  "meta:master_key_check"

/-- The places of the database for a secret. -/
inductive Slot
  | masterKeyCheck
  | openILinkToken
  | telegramToken
  | targetAPIKey (id : Int64)
  deriving DecidableEq

/-- The associated data of a slot. -/
def Slot.aad : Slot → String
  | .masterKeyCheck => masterKeyCheckAAD
  | .openILinkToken => "openilink:token"
  | .telegramToken => "telegram:token"
  | .targetAPIKey id => Storage.targetAPIKeyAAD id.toInt

/-! ### Base64 -/

/-- The number of a digit of Base64. -/
def base64Value (c : Char) : Nat :=
  if 'A' ≤ c ∧ c ≤ 'Z' then c.toNat - 65
  else if 'a' ≤ c ∧ c ≤ 'z' then c.toNat - 71
  else if '0' ≤ c ∧ c ≤ '9' then c.toNat + 4
  else if c = '-' then 62
  else 63

/-- The bytes that digits of Base64 stand for. -/
def rawURLDecoding : List Char → List Nat
  | c₁ :: c₂ :: c₃ :: c₄ :: rest =>
    (base64Value c₁ * 4 + base64Value c₂ / 16) ::
      (base64Value c₂ % 16 * 16 + base64Value c₃ / 4) ::
        (base64Value c₃ % 4 * 64 + base64Value c₄) :: rawURLDecoding rest
  | [c₁, c₂, c₃] =>
    [base64Value c₁ * 4 + base64Value c₂ / 16, base64Value c₂ % 16 * 16 + base64Value c₃ / 4]
  | [c₁, c₂] => [base64Value c₁ * 4 + base64Value c₂ / 16]
  | _ => []

/-- The number of a digit is read back. -/
theorem base64Value_base64Digit : ∀ n < 64, base64Value (base64Digit n) = n := by
  decide

/-- Bytes are read back from their digits. -/
theorem rawURLDecoding_rawURLEncoding {bytes : List Nat} (hbytes : ∀ byte ∈ bytes, byte < 256) :
    rawURLDecoding (rawURLEncoding bytes) = bytes := by
  induction bytes using rawURLEncoding.induct with
  | case1 a b c rest ih =>
    simp only [List.forall_mem_cons] at hbytes
    obtain ⟨ha, hb, hc, hrest⟩ := hbytes
    rw [rawURLEncoding, rawURLDecoding, base64Value_base64Digit _ (by omega),
      base64Value_base64Digit _ (by omega), base64Value_base64Digit _ (by omega),
      base64Value_base64Digit _ (by omega), ih hrest]
    congr 1
    · omega
    congr 1
    · omega
    congr 1
    omega
  | case2 a b =>
    simp only [List.forall_mem_cons] at hbytes
    obtain ⟨ha, hb, -⟩ := hbytes
    rw [rawURLEncoding, rawURLDecoding, base64Value_base64Digit _ (by omega),
      base64Value_base64Digit _ (by omega), base64Value_base64Digit _ (by omega)]
    congr 1
    · omega
    congr 1
    omega
  | case3 a =>
    have ha := hbytes a (List.mem_singleton_self a)
    rw [rawURLEncoding, rawURLDecoding, base64Value_base64Digit _ (by omega),
      base64Value_base64Digit _ (by omega)]
    congr 1
    omega
  | case4 => rfl

/-! ### Bytes of numbers -/

/-- Numbers with the same bytes are the same, as far as these bytes go. -/
theorem mod_eq_of_bytes {x y : Nat} (size : Nat)
    (h : ∀ i < size, x / 256 ^ i % 256 = y / 256 ^ i % 256) : x % 256 ^ size = y % 256 ^ size := by
  induction size with
  | zero => rw [Nat.pow_zero, Nat.mod_one, Nat.mod_one]
  | succ size ih =>
    rw [Nat.mod_pow_succ, Nat.mod_pow_succ, ih fun i hi ↦ h i (by omega), h size (by omega)]

/-- The eight bytes of an integer of 64 bits determine it. -/
theorem bigEndian_injective {a b : Int64} (h : bigEndian a.toInt = bigEndian b.toInt) : a = b := by
  have hbytes : ∀ i < 8, (a.toInt % 2 ^ 64).toNat / 256 ^ i % 256 =
      (b.toInt % 2 ^ 64).toNat / 256 ^ i % 256 := by
    intro i hi
    have hat := List.map_inj_left.mp h (7 - i) (List.mem_range.mpr (by omega))
    rwa [show 7 - (7 - i) = i by omega] at hat
  have hmod := mod_eq_of_bytes 8 hbytes
  have halower := a.le_toInt
  have haupper := a.toInt_lt
  have hblower := b.le_toInt
  have hbupper := b.toInt_lt
  exact Int64.toInt_inj.mp (by omega)

/-- The bytes of an integer are bytes. -/
theorem bigEndian_lt {value : Int} : ∀ byte ∈ bigEndian value, byte < 256 := by
  intro byte hmem
  obtain ⟨i, -, rfl⟩ := List.mem_map.mp hmem
  exact Nat.mod_lt _ (by decide)

/-- No two targets have the same associated data. -/
theorem targetAPIKeyAAD_injective {a b : Int64}
    (h : targetAPIKeyAAD a.toInt = targetAPIKeyAAD b.toInt) : a = b := by
  have hdigits : rawURLEncoding (bigEndian a.toInt) = rawURLEncoding (bigEndian b.toInt) := by
    have hchars := congrArg String.toList h
    simpa [targetAPIKeyAAD] using hchars
  refine bigEndian_injective ?_
  rw [← rawURLDecoding_rawURLEncoding bigEndian_lt, hdigits,
    rawURLDecoding_rawURLEncoding bigEndian_lt]

/-- No two slots have the same associated data. -/
theorem Slot.aad_injective {slot slot' : Slot} (h : slot.aad = slot'.aad) : slot = slot' := by
  -- The second character tells targets from the others.
  have htarget : ∀ {id other}, targetAPIKeyAAD id = other → other.toList[1]? = some 'a' := by
    rintro id - rfl
    simp [targetAPIKeyAAD]
  cases slot <;> cases slot'
  case targetAPIKey.targetAPIKey a b => rw [targetAPIKeyAAD_injective h]
  case targetAPIKey.masterKeyCheck id => exact absurd (htarget h) (by decide)
  case targetAPIKey.openILinkToken id => exact absurd (htarget h) (by decide)
  case targetAPIKey.telegramToken id => exact absurd (htarget h) (by decide)
  case masterKeyCheck.targetAPIKey id => exact absurd (htarget h.symm) (by decide)
  case openILinkToken.targetAPIKey id => exact absurd (htarget h.symm) (by decide)
  case telegramToken.targetAPIKey id => exact absurd (htarget h.symm) (by decide)
  all_goals first | rfl | exact absurd h (by decide)

/-! ### Nonces -/

/-- All bytes can be drawn. -/
theorem bytesOfDraw_ofDigits (bytes : List UInt8) :
    bytesOfDraw bytes.length (Nat.ofDigits 256 (bytes.map UInt8.toNat)) = bytes := by
  induction bytes with
  | nil => rfl
  | cons byte bytes ih =>
    have hdigits : Nat.ofDigits 256 ((byte :: bytes).map UInt8.toNat) =
        byte.toNat + 256 * Nat.ofDigits 256 (bytes.map UInt8.toNat) := by
      rw [List.map_cons, Nat.ofDigits_cons]
    have hbyte : byte.toNat < 256 := byte.toNat_lt
    have hfirst : UInt8.ofNat (Nat.ofDigits 256 ((byte :: bytes).map UInt8.toNat) / 256 ^ 0) =
        byte := by
      rw [hdigits, Nat.pow_zero, Nat.div_one, ← UInt8.toNat_inj, UInt8.toNat_ofNat']
      omega
    have hrest : ∀ i, Nat.ofDigits 256 ((byte :: bytes).map UInt8.toNat) / 256 ^ (i + 1) =
        Nat.ofDigits 256 (bytes.map UInt8.toNat) / 256 ^ i := by
      intro i
      rw [hdigits, Nat.pow_succ', ← Nat.div_div_eq_div_mul]
      congr 1
      omega
    rw [bytesOfDraw, List.length_cons, List.range_succ_eq_map, List.map_cons, List.map_map, hfirst]
    congr 1
    simp only [Function.comp_def, hrest]
    exact ih

/-- Every nonce can be drawn. -/
theorem exists_nonceOfDraw {nonce : List UInt8} (hsize : nonce.length = nonceSize) :
    ∃ draw, nonceOfDraw draw = nonce :=
  ⟨_, (congrArg (bytesOfDraw · _) hsize.symm).trans (bytesOfDraw_ofDigits nonce)⟩

/-! ### Ideal encryption -/

/-- An ideal cipher: what was sealed is opened under the same key, nonce and associated data only,
and nothing else is ever opened. -/
structure GCM.Ideal (Plain : Type) [GCM Plain] : Prop where
  gcmOpen_gcmSeal_of_ne : ∀ {key nonce key' nonce' : List UInt8} {aad aad' : String}
    {plain : Plain}, (key, nonce, aad) ≠ (key', nonce', aad') →
      gcmOpen key nonce (gcmSeal key' nonce' plain aad') aad = none
  sealed_of_gcmOpen : ∀ {key nonce sealed : List UInt8} {aad : String} {plain : Plain},
    gcmOpen key nonce sealed aad = some plain →
      ∃ (key' nonce' : List UInt8) (plain' : Plain) (aad' : String),
        sealed = gcmSeal key' nonce' plain' aad'

section

variable {Plain : Type} [GCM Plain]

/-- An ideal cipher opens what it has sealed in the same way, and nothing else. -/
theorem GCM.Ideal.gcmOpen_eq_some_iff (hideal : GCM.Ideal Plain) {key nonce sealed : List UInt8}
    {aad : String} {plain : Plain} :
    gcmOpen key nonce sealed aad = some plain ↔ sealed = gcmSeal key nonce plain aad := by
  constructor
  · intro hopen
    obtain ⟨key', nonce', plain', aad', rfl⟩ := hideal.sealed_of_gcmOpen hopen
    by_cases hsame : (key, nonce, aad) = (key', nonce', aad')
    · obtain ⟨rfl, rfl, rfl⟩ := by simpa using hsame
      rw [GCM.gcmOpen_gcmSeal] at hopen
      rw [Option.some.inj hopen]
    · rw [hideal.gcmOpen_gcmSeal_of_ne hsame] at hopen
      cases hopen
  · rintro rfl
    exact GCM.gcmOpen_gcmSeal key nonce plain aad

/-- `decrypt` accepts exactly what `encrypt` writes under the same associated data. -/
theorem decrypt_eq_some_iff (hideal : GCM.Ideal Plain) {key value : List UInt8} {aad : String}
    {plain : Plain} :
    decrypt key value aad = some plain ↔ ∃ draw, value = encrypt key draw plain aad := by
  constructor
  · intro hplain
    cases value with
    | nil => cases hplain
    | cons version rest =>
      rw [decrypt] at hplain
      split_ifs at hplain with hformat
      rw [not_or, not_not, List.length_cons, nonceSize, overhead] at hformat
      obtain ⟨hlength, rfl⟩ := hformat
      obtain ⟨draw, hdraw⟩ := exists_nonceOfDraw
        (List.length_take_of_le (by rw [nonceSize]; omega) :
          (rest.take nonceSize).length = nonceSize)
      refine ⟨draw, ?_⟩
      rw [encrypt, hdraw, ← hideal.gcmOpen_eq_some_iff.mp hplain, List.cons_append,
        List.take_append_drop]
  · rintro ⟨draw, rfl⟩
    exact decrypt_encrypt key draw plain aad

/-- `value[low:high]`; `none` stands for a run-time panic. -/
def slice (value : List UInt8) (low high : Nat) : Option (List UInt8) :=
  if low ≤ high ∧ high ≤ value.length then some ((value.take high).drop low) else none

/-- `decrypt`, with every access to the value checked; the outer `none` stands for a run-time
panic. -/
def decryptIndexed (key value : List UInt8) (aad : String) : Option (Option Plain) := do
  if value.length < 1 + nonceSize + overhead then return none
  let version ← value[0]?
  if version ≠ cipherVersion then return none
  let nonce ← slice value 1 (1 + nonceSize)
  let sealed ← slice value (1 + nonceSize) value.length
  return GCM.gcmOpen key nonce sealed aad

/-- `decrypt` never looks outside of the value. -/
theorem decryptIndexed_eq (key value : List UInt8) (aad : String) :
    decryptIndexed key value aad = some (decrypt key value aad : Option Plain) := by
  cases value with
  | nil => rfl
  | cons version rest =>
    by_cases hshort : rest.length + 1 < 1 + nonceSize + overhead
    · simp only [decryptIndexed, decrypt, List.length_cons, hshort, if_true, true_or]
      rfl
    by_cases hversion : version = cipherVersion
    · subst hversion
      have hnonce : slice (cipherVersion :: rest) 1 (1 + nonceSize) =
          some (rest.take nonceSize) := by
        rw [slice, List.length_cons, if_pos ⟨by omega, by omega⟩, Nat.add_comm 1,
          List.take_succ_cons, List.drop_succ_cons, List.drop_zero]
      have hsealed : slice (cipherVersion :: rest) (1 + nonceSize) (rest.length + 1) =
          some (rest.drop nonceSize) := by
        rw [slice, List.length_cons, if_pos ⟨by omega, le_rfl⟩, ← List.length_cons,
          List.take_length, Nat.add_comm 1, List.drop_succ_cons]
      simp [decryptIndexed, decrypt, hshort, hnonce, hsealed]
    · simp [decryptIndexed, decrypt, hversion]

/-- Nothing is encrypted to the same value under two associated data. -/
theorem aad_eq_of_encrypt_eq (hideal : GCM.Ideal Plain) {key : List UInt8} {draw draw' : Nat}
    {plain plain' : Plain} {aad aad' : String}
    (h : encrypt key draw plain aad = encrypt key draw' plain' aad') : aad = aad' := by
  obtain ⟨hnonce, hsealed⟩ := List.append_inj (List.cons.inj h).2
    (by rw [length_nonceOfDraw, length_nonceOfDraw])
  by_contra hne
  have hnone : GCM.gcmOpen key (nonceOfDraw draw)
      (GCM.gcmSeal key (nonceOfDraw draw) plain aad) aad' = none :=
    hideal.gcmOpen_gcmSeal_of_ne fun hsame ↦ hne (Prod.mk.inj (Prod.mk.inj hsame).2).2.symm
  rw [hsealed, hnonce, GCM.gcmOpen_gcmSeal] at hnone
  cases hnone

/-- With an ideal cipher, a secret is read back from the slot that it was encrypted for and is
rejected in every other one. Decryption accesses no byte outside of a value, and rejects whatever
was not encrypted for the slot. -/
theorem secrets_bound (hideal : GCM.Ideal Plain) (key : List UInt8) :
    (∀ (slot : Slot) (draw : Nat) (plain : Plain),
      decrypt key (encrypt key draw plain slot.aad) slot.aad = some plain) ∧
    (∀ slot slot' : Slot, slot ≠ slot' → ∀ (draw : Nat) (plain : Plain),
      decrypt key (encrypt key draw plain slot.aad) slot'.aad = (none : Option Plain)) ∧
    ∀ (slot : Slot) (value : List UInt8),
      decryptIndexed key value slot.aad = some (decrypt key value slot.aad : Option Plain) ∧
      ((∀ (draw : Nat) (plain : Plain), value ≠ encrypt key draw plain slot.aad) →
        decrypt key value slot.aad = (none : Option Plain)) := by
  refine ⟨fun slot draw plain ↦ decrypt_encrypt key draw plain slot.aad,
    fun slot slot' hne draw plain ↦ ?_, fun slot value ↦
      ⟨decryptIndexed_eq key value slot.aad, fun hother ↦ ?_⟩⟩
  · rw [Option.eq_none_iff_forall_ne_some]
    intro other hother
    obtain ⟨draw', hsame⟩ := (decrypt_eq_some_iff hideal).mp hother
    exact hne (Slot.aad_injective (aad_eq_of_encrypt_eq hideal hsame))
  · rw [Option.eq_none_iff_forall_ne_some]
    intro plain hplain
    obtain ⟨draw, hvalue⟩ := (decrypt_eq_some_iff hideal).mp hplain
    exact hother draw plain hvalue

end

/-! ### A labelled cipher -/

/-- Bytes in a form that shows where they end. -/
def framed (bytes : List UInt8) : List UInt8 :=
  bytes.flatMap (fun byte ↦ [1, byte]) ++ [0]

/-- Framed bytes are told from what follows them. -/
theorem framed_append_inj {bytes bytes' rest rest' : List UInt8}
    (h : framed bytes ++ rest = framed bytes' ++ rest') : bytes = bytes' ∧ rest = rest' := by
  induction bytes generalizing bytes' with
  | nil =>
    cases bytes' with
    | nil => exact ⟨rfl, (List.cons.inj h).2⟩
    | cons byte' bytes' => exact absurd (List.cons.inj h).1 (by decide)
  | cons byte bytes ih =>
    cases bytes' with
    | nil => exact absurd (List.cons.inj h).1 (by decide)
    | cons byte' bytes' =>
      obtain ⟨hbyte, htail⟩ := List.cons.inj (List.cons.inj h).2
      obtain ⟨hbytes, hrest⟩ := ih htail
      rw [hbyte, hbytes]
      exact ⟨rfl, hrest⟩

/-- Sixteen zeros and the framed key, nonce and associated data. -/
def label (key nonce : List UInt8) (aad : String) : List UInt8 :=
  List.replicate 16 0 ++ (framed key ++ (framed nonce ++ framed (aad.toList.flatMap bytesOfChar)))

/-- A label is told from what follows it. -/
theorem label_append_inj {key nonce key' nonce' rest rest' : List UInt8} {aad aad' : String}
    (h : label key nonce aad ++ rest = label key' nonce' aad' ++ rest') :
    (key, nonce, aad) = (key', nonce', aad') := by
  simp only [label, List.append_assoc] at h
  obtain ⟨hkey, h⟩ := framed_append_inj (List.append_cancel_left h)
  obtain ⟨hnonce, h⟩ := framed_append_inj h
  obtain ⟨haad, -⟩ := framed_append_inj h
  have hchars := congrArg charsOfBytes haad
  rw [charsOfBytes_flatMap, charsOfBytes_flatMap] at hchars
  rw [hkey, hnonce, String.toList_inj.mp hchars]

/-- A cipher that puts a label before the plaintext. -/
@[reducible]
def GCM.labelled : GCM (List UInt8) where
  gcmSeal key nonce plain aad := label key nonce aad ++ plain
  gcmOpen key nonce sealed aad :=
    if label key nonce aad <+: sealed then some (sealed.drop (label key nonce aad).length) else none
  gcmOpen_gcmSeal key nonce plain aad := by
    rw [if_pos (List.prefix_append _ _), List.drop_left]
  overhead_le_length key nonce plain aad := by
    simp only [label, List.length_append, List.length_replicate]
    omega

/-- The labelled cipher is ideal. -/
theorem GCM.ideal_labelled : @GCM.Ideal (List UInt8) GCM.labelled := by
  let _ := GCM.labelled
  refine ⟨fun hne ↦ if_neg ?_, fun {key nonce sealed aad plain} hopen ↦ ?_⟩
  · rintro ⟨rest, hrest⟩
    exact hne (label_append_inj hrest)
  · by_cases hlabel : label key nonce aad <+: sealed
    · obtain ⟨rest, rfl⟩ := hlabel
      exact ⟨key, nonce, rest, aad, rfl⟩
    · have hnone : GCM.gcmOpen key nonce sealed aad = none := if_neg hlabel
      rw [hnone] at hopen
      cases hopen

/-- Secrets under the labelled cipher. -/
theorem secrets_bound_labelled :
    letI := GCM.labelled
    decrypt [1] (encrypt [1] 7 [4, 2] Slot.openILinkToken.aad) Slot.openILinkToken.aad =
        some [4, 2] ∧
      decrypt [1] (encrypt [1] 7 [4, 2] Slot.openILinkToken.aad) (Slot.targetAPIKey (-1)).aad =
        none :=
  letI := GCM.labelled
  have hbound := secrets_bound GCM.ideal_labelled [1]
  ⟨hbound.1 .openILinkToken 7 [4, 2],
    hbound.2.1 .openILinkToken (.targetAPIKey (-1)) (by decide) 7 [4, 2]⟩

end CodexQueueBot.Storage
