import CodexQueueBot.Go.Replacement
import CodexQueueBot.Jobs.Sanitize

/-!
# No secret survives redaction

The secrets of a target are its API key, the query-escaped key and the name of the key's variable.
`sanitizeTargetError` runs one `strings.ReplaceAll` after the other, each on the text the previous
one produced, and a later pass may bring together what an earlier one had separated.

The main result is `sanitizeTargetError_complete`: no secret that avoids the brackets of the markers
and the ellipsis of `truncate`, and that is not part of the word `REDACTED`, occurs in the sanitized
text. A pass for one secret creates no occurrence of another, because such an occurrence would have
to cross a bracket. The replacement of URLs comes first, so that whatever it creates is still found.
-/

set_option autoImplicit false
set_option relaxedAutoImplicit false

namespace CodexQueueBot.Jobs

open Go.Strings

/-! ### The secrets of a target -/

/-- The texts the redaction loop runs over. -/
def secrets (target : Target) : List String :=
  [target.apiKey, Go.queryEscape target.apiKey, target.apiKeyEnv]

/-- A text occurs in another one. -/
def Occurs (word value : String) : Prop :=
  word.toList <:+: value.toList

instance (word value : String) : Decidable (Occurs word value) :=
  inferInstanceAs (Decidable (word.toList <:+: value.toList))

/-- The secrets that the redaction promises to remove: those that neither touch the brackets of a
marker and the ellipsis nor are part of the marker's word. -/
structure Redactable (secret : String) : Prop where
  nonempty : secret ≠ ""
  opening : '[' ∉ secret.toList
  closing : ']' ∉ secret.toList
  ellipsis : '…' ∉ secret.toList
  fresh : ¬ Occurs secret "REDACTED"

/-- The marker is its word in brackets. -/
theorem marker_toList :
    "[REDACTED]".toList = '[' :: ("REDACTED".toList ++ [']']) := by
  decide

/-! ### The redaction loop -/

section Loop

variable {secret value : String}

/-- A redactable secret has characters. -/
theorem Redactable.toList_ne_nil (hsecret : Redactable secret) : secret.toList ≠ [] := by
  rw [Ne, String.toList_eq_nil_iff]
  exact hsecret.nonempty

/-- A pass for any secret creates no occurrence of a redactable one. -/
theorem not_occurs_redactSecret (hsecret : Redactable secret) (h : ¬ Occurs secret value)
    (other : String) : ¬ Occurs secret (redactSecret value other) := by
  rw [redactSecret]
  by_cases hother : other ≠ ""
  · rw [if_pos hother, Occurs, replaceAll, String.toList_ofList, marker_toList]
    intro hoccurs
    rcases infix_of_infix_replaceAllChars hsecret.toList_ne_nil hsecret.opening hsecret.closing
      hoccurs with hbody | hvalue
    · exact hsecret.fresh hbody
    · exact h hvalue
  · rw [if_neg hother]
    exact h

/-- The pass for a redactable secret removes it. -/
theorem not_occurs_redactSecret_self (hsecret : Redactable secret) (value : String) :
    ¬ Occurs secret (redactSecret value secret) := by
  rw [redactSecret, if_pos hsecret.nonempty, Occurs, replaceAll, String.toList_ofList,
    marker_toList]
  intro hoccurs
  exact hsecret.fresh (infix_body_of_infix_replaceAllChars hsecret.toList_ne_nil hsecret.opening
    hsecret.closing (Nat.le_refl _) hoccurs)

/-- Passes for any secrets create no occurrence of a redactable one. -/
theorem not_occurs_redactSecrets (hsecret : Redactable secret) (others : List String)
    (h : ¬ Occurs secret value) : ¬ Occurs secret (others.foldl redactSecret value) := by
  induction others generalizing value with
  | nil => exact h
  | cons other others ih => exact ih (not_occurs_redactSecret hsecret h other)

/-- After the loop, no redactable secret it ran over occurs. -/
theorem not_occurs_of_mem_secrets (hsecret : Redactable secret) {others : List String}
    (hmem : secret ∈ others) (value : String) :
    ¬ Occurs secret (others.foldl redactSecret value) := by
  induction others generalizing value with
  | nil => exact absurd hmem List.not_mem_nil
  | cons other others ih =>
      rw [List.foldl_cons]
      rcases List.mem_cons.mp hmem with rfl | hmem
      · exact not_occurs_redactSecrets hsecret others (not_occurs_redactSecret_self hsecret value)
      · exact ih hmem _

end Loop

/-! ### Trimming and cutting -/

/-- A cut text has at most one rune more than the maximum. -/
theorem runeCount_truncate_le (value : String) (maximum : Nat) :
    runeCount (truncate value maximum) ≤ maximum + 1 := by
  rw [truncate, runeCount]
  by_cases hshort : (trimSpace value).toList.length ≤ maximum
  · rw [if_pos hshort]
    exact Nat.le_succ_of_le hshort
  · rw [if_neg hshort, String.toList_append, String.toList_ofList, List.length_append]
    exact Nat.add_le_add (List.length_take_le _ _) (by decide)

/-- Trimming and cutting create no occurrence of a text without an ellipsis. -/
theorem occurs_of_occurs_truncate {word value : String} {maximum : Nat} (hword : word ≠ "")
    (hellipsis : '…' ∉ word.toList) (h : Occurs word (truncate value maximum)) :
    Occurs word value := by
  have htrim : (trimSpace value).toList <:+: value.toList := by
    rw [trimSpace, String.toList_ofList]
    exact trimSpaceChars_infix _
  rw [truncate] at h
  by_cases hshort : (trimSpace value).toList.length ≤ maximum
  · rw [if_pos hshort] at h
    exact h.trans htrim
  · rw [if_neg hshort, Occurs, String.toList_append, String.toList_ofList] at h
    have hsplit : word.toList <:+: (trimSpace value).toList.take maximum ++ '…' :: [] := h
    rcases infix_of_infix_separator hellipsis hsplit with hkept | hnil
    · exact (hkept.trans (List.take_prefix _ _).isInfix).trans htrim
    · exact absurd (String.toList_eq_nil_iff.mp (List.infix_nil.mp hnil)) hword

/-! ### The sanitized text -/

/-- No redactable secret of the target occurs in a sanitized text, which has at most 601 runes. -/
theorem sanitizeTargetError_complete (target : Target) (text : String) (secret : String)
    (hmem : secret ∈ secrets target) (hsecret : Redactable secret) :
    ¬ Occurs secret (sanitizeTargetError target text) ∧
      runeCount (sanitizeTargetError target text) ≤ 601 := by
  constructor
  · intro hoccurs
    exact not_occurs_of_mem_secrets hsecret hmem _
      (occurs_of_occurs_truncate hsecret.nonempty hsecret.ellipsis hoccurs)
  · exact runeCount_truncate_le _ 600

/-- A key whose escaped form is another text, in an error that quotes both. -/
theorem sanitizeTargetError_key :
    ¬ Occurs "k y" (sanitizeTargetError { Target.zero with apiKey := "k y", apiKeyEnv := "k" }
        "GET ws://h?key=k+y: bad key kk y y") ∧
      runeCount (sanitizeTargetError { Target.zero with apiKey := "k y", apiKeyEnv := "k" }
        "GET ws://h?key=k+y: bad key kk y y") ≤ 601 :=
  sanitizeTargetError_complete { Target.zero with apiKey := "k y", apiKeyEnv := "k" }
    "GET ws://h?key=k+y: bad key kk y y" "k y" List.mem_cons_self
    ⟨by decide, by decide, by decide, by decide, by decide +kernel⟩

example : sanitizeTargetError { Target.zero with apiKey := "k y", apiKeyEnv := "k" }
    "GET ws://h?key=k+y: bad key kk y y" =
    "GET [URL] bad [REDACTED]ey [REDACTED][REDACTED] y" := by decide +kernel

end CodexQueueBot.Jobs
