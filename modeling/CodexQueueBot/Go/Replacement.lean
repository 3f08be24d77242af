import CodexQueueBot.Go.Strings

/-!
# What a replacement pass can bring into a text

A pass of `strings.ReplaceAll` removes pieces of a text and puts a marker in their place, which
brings characters together that were apart before. When the marker starts and ends with characters
that a given text does not have, no occurrence of that text can cross a marker: after the pass it
occurs within the body of the marker or it occurred before. When the given text is the pattern
itself, only the first is left.

Occurrence is `List.IsInfix` on the code points. The facts on trimming at the end say that a trimmed
or cut text has no occurrences of its own.
-/

set_option autoImplicit false
set_option relaxedAutoImplicit false

namespace CodexQueueBot.Go.Strings

/-! ### Occurrences next to a separator -/

section Separator

variable {α : Type*} {word before after : List α} {separator : α}

/-- An occurrence that avoids a separator lies on one side of it. -/
theorem infix_of_infix_separator (hsep : separator ∉ word)
    (h : word <:+: before ++ separator :: after) : word <:+: before ∨ word <:+: after := by
  rw [List.infix_append_iff] at h
  rcases h with hleft | hright | ⟨first, second, rfl, hfirst, hsecond⟩
  · exact Or.inl hleft
  · rw [List.infix_cons_iff, List.prefix_cons_iff] at hright
    rcases hright with (rfl | ⟨rest, rfl, -⟩) | hafter
    · exact Or.inl (List.nil_infix)
    · exact absurd List.mem_cons_self hsep
    · exact Or.inr hafter
  · rw [List.prefix_cons_iff] at hsecond
    rcases hsecond with rfl | ⟨rest, rfl, -⟩
    · rw [List.append_nil]
      exact Or.inl hfirst.isInfix
    · exact absurd (List.mem_append_right first List.mem_cons_self) hsep

/-- A text that avoids a separator does not start a text that the separator starts, unless it is
empty. -/
theorem eq_nil_of_prefix_separator (hsep : separator ∉ word) (h : word <+: separator :: after) :
    word = [] := by
  rw [List.prefix_cons_iff] at h
  rcases h with hnil | ⟨rest, rfl, -⟩
  · exact hnil
  · exact absurd List.mem_cons_self hsep

end Separator

/-! ### One pass -/

section Pass

variable {word pattern body chars : List Char} {opening closing : Char} {fuel : Nat}

/-- What a pass leaves behind a replaced occurrence is part of what it was given. -/
theorem suffix_of_dropPattern {remaining : List Char}
    (h : dropPattern pattern chars = some remaining) : remaining <:+ chars := by
  rw [dropPattern] at h
  split at h
  · rw [← Option.some.inj h]
    exact List.drop_suffix _ _
  · exact absurd h (by simp)

/-- A pass consumes at least one character with an occurrence. -/
theorem length_lt_of_dropPattern {remaining : List Char} (hpattern : pattern ≠ [])
    (h : dropPattern pattern chars = some remaining) : remaining.length < chars.length := by
  rw [dropPattern] at h
  split at h
  next hstart =>
    rw [← Option.some.inj h, List.length_drop]
    have hlength := (List.isPrefixOf_iff_prefix.mp hstart).length_le
    have hpos := List.length_pos_iff.mpr hpattern
    omega
  next => exact absurd h (by simp)

/-- Where no occurrence starts, the pattern is not the beginning of the text. -/
theorem not_prefix_of_dropPattern (h : dropPattern pattern chars = none) : ¬ pattern <+: chars := by
  rw [dropPattern] at h
  split at h
  next => exact absurd h (by simp)
  next hstart =>
    intro hprefix
    exact hstart (List.isPrefixOf_iff_prefix.mpr hprefix)

/-- A text that avoids the start of the marker and begins the result of a pass began the text
before. -/
theorem prefix_of_prefix_replaceAllChars (hopening : opening ∉ word)
    (h : word <+: replaceAllChars pattern (opening :: (body ++ [closing])) fuel chars) :
    word <+: chars := by
  induction fuel generalizing word chars with
  | zero => exact h
  | succ fuel ih =>
      cases chars with
      | nil => exact h
      | cons c rest =>
          rw [replaceAllChars] at h
          split at h
          next remaining hdrop =>
            rw [List.cons_append] at h
            rw [eq_nil_of_prefix_separator hopening h]
            exact List.nil_prefix
          next hdrop =>
            rw [List.prefix_cons_iff] at h
            rcases h with rfl | ⟨tail, rfl, htail⟩
            · exact List.nil_prefix
            · rw [List.prefix_cons_inj]
              exact ih (fun hmem ↦ hopening (List.mem_cons_of_mem c hmem)) htail

/-- Behind a marker, an occurrence that avoids its two ends lies in its body or in the rest. -/
theorem infix_of_infix_marker {after : List Char} (hword : word ≠ []) (hopening : opening ∉ word)
    (hclosing : closing ∉ word) (h : word <:+: (opening :: (body ++ [closing])) ++ after) :
    word <:+: body ∨ word <:+: after := by
  have hsplit : word <:+: [] ++ opening :: (body ++ closing :: after) := by
    simpa using h
  rcases infix_of_infix_separator hopening hsplit with hnil | hrest
  · exact absurd (List.infix_nil.mp hnil) hword
  · exact infix_of_infix_separator hclosing hrest

/-- A pass creates no occurrence of a text that avoids the two ends of the marker, but for those in
the marker's body. -/
theorem infix_of_infix_replaceAllChars (hword : word ≠ []) (hopening : opening ∉ word)
    (hclosing : closing ∉ word)
    (h : word <:+: replaceAllChars pattern (opening :: (body ++ [closing])) fuel chars) :
    word <:+: body ∨ word <:+: chars := by
  induction fuel generalizing chars with
  | zero => exact Or.inr h
  | succ fuel ih =>
      cases chars with
      | nil => exact Or.inr h
      | cons c rest =>
          have hwhole := h
          rw [replaceAllChars] at h
          split at h
          next remaining hdrop =>
            rcases infix_of_infix_marker hword hopening hclosing h with hbody | hafter
            · exact Or.inl hbody
            · exact (ih hafter).imp_right fun hremaining ↦
                hremaining.trans (suffix_of_dropPattern hdrop).isInfix
          next hdrop =>
            rw [List.infix_cons_iff] at h
            rcases h with hstart | hrest
            · have hresult : word <+: replaceAllChars pattern (opening :: (body ++ [closing]))
                  (fuel + 1) (c :: rest) := by
                rw [replaceAllChars, hdrop]
                exact hstart
              exact Or.inr (prefix_of_prefix_replaceAllChars hopening hresult).isInfix
            · exact (ih hrest).imp_right fun hinfix ↦ List.infix_cons hinfix

/-- After a pass for a text that avoids the two ends of the marker, that text occurs in markers
only. -/
theorem infix_body_of_infix_replaceAllChars (hword : word ≠ []) (hopening : opening ∉ word)
    (hclosing : closing ∉ word) (hfuel : chars.length ≤ fuel)
    (h : word <:+: replaceAllChars word (opening :: (body ++ [closing])) fuel chars) :
    word <:+: body := by
  induction fuel generalizing chars with
  | zero =>
      rw [List.length_eq_zero_iff.mp (Nat.le_zero.mp hfuel)] at h
      exact absurd (List.infix_nil.mp h) hword
  | succ fuel ih =>
      cases chars with
      | nil => exact absurd (List.infix_nil.mp h) hword
      | cons c rest =>
          rw [List.length_cons] at hfuel
          rw [replaceAllChars] at h
          split at h
          next remaining hdrop =>
            rcases infix_of_infix_marker hword hopening hclosing h with hbody | hafter
            · exact hbody
            · have hlength := length_lt_of_dropPattern hword hdrop
              rw [List.length_cons] at hlength
              exact ih (by omega) hafter
          next hdrop =>
            rw [List.infix_cons_iff] at h
            rcases h with hstart | hrest
            · have hresult : word <+: replaceAllChars word (opening :: (body ++ [closing]))
                  (fuel + 1) (c :: rest) := by
                rw [replaceAllChars, hdrop]
                exact hstart
              exact absurd (prefix_of_prefix_replaceAllChars hopening hresult)
                (not_prefix_of_dropPattern hdrop)
            · exact ih (by omega) hrest

end Pass

/-! ### Trimming -/

/-- A trimmed text is a piece of the text. -/
theorem trimSpaceChars_infix (chars : List Char) : trimSpaceChars chars <:+: chars := by
  have htrimmed : trimSpaceChars chars <+: chars.dropWhile isSpace := by
    rw [trimSpaceChars, ← List.reverse_suffix, List.reverse_reverse]
    exact List.dropWhile_suffix _
  exact htrimmed.isInfix.trans (List.dropWhile_suffix _).isInfix

end CodexQueueBot.Go.Strings
