import CodexQueueBot.Config.Settings
import CodexQueueBot.Go.StringFacts

/-!
# Normalised targets

`NormalizeTarget` is applied to a target more than once on its way: by the handler to a copy that is
validated, by the store, and again when the target is saved from what was shown. It trims white
space, folds the case of the wire API and fills it in, and removes slashes from the end of the base
URL. White space behind which there are only slashes gets to the end of the base URL that way, and
the next normalisation removes it: `normalizeTarget_idempotent_iff` says that this is the only case
in which it changes anything.
-/

set_option autoImplicit false
set_option relaxedAutoImplicit false

namespace CodexQueueBot.Config

open Go

/-- A text with something other than white space, then white space, and then slashes, up to white
space at its end. -/
def slashesBehindSpace (value : String) : Bool :=
  match (value.toList.rdropWhile Strings.isSpace).reverse.dropWhile (· = '/') with
  | [] => false
  | c :: lead => Strings.isSpace c && lead.any (! Strings.isSpace ·)

/-! ### The base URL -/

/-- The base URL of a normalised target. -/
def normalizeBaseURL (value : String) : String :=
  Strings.trimRight (Strings.trimSpace value) '/'

theorem toList_normalizeBaseURL (value : String) : (normalizeBaseURL value).toList =
    (Strings.trimSpaceChars value.toList).rdropWhile (· = '/') := by
  simp [normalizeBaseURL, Strings.trimRight, Strings.trimSpace, List.rdropWhile]

/-- A base URL is normalised to itself when it does not end in white space again. -/
theorem normalizeBaseURL_eq_self_iff (value : String) :
    normalizeBaseURL (normalizeBaseURL value) = normalizeBaseURL value ↔
      ¬ Strings.EndsInSpace (normalizeBaseURL value) := by
  have hlist := toList_normalizeBaseURL value
  have hlead : (normalizeBaseURL value).toList.dropWhile Strings.isSpace =
      (normalizeBaseURL value).toList := by
    rw [hlist, Strings.trimSpaceChars_rdropWhile]
    exact Strings.dropWhile_of_prefix
      ((List.rdropWhile_prefix _ _).trans (List.rdropWhile_prefix _ _))
  have hagain : (normalizeBaseURL (normalizeBaseURL value)).toList =
      ((normalizeBaseURL value).toList.rdropWhile Strings.isSpace).rdropWhile (· = '/') := by
    rw [toList_normalizeBaseURL, Strings.trimSpaceChars_rdropWhile, hlead]
  rw [← Strings.rdropWhile_eq_self_iff, ← String.toList_inj, hagain]
  generalize hnormal : (normalizeBaseURL value).toList = normal at hlist
  constructor
  · intro hsame
    have hshort : (normal.rdropWhile Strings.isSpace).rdropWhile (· = '/') <+:
        normal.rdropWhile Strings.isSpace := List.rdropWhile_prefix _ _
    rw [hsame] at hshort
    exact (List.rdropWhile_prefix _ _).eq_of_length_le hshort.length_le
  · intro hsame
    rw [hsame, hlist, List.rdropWhile_idempotent]

/-- A normalised base URL ends in white space when the text had slashes behind white space. -/
theorem endsInSpace_normalizeBaseURL_iff (value : String) :
    Strings.EndsInSpace (normalizeBaseURL value) ↔ slashesBehindSpace value = true := by
  rw [Strings.EndsInSpace, toList_normalizeBaseURL, Strings.trimSpaceChars_rdropWhile,
    slashesBehindSpace]
  -- The text is white space, followed by a core that starts with something else.
  generalize hspaces : value.toList.takeWhile Strings.isSpace = spaces
  generalize hcore : value.toList.dropWhile Strings.isSpace = core
  have hvalue : value.toList = spaces ++ core := by
    rw [← hspaces, ← hcore, List.takeWhile_append_dropWhile]
  have hblank : ∀ c ∈ spaces, Strings.isSpace c = true := by
    intro c hmem
    rw [← hspaces] at hmem
    exact List.mem_takeWhile_imp hmem
  rw [hvalue, Strings.rdropWhile_append]
  cases core with
  | nil =>
    have hnone : spaces.rdropWhile Strings.isSpace = [] := List.rdropWhile_eq_nil_iff.mpr hblank
    simp [hnone]
  | cons d rest =>
    have hd : Strings.isSpace d = false := by
      have hne : value.toList.dropWhile Strings.isSpace ≠ [] := by simp [hcore]
      have hhead := List.head_dropWhile_not Strings.isSpace hne
      simpa [hcore] using hhead
    have hkept : (d :: rest).rdropWhile Strings.isSpace ≠ [] := by
      rw [Ne, List.rdropWhile_eq_nil_iff]
      intro hall
      rw [hall d List.mem_cons_self] at hd
      cases hd
    obtain ⟨tail, htail⟩ : ∃ tail, (d :: rest).rdropWhile Strings.isSpace = d :: tail := by
      have hstart := List.rdropWhile_prefix Strings.isSpace (d :: rest)
      cases htrimmed : (d :: rest).rdropWhile Strings.isSpace with
      | nil => exact absurd htrimmed hkept
      | cons first tail =>
        rw [htrimmed] at hstart
        exact ⟨tail, by rw [(List.cons_prefix_cons.mp hstart).1]⟩
    rw [if_neg hkept, htail]
    have hreverse : (spaces ++ d :: tail).reverse.dropWhile (· = '/') =
        ((spaces ++ d :: tail).rdropWhile (· = '/')).reverse := by
      rw [List.rdropWhile, List.reverse_reverse]
    rw [hreverse, Strings.rdropWhile_append]
    generalize hnormal : (d :: tail).rdropWhile (· = '/') = normal
    have hstart : normal <+: d :: tail := hnormal ▸ List.rdropWhile_prefix _ _
    rcases List.eq_nil_or_concat' normal with rfl | ⟨init, c, rfl⟩
    · -- The core is made of slashes.
      rw [if_pos rfl]
      refine iff_of_false (fun ⟨c, hlast, _⟩ ↦ by cases hlast) ?_
      rw [Bool.not_eq_true]
      generalize hkept : (spaces.rdropWhile (· = '/')).reverse = kept
      cases kept with
      | nil => rfl
      | cons c lead =>
        have hsub : ∀ e ∈ lead, Strings.isSpace e = true := by
          intro e hmem
          have hwhole : e ∈ (spaces.rdropWhile (· = '/')).reverse := by
            rw [hkept]
            exact List.mem_cons_of_mem _ hmem
          exact hblank e ((List.rdropWhile_prefix _ _).subset (List.mem_reverse.mp hwhole))
        have hnone : lead.any (! Strings.isSpace ·) = false := by
          rw [List.any_eq_false]
          intro e hmem
          simp [hsub e hmem]
        simp [hnone]
    · rw [if_neg (by simp), List.getLast?_concat, List.reverse_append, List.reverse_append,
        List.reverse_singleton, List.singleton_append, List.cons_append]
      simp only [Option.some.injEq, exists_eq_left', Bool.and_eq_true, iff_self_and]
      intro hspace
      -- The core starts with something that is not white space, so that is not its last.
      have hmem : d ∈ init := by
        cases init with
        | nil =>
          rw [List.nil_append, List.cons_prefix_cons] at hstart
          rw [hstart.1, hd] at hspace
          cases hspace
        | cons first init =>
          rw [List.cons_append, List.cons_prefix_cons] at hstart
          rw [hstart.1]
          exact List.mem_cons_self
      rw [List.any_eq_true]
      exact ⟨d, List.mem_append_left _ (List.mem_reverse.mpr hmem), by simp [hd]⟩

/-! ### Targets -/

/-- The wire API of a normalised target. -/
def normalizeWireAPI (value : String) : String :=
  let wireAPI := Strings.toLower (Strings.trimSpace value)
  if wireAPI = "" then "responses" else wireAPI

/-- A wire API is normalised to itself the second time. -/
theorem normalizeWireAPI_normalizeWireAPI (value : String) :
    normalizeWireAPI (normalizeWireAPI value) = normalizeWireAPI value := by
  unfold normalizeWireAPI
  dsimp only
  by_cases hnone : Strings.toLower (Strings.trimSpace value) = ""
  · rw [if_pos hnone]
    decide +kernel
  · rw [if_neg hnone, Strings.trimSpace_toLower, Strings.trimSpace_trimSpace,
      Strings.toLower_toLower, if_neg hnone]

/-- A normalised target, field by field. -/
theorem normalizeTarget_eq (target : Target) :
    normalizeTarget target = { target with
      name := Strings.trimSpace target.name
      apiBaseURL := normalizeBaseURL target.apiBaseURL
      apiKey := Strings.trimSpace target.apiKey
      apiKeyEnv := Strings.trimSpace target.apiKeyEnv
      model := Strings.trimSpace target.model
      wireAPI := normalizeWireAPI target.wireAPI
      configOverrides := target.configOverrides.map Strings.trimSpace } :=
  rfl

/-- Normalisation is idempotent on exactly the targets whose base URL has no slashes behind white
space. -/
theorem normalizeTarget_idempotent_iff (target : Target) :
    normalizeTarget (normalizeTarget target) = normalizeTarget target ↔
      slashesBehindSpace target.apiBaseURL = false := by
  have hurl : normalizeBaseURL (normalizeBaseURL target.apiBaseURL) =
      normalizeBaseURL target.apiBaseURL ↔ slashesBehindSpace target.apiBaseURL = false := by
    rw [normalizeBaseURL_eq_self_iff, endsInSpace_normalizeBaseURL_iff, Bool.not_eq_true]
  have hoverrides : (target.configOverrides.map Strings.trimSpace).map Strings.trimSpace =
      target.configOverrides.map Strings.trimSpace := by
    rw [List.map_map]
    exact List.map_congr_left fun value _ ↦ Strings.trimSpace_trimSpace value
  rw [← hurl, normalizeTarget_eq target, normalizeTarget_eq]
  simp only [Strings.trimSpace_trimSpace, normalizeWireAPI_normalizeWireAPI, hoverrides,
    Target.mk.injEq, true_and, and_true]

/-- A target whose base URL ends in a slash behind a blank. -/
def slashedTarget : Target :=
  { Target.zero with
    name := "a"
    apiBaseURL := "https://api.example.com/v1 /"
    apiKey := "key"
    model := "m"
    wireAPI := "responses" }

/-- The first normalisation leaves the blank, and the second one removes it. -/
theorem normalizeTarget_slashedTarget :
    (normalizeTarget slashedTarget).apiBaseURL = "https://api.example.com/v1 " ∧
      (normalizeTarget (normalizeTarget slashedTarget)).apiBaseURL = "https://api.example.com/v1" ∧
      ¬ ∀ target, normalizeTarget (normalizeTarget target) = normalizeTarget target := by
  have hfirst : (normalizeTarget slashedTarget).apiBaseURL = "https://api.example.com/v1 " := by
    decide +kernel
  have hsecond : (normalizeTarget (normalizeTarget slashedTarget)).apiBaseURL =
      "https://api.example.com/v1" := by
    decide +kernel
  refine ⟨hfirst, hsecond, fun hclaim ↦ ?_⟩
  rw [hclaim, hfirst] at hsecond
  exact absurd hsecond (by decide)

end CodexQueueBot.Config
