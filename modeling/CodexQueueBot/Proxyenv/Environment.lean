import CodexQueueBot.Proxyenv.Resolver
import Mathlib.Data.List.Induction

/-!
# The proxy variables of a child process

`Normalize` replaces the proxy variables of an environment by one consistent set, and
`NormalizeEnvironment` does the same with the values of a resolver. What a list of variables says
about a name is the list of the values it binds the name to, `bindings`; the proxies that
`FromEnvironment` reads depend on nothing else (`fromEnvironment_congr`).

Reading the variables that a configuration wrote trims its texts and fills in its fallbacks once
more (`Config.reread`). `onePolicy_iff` says when that changes nothing: a shorthand such as
`http:host:port` is written out after its query has been cut off, and what is left may end in white
space, which the next reading trims.
-/

set_option autoImplicit false
set_option relaxedAutoImplicit false

namespace CodexQueueBot.Proxyenv

open Go Lib

attribute [ext] Config

/-! ### Writing the variables -/

/-- `proxyVariableNames`. -/
def proxyVariableNames : List String :=
  ["HTTP_PROXY", "HTTPS_PROXY", "ALL_PROXY", "NO_PROXY",
   "http_proxy", "https_proxy", "all_proxy", "no_proxy"]

/-- `isProxyVariable`. -/
def isProxyVariable (name : String) : Bool :=
  proxyVariableNames.any (name == ·)

/-- The loop of `Normalize` over the environment: the items that bind no proxy variable. -/
def withoutProxies (environ : List String) : List String :=
  environ.filter fun item ↦
    match Strings.cut item '=' with
    | some (name, _) => !isProxyVariable name
    | none => true

/-- `appendProxyPair`. -/
def appendProxyPair (environ : List String) (upper lower value : String) : List String :=
  if value = "" then environ else environ ++ [upper ++ "=" ++ value, lower ++ "=" ++ value]

/-- The four calls of `appendProxyPair`. -/
def Config.appendTo (cfg : Config) (environ : List String) : List String :=
  let result := appendProxyPair environ "HTTP_PROXY" "http_proxy" cfg.httpProxy
  let result := appendProxyPair result "HTTPS_PROXY" "https_proxy" cfg.httpsProxy
  let result := appendProxyPair result "ALL_PROXY" "all_proxy" cfg.allProxy
  appendProxyPair result "NO_PROXY" "no_proxy" cfg.noProxy

/-- `Normalize`. -/
def normalize [NetURL] (environ : List String) : List String :=
  (fromEnvironment environ).appendTo (withoutProxies environ)

/-- `NormalizeEnvironment`. A nil resolver is `none`. -/
def normalizeEnvironment [NetURL] (r : Option Resolver) (environ : List String) : List String :=
  match r with
  | none => normalize environ
  | some r => r.cfg.appendTo (withoutProxies environ)

/-! ### What an environment says about a name -/

/-- The value that an item binds a name to, if it does. -/
def boundTo (name item : String) : Option String :=
  match Strings.cut item '=' with
  | some (bound, value) => if bound = name then some value else none
  | none => none

/-- The values that an environment binds a name to, in their order. -/
def bindings (name : String) (environ : List String) : List String :=
  environ.filterMap (boundTo name)

/-- An item binds a name when it is cut into that name and a value. -/
theorem boundTo_eq_some_iff {name item value : String} :
    boundTo name item = some value ↔ Strings.cut item '=' = some (name, value) := by
  rw [boundTo]
  split
  next bound other hcut =>
    by_cases hname : bound = name
    · rw [if_pos hname, hcut, hname]
      simp
    · rw [if_neg hname, hcut]
      simp [hname]
  next hcut =>
    rw [hcut]
    simp

/-- The bindings of two environments in a row. -/
theorem bindings_append (name : String) (first second : List String) :
    bindings name (first ++ second) = bindings name first ++ bindings name second :=
  List.filterMap_append

/-- The binding that a single item adds. -/
theorem bindings_singleton (name item : String) :
    bindings name [item] = (boundTo name item).toList := by
  rw [bindings, List.filterMap_cons]
  cases boundTo name item <;> rfl

/-- Items that do not bind a name may be left out. -/
theorem bindings_filter {name : String} {keep : String → Bool}
    (hkeep : ∀ item value, Strings.cut item '=' = some (name, value) → keep item = true)
    (environ : List String) : bindings name (environ.filter keep) = bindings name environ := by
  rw [bindings, bindings, List.filterMap_filter]
  refine List.filterMap_congr fun item _ ↦ ?_
  by_cases hkept : keep item = true
  · rw [if_pos hkept]
  · rw [if_neg hkept]
    cases hbound : boundTo name item with
    | none => rfl
    | some value => exact absurd (hkeep item value (boundTo_eq_some_iff.mp hbound)) hkept

/-- Without the items that bind it, a name has no bindings. -/
theorem bindings_filter_eq_nil {name : String} {keep : String → Bool}
    (hdrop : ∀ item value, Strings.cut item '=' = some (name, value) → keep item = false)
    (environ : List String) : bindings name (environ.filter keep) = [] := by
  rw [bindings, List.filterMap_eq_nil_iff]
  intro item hmem
  cases hbound : boundTo name item with
  | none => rfl
  | some value =>
      have hdropped := hdrop item value (boundTo_eq_some_iff.mp hbound)
      rw [(List.mem_filter.mp hmem).2] at hdropped
      cases hdropped

/-- The table of an environment has the last binding of each name, trimmed. -/
theorem lookup_environmentMap (environ : List String) (name : String) :
    (environmentMap environ).lookup name =
      (bindings name environ).getLast?.map Strings.trimSpace := by
  induction environ using List.reverseRecOn with
  | nil => rfl
  | append_singleton environ item ih =>
      rw [environmentMap, List.foldl_append, ← environmentMap, bindings_append,
        bindings_singleton, List.foldl_cons, List.foldl_nil]
      cases hcut : Strings.cut item '=' with
      | none =>
          have hbound : boundTo name item = none := by
            rw [boundTo, hcut]
          rw [hbound]
          simpa using ih
      | some pair =>
          have hbound : boundTo name item = if pair.1 = name then some pair.2 else none := by
            rw [boundTo, hcut]
          rw [hbound]
          change ((environmentMap environ).insert pair.1 (Strings.trimSpace pair.2)).lookup name = _
          rw [Table.lookup_insert_apply]
          by_cases hname : pair.1 = name
          · rw [if_pos hname.symm, if_pos hname]
            simp
          · rw [if_neg (fun h ↦ hname h.symm), if_neg hname, ih]
            simp

/-! ### Reading the variables -/

section Reading

variable [NetURL]

/-- The text that a pair of variables gives, the upper-case one first. -/
def readPair (environ : List String) (upper lower : String) : String :=
  firstNonEmpty [((environmentMap environ).lookup upper).getD "",
    ((environmentMap environ).lookup lower).getD ""]

/-- The proxies that `FromEnvironment` reads depend only on the bindings of the proxy variables. -/
theorem fromEnvironment_congr {first second : List String}
    (h : ∀ name ∈ proxyVariableNames, bindings name first = bindings name second) :
    fromEnvironment first = fromEnvironment second := by
  have hlookup : ∀ name ∈ proxyVariableNames,
      (environmentMap first).lookup name = (environmentMap second).lookup name := by
    intro name hmem
    rw [lookup_environmentMap, lookup_environmentMap, h name hmem]
  simp only [proxyVariableNames, List.forall_mem_cons] at hlookup
  obtain ⟨hhttp, hhttps, hall, hno, hhttp', hhttps', hall', hno', -⟩ := hlookup
  rw [fromEnvironment, fromEnvironment, readEnvironment, readEnvironment]
  simp only [hhttp, hhttps, hall, hno, hhttp', hhttps', hall', hno']

end Reading

/-! ### What is written -/

/-- A value that is not empty, as a list. -/
def single (value : String) : List String :=
  if value = "" then [] else [value]

/-- The pairs of variables of a configuration and their texts. -/
def Config.variables (cfg : Config) : List (String × String × String) :=
  [("HTTP_PROXY", "http_proxy", cfg.httpProxy), ("HTTPS_PROXY", "https_proxy", cfg.httpsProxy),
   ("ALL_PROXY", "all_proxy", cfg.allProxy), ("NO_PROXY", "no_proxy", cfg.noProxy)]

/-- An environment assigns a configuration: each of the eight variables is bound once to its text,
or not at all when the text is empty. -/
def Assigns (environ : List String) (cfg : Config) : Prop :=
  ∀ upper lower value, (upper, lower, value) ∈ cfg.variables →
    bindings upper environ = single value ∧ bindings lower environ = single value

/-- What a pair adds to the bindings of a name. -/
theorem bindings_appendProxyPair {upper lower : String} (hupper : '=' ∉ upper.toList)
    (hlower : '=' ∉ lower.toList) (name value : String) (environ : List String) :
    bindings name (appendProxyPair environ upper lower value) = bindings name environ ++
      ((if upper = name then single value else []) ++
        if lower = name then single value else []) := by
  rw [appendProxyPair, single]
  by_cases hvalue : value = ""
  · simp [hvalue]
  · rw [if_neg hvalue, if_neg hvalue, bindings_append,
      show [upper ++ "=" ++ value, lower ++ "=" ++ value] =
        [upper ++ "=" ++ value] ++ [lower ++ "=" ++ value] from rfl, bindings_append,
      bindings_singleton, bindings_singleton, boundTo, boundTo, Strings.cut_binding hupper,
      Strings.cut_binding hlower]
    by_cases hfirst : upper = name <;> by_cases hsecond : lower = name <;> simp [hfirst, hsecond]

/-- Without the proxy variables, none of them is bound. -/
theorem bindings_withoutProxies {name : String} (hname : isProxyVariable name = true)
    (environ : List String) : bindings name (withoutProxies environ) = [] := by
  refine bindings_filter_eq_nil (fun item value hcut ↦ ?_) environ
  simp only [hcut, hname, Bool.not_true]

/-- What a configuration writes behind other variables is assigned. -/
theorem assigns_appendTo (cfg : Config) (environ : List String) :
    Assigns (cfg.appendTo (withoutProxies environ)) cfg := by
  have hnone : ∀ name ∈ proxyVariableNames, bindings name (withoutProxies environ) = [] := by
    intro name hmem
    refine bindings_withoutProxies ?_ environ
    rw [isProxyVariable, List.any_eq_true]
    exact ⟨name, hmem, beq_self_eq_true name⟩
  simp only [proxyVariableNames, List.forall_mem_cons] at hnone
  obtain ⟨hhttp, hhttps, hall, hno, hhttp', hhttps', hall', hno', -⟩ := hnone
  intro upper lower value hmem
  simp only [Config.variables, List.mem_cons, List.not_mem_nil, or_false, Prod.mk.injEq] at hmem
  rcases hmem with ⟨rfl, rfl, rfl⟩ | ⟨rfl, rfl, rfl⟩ | ⟨rfl, rfl, rfl⟩ | ⟨rfl, rfl, rfl⟩
  all_goals
    simp [Config.appendTo, bindings_appendProxyPair, hhttp, hhttps, hall, hno, hhttp', hhttps',
      hall', hno']

/-- A list of one text or none has that text. -/
theorem single_injective : Function.Injective single := by
  intro first second h
  rw [single, single] at h
  by_cases hfirst : first = "" <;> by_cases hsecond : second = "" <;>
    simp_all

/-- The bindings of the upper-case variables give the configuration that is assigned. -/
theorem Assigns.upper {environ : List String} {cfg : Config} (h : Assigns environ cfg) :
    bindings "HTTP_PROXY" environ = single cfg.httpProxy ∧
      bindings "HTTPS_PROXY" environ = single cfg.httpsProxy ∧
      bindings "ALL_PROXY" environ = single cfg.allProxy ∧
      bindings "NO_PROXY" environ = single cfg.noProxy :=
  ⟨(h "HTTP_PROXY" "http_proxy" _ (by simp [Config.variables])).1,
    (h "HTTPS_PROXY" "https_proxy" _ (by simp [Config.variables])).1,
    (h "ALL_PROXY" "all_proxy" _ (by simp [Config.variables])).1,
    (h "NO_PROXY" "no_proxy" _ (by simp [Config.variables])).1⟩

/-- The bindings of the lower-case variables as well. -/
theorem Assigns.lower {environ : List String} {cfg : Config} (h : Assigns environ cfg) :
    bindings "http_proxy" environ = single cfg.httpProxy ∧
      bindings "https_proxy" environ = single cfg.httpsProxy ∧
      bindings "all_proxy" environ = single cfg.allProxy ∧
      bindings "no_proxy" environ = single cfg.noProxy :=
  ⟨(h "HTTP_PROXY" "http_proxy" _ (by simp [Config.variables])).2,
    (h "HTTPS_PROXY" "https_proxy" _ (by simp [Config.variables])).2,
    (h "ALL_PROXY" "all_proxy" _ (by simp [Config.variables])).2,
    (h "NO_PROXY" "no_proxy" _ (by simp [Config.variables])).2⟩

/-- An environment assigns one configuration at most. -/
theorem Assigns.unique {environ : List String} {first second : Config}
    (hfirst : Assigns environ first) (hsecond : Assigns environ second) : first = second := by
  obtain ⟨hhttp, hhttps, hall, hno⟩ := hfirst.upper
  obtain ⟨hhttp', hhttps', hall', hno'⟩ := hsecond.upper
  rw [hhttp] at hhttp'
  rw [hhttps] at hhttps'
  rw [hall] at hall'
  rw [hno] at hno'
  apply Config.ext
  · exact single_injective hhttp'
  · exact single_injective hhttps'
  · exact single_injective hall'
  · exact single_injective hno'

/-! ### Filling in once more -/

section Fallbacks

variable (cfg : Config)

/-- The proxy for HTTP after filling in. -/
theorem withFallbacks_httpProxy : cfg.withFallbacks.httpProxy =
    if cfg.httpProxy = "" then firstNonEmpty [cfg.allProxy, cfg.httpsProxy] else cfg.httpProxy := by
  unfold Config.withFallbacks
  dsimp only
  split_ifs <;> rfl

/-- The proxy for HTTPS after filling in. -/
theorem withFallbacks_httpsProxy : cfg.withFallbacks.httpsProxy =
    if cfg.httpsProxy = "" then firstNonEmpty [cfg.allProxy, cfg.withFallbacks.httpProxy]
    else cfg.httpsProxy := by
  rw [withFallbacks_httpProxy]
  unfold Config.withFallbacks
  by_cases hhttp : cfg.httpProxy = "" <;> by_cases hhttps : cfg.httpsProxy = "" <;>
    simp only [hhttp, hhttps, if_true, if_false] <;> split_ifs <;> rfl

/-- The proxy for everything after filling in. -/
theorem withFallbacks_allProxy : cfg.withFallbacks.allProxy =
    if cfg.allProxy = "" ∧ cfg.withFallbacks.httpProxy = cfg.withFallbacks.httpsProxy then
      cfg.withFallbacks.httpProxy
    else cfg.allProxy := by
  rw [withFallbacks_httpsProxy, withFallbacks_httpProxy]
  unfold Config.withFallbacks
  by_cases hhttp : cfg.httpProxy = "" <;> by_cases hhttps : cfg.httpsProxy = "" <;>
    simp only [hhttp, hhttps, if_true, if_false] <;> split_ifs <;> rfl

/-- Filling in leaves the exempt hosts. -/
theorem withFallbacks_noProxy : cfg.withFallbacks.noProxy = cfg.noProxy := by
  unfold Config.withFallbacks
  dsimp only
  split_ifs <;> rfl

/-- The first of two texts that is not empty. -/
theorem firstNonEmpty_pair (first second : String) :
    firstNonEmpty [first, second] = if first = "" then second else first := by
  unfold firstNonEmpty
  by_cases hfirst : first = "" <;> by_cases hsecond : second = "" <;> simp [hfirst, hsecond]

/-- After filling in, the proxy for HTTP is empty only if no proxy is set. -/
theorem withFallbacks_of_httpProxy (h : cfg.withFallbacks.httpProxy = "") :
    cfg.withFallbacks.httpsProxy = "" ∧ cfg.withFallbacks.allProxy = "" := by
  have hread : cfg.httpProxy = "" ∧ cfg.allProxy = "" ∧ cfg.httpsProxy = "" := by
    rw [withFallbacks_httpProxy, firstNonEmpty_pair] at h
    split_ifs at h with hhttp hall
    · exact ⟨hhttp, hall, h⟩
    · exact absurd h hall
    · exact absurd h hhttp
  have hhttps : cfg.withFallbacks.httpsProxy = "" := by
    rw [withFallbacks_httpsProxy, if_pos hread.2.2, firstNonEmpty_pair, if_pos hread.2.1, h]
  refine ⟨hhttps, ?_⟩
  rw [withFallbacks_allProxy, h, hhttps, if_pos ⟨hread.2.1, rfl⟩]

/-- After filling in, the proxy for HTTPS is empty only if no proxy is set. -/
theorem withFallbacks_of_httpsProxy (h : cfg.withFallbacks.httpsProxy = "") :
    cfg.withFallbacks.httpProxy = "" := by
  rw [withFallbacks_httpsProxy, firstNonEmpty_pair] at h
  split_ifs at h with hhttps hall
  · exact h
  · exact absurd h hall
  · exact absurd h hhttps

/-- Nothing is left to fill in after filling in. -/
theorem withFallbacks_withFallbacks : cfg.withFallbacks.withFallbacks = cfg.withFallbacks := by
  have hhttp : cfg.withFallbacks.withFallbacks.httpProxy = cfg.withFallbacks.httpProxy := by
    rw [withFallbacks_httpProxy]
    by_cases h : cfg.withFallbacks.httpProxy = ""
    · obtain ⟨hhttps, hall⟩ := withFallbacks_of_httpProxy cfg h
      rw [if_pos h, hhttps, hall, h]
      rfl
    · rw [if_neg h]
  have hhttps : cfg.withFallbacks.withFallbacks.httpsProxy = cfg.withFallbacks.httpsProxy := by
    rw [withFallbacks_httpsProxy, hhttp]
    by_cases h : cfg.withFallbacks.httpsProxy = ""
    · have hempty := withFallbacks_of_httpsProxy cfg h
      rw [if_pos h, (withFallbacks_of_httpProxy cfg hempty).2, hempty, h]
      rfl
    · rw [if_neg h]
  apply Config.ext
  · exact hhttp
  · exact hhttps
  · rw [withFallbacks_allProxy, hhttp, hhttps]
    by_cases h : cfg.withFallbacks.allProxy = "" ∧
        cfg.withFallbacks.httpProxy = cfg.withFallbacks.httpsProxy
    · rw [if_pos h]
      have hall := h.1
      rw [withFallbacks_allProxy] at hall ⊢
      split_ifs at hall ⊢ with hsame
      · rfl
      · exact absurd ⟨hall, h.2⟩ hsame
    · rw [if_neg h]
  · exact withFallbacks_noProxy _

end Fallbacks
/-! ### Shorthands -/

section Shorthands

variable [NetURL]

/-- A proxy text is a shorthand `scheme:rest` whose rest, as `url.Parse` finds it before a query or
a fragment, ends in white space. -/
def LooseShorthand (raw : String) : Prop :=
  Strings.trimSpace raw ≠ "" ∧ ∃ parsed, NetURL.parse (Strings.trimSpace raw) = some parsed ∧
    parsed.scheme ≠ "" ∧ parsed.host = "" ∧ parsed.opaqueData ≠ "" ∧
    Strings.toLower parsed.scheme ∈ proxySchemes ∧ Strings.EndsInSpace parsed.opaqueData

omit [NetURL] in
/-- Trimming a text that starts with the scheme of a proxy trims what follows its slashes. -/
theorem trimSpace_scheme {scheme : String} (h : scheme ∈ proxySchemes) (rest : String) :
    Strings.trimSpace (scheme ++ "://" ++ rest) =
      scheme ++ "://" ++ String.ofList (rest.toList.rdropWhile Strings.isSpace) := by
  have hletters : ∃ first middle, Strings.isSpace first = false ∧
      (scheme ++ "://").toList = first :: (middle ++ ['/']) := by
    simp only [proxySchemes, List.mem_cons, List.not_mem_nil, or_false] at h
    rcases h with rfl | rfl | rfl | rfl
    · exact ⟨'h', "ttp:/".toList, by decide, by decide⟩
    · exact ⟨'h', "ttps:/".toList, by decide, by decide⟩
    · exact ⟨'s', "ocks5:/".toList, by decide, by decide⟩
    · exact ⟨'s', "ocks5h:/".toList, by decide, by decide⟩
  obtain ⟨first, middle, hfirst, hlist⟩ := hletters
  have hslash : Strings.isSpace '/' = false := by
    decide
  have htrim : Strings.trimSpaceChars (first :: (middle ++ '/' :: rest.toList)) =
      first :: (middle ++ '/' :: rest.toList.rdropWhile Strings.isSpace) :=
    Strings.trimSpaceChars_append hfirst hslash rest.toList
  rw [Strings.trimSpace, String.toList_append, hlist]
  apply String.toList_injective
  rw [String.toList_ofList, String.toList_append, hlist, String.toList_ofList]
  simpa using htrim

/-- A normalised text is the trimmed one, or a shorthand written out. -/
theorem normalizeProxyURL_cases (raw : String) :
    (normalizeProxyURL raw = Strings.trimSpace raw ∧ ¬ LooseShorthand raw) ∨
      ∃ parsed : URL, Strings.toLower parsed.scheme ∈ proxySchemes ∧
        normalizeProxyURL raw = Strings.toLower parsed.scheme ++ "://" ++ parsed.opaqueData ∧
        (LooseShorthand raw ↔ Strings.EndsInSpace parsed.opaqueData) := by
  unfold normalizeProxyURL LooseShorthand
  dsimp only
  by_cases hblank : Strings.trimSpace raw = ""
  · left
    rw [if_pos hblank, hblank]
    exact ⟨rfl, fun h ↦ h.1 rfl⟩
  · rw [if_neg hblank]
    cases hparse : NetURL.parse (Strings.trimSpace raw) with
    | none =>
        left
        refine ⟨rfl, ?_⟩
        rintro ⟨-, parsed, hsome, -⟩
        cases hsome
    | some parsed =>
        dsimp only
        by_cases hplain : parsed.scheme = "" ∨ parsed.host ≠ "" ∨ parsed.opaqueData = ""
        · left
          rw [if_pos hplain]
          refine ⟨rfl, ?_⟩
          rintro ⟨-, other, hsome, hscheme, hhost, hrest, -⟩
          obtain rfl := Option.some.inj hsome
          rcases hplain with h | h | h
          · exact hscheme h
          · exact h hhost
          · exact hrest h
        · rw [if_neg hplain]
          by_cases hproxy : Strings.toLower parsed.scheme ∈ proxySchemes
          · right
            rw [if_pos hproxy]
            refine ⟨parsed, hproxy, rfl, ?_⟩
            push Not at hplain
            constructor
            · rintro ⟨-, other, hsome, -, -, -, -, hends⟩
              rwa [Option.some.inj hsome]
            · intro hends
              exact ⟨hblank, parsed, rfl, hplain.1, hplain.2.1, hplain.2.2, hproxy, hends⟩
          · left
            rw [if_neg hproxy]
            refine ⟨rfl, ?_⟩
            rintro ⟨-, other, hsome, -, -, -, hother, -⟩
            obtain rfl := Option.some.inj hsome
            exact hproxy hother

/-- Trimming changes a normalised text exactly when it comes from a loose shorthand. -/
theorem trimSpace_normalizeProxyURL_iff (raw : String) :
    Strings.trimSpace (normalizeProxyURL raw) = normalizeProxyURL raw ↔ ¬ LooseShorthand raw := by
  rcases normalizeProxyURL_cases raw with ⟨heq, hloose⟩ | ⟨parsed, hscheme, heq, hloose⟩
  · rw [heq, Strings.trimSpace_trimSpace]
    simp [hloose]
  · rw [heq, trimSpace_scheme hscheme, hloose, ← Strings.rdropWhile_eq_self_iff]
    generalize Strings.toLower parsed.scheme ++ "://" = lead
    constructor
    · intro h
      have hlist := congrArg String.toList h
      rw [String.toList_append, String.toList_append, String.toList_ofList] at hlist
      exact List.append_cancel_left hlist
    · intro h
      rw [h, String.ofList_toList]

/-- `normalizeProxyURL` trims its argument first. -/
theorem normalizeProxyURL_trimSpace (raw : String) :
    normalizeProxyURL (Strings.trimSpace raw) = normalizeProxyURL raw := by
  unfold normalizeProxyURL
  dsimp only
  rw [Strings.trimSpace_trimSpace]

/-- Assumes: a URL with slashes after its scheme has no `Opaque` part. Then a normalised text is
only trimmed when it is normalised again. -/
theorem normalizeProxyURL_normalizeProxyURL
    (hslashes : ∀ scheme ∈ proxySchemes, ∀ (rest : String) (url : URL),
      NetURL.parse (scheme ++ "://" ++ rest) = some url → url.opaqueData = "")
    (raw : String) :
    normalizeProxyURL (normalizeProxyURL raw) = Strings.trimSpace (normalizeProxyURL raw) := by
  rcases normalizeProxyURL_cases raw with ⟨heq, -⟩ | ⟨parsed, hscheme, heq, -⟩
  · rw [heq, normalizeProxyURL_trimSpace, heq, Strings.trimSpace_trimSpace]
  · rw [heq, normalizeProxyURL, trimSpace_scheme hscheme]
    dsimp only
    split_ifs with hblank
    · rw [hblank]
    · split
      next => rfl
      next url hparse =>
        rw [if_pos (Or.inr (Or.inr (hslashes _ hscheme _ url hparse)))]

end Shorthands

/-! ### Reading what was written -/

section Rereading

variable [NetURL]

/-- What `FromEnvironment` reads where a configuration is assigned. -/
def Config.reread (cfg : Config) : Config :=
  Config.withFallbacks
    { httpProxy := normalizeProxyURL cfg.httpProxy
      httpsProxy := normalizeProxyURL cfg.httpsProxy
      allProxy := normalizeProxyURL cfg.allProxy
      noProxy := Strings.trimSpace cfg.noProxy }

omit [NetURL] in
/-- A pair of variables that is bound to a text gives the trimmed text. -/
theorem readPair_of_bindings {environ : List String} {upper lower value : String}
    (hupper : bindings upper environ = single value)
    (hlower : bindings lower environ = single value) :
    readPair environ upper lower = Strings.trimSpace value := by
  rw [readPair, lookup_environmentMap, lookup_environmentMap, hupper, hlower,
    firstNonEmpty_pair, single]
  by_cases hvalue : value = ""
  · simp [hvalue]
  · simp [hvalue]

/-- `FromEnvironment` reads four pairs of variables. -/
theorem readEnvironment_eq (environ : List String) : readEnvironment environ =
    { httpProxy := normalizeProxyURL (readPair environ "HTTP_PROXY" "http_proxy")
      httpsProxy := normalizeProxyURL (readPair environ "HTTPS_PROXY" "https_proxy")
      allProxy := normalizeProxyURL (readPair environ "ALL_PROXY" "all_proxy")
      noProxy := readPair environ "NO_PROXY" "no_proxy" } :=
  rfl

/-- Where a configuration is assigned, `FromEnvironment` reads its texts again. -/
theorem Assigns.fromEnvironment_eq {environ : List String} {cfg : Config}
    (h : Assigns environ cfg) : fromEnvironment environ = cfg.reread := by
  obtain ⟨hhttp, hhttps, hall, hno⟩ := h.upper
  obtain ⟨hhttp', hhttps', hall', hno'⟩ := h.lower
  rw [fromEnvironment, readEnvironment_eq, readPair_of_bindings hhttp hhttp',
      readPair_of_bindings hhttps hhttps',
    readPair_of_bindings hall hall', readPair_of_bindings hno hno', Config.reread]
  simp only [normalizeProxyURL_trimSpace]

omit [NetURL] in
/-- A pair of proxy variables does not survive `withoutProxies`. -/
theorem withoutProxies_appendProxyPair {upper lower : String} (hupper : '=' ∉ upper.toList)
    (hlower : '=' ∉ lower.toList) (hknown : isProxyVariable upper = true)
    (hknown' : isProxyVariable lower = true) (value : String) (environ : List String) :
    withoutProxies (appendProxyPair environ upper lower value) = withoutProxies environ := by
  rw [appendProxyPair]
  by_cases hvalue : value = ""
  · rw [if_pos hvalue]
  · rw [if_neg hvalue, withoutProxies, List.filter_append]
    simp [Strings.cut_binding hupper, Strings.cut_binding hlower, hknown, hknown', withoutProxies]

omit [NetURL] in
/-- Behind other variables, a configuration leaves what is not a proxy variable. -/
theorem withoutProxies_appendTo (cfg : Config) (environ : List String) :
    withoutProxies (cfg.appendTo (withoutProxies environ)) = withoutProxies environ := by
  have htwice : withoutProxies (withoutProxies environ) = withoutProxies environ := by
    rw [withoutProxies, List.filter_eq_self]
    intro item hmem
    exact (List.mem_filter.mp hmem).2
  rw [Config.appendTo, withoutProxies_appendProxyPair (by decide) (by decide)
      (by decide) (by decide),
    withoutProxies_appendProxyPair (by decide) (by decide) (by decide) (by decide),
    withoutProxies_appendProxyPair (by decide) (by decide) (by decide) (by decide),
    withoutProxies_appendProxyPair (by decide) (by decide) (by decide) (by decide), htwice]

/-- Normalising the variables that a configuration wrote writes what is read of them. -/
theorem normalize_appendTo (cfg : Config) (environ : List String) :
    normalize (cfg.appendTo (withoutProxies environ)) =
      cfg.reread.appendTo (withoutProxies environ) := by
  rw [normalize, (assigns_appendTo cfg environ).fromEnvironment_eq, withoutProxies_appendTo]

/-! ### The condition -/

/-- The texts that the three pairs of proxy variables give. -/
def proxyTexts (environ : List String) : List String :=
  [readPair environ "HTTP_PROXY" "http_proxy", readPair environ "HTTPS_PROXY" "https_proxy",
   readPair environ "ALL_PROXY" "all_proxy"]

/-- No proxy text of an environment is a loose shorthand. -/
def Settled (environ : List String) : Prop :=
  ∀ raw ∈ proxyTexts environ, ¬ LooseShorthand raw

/-- The proxy texts of a configuration have no white space at their ends. -/
def Config.Trimmed (cfg : Config) : Prop :=
  ∀ proxy ∈ cfg.proxies, Strings.trimSpace proxy.2 = proxy.2

omit [NetURL] in
/-- Filling in takes texts from the configuration and keeps those that are set. -/
theorem trimmed_withFallbacks_iff (cfg : Config) :
    cfg.withFallbacks.Trimmed ↔ cfg.Trimmed := by
  constructor
  · intro h
    simp only [Config.Trimmed, Config.proxies, List.forall_mem_cons] at h ⊢
    obtain ⟨hhttp, hhttps, hall, -⟩ := h
    rw [withFallbacks_httpProxy] at hhttp
    rw [withFallbacks_httpsProxy] at hhttps
    rw [withFallbacks_allProxy] at hall
    refine ⟨?_, ?_, ?_, by simp⟩
    · by_cases hempty : cfg.httpProxy = ""
      · rw [hempty, Strings.trimSpace_empty]
      · rw [if_neg hempty] at hhttp
        exact hhttp
    · by_cases hempty : cfg.httpsProxy = ""
      · rw [hempty, Strings.trimSpace_empty]
      · rw [if_neg hempty] at hhttps
        exact hhttps
    · by_cases hempty : cfg.allProxy = ""
      · rw [hempty, Strings.trimSpace_empty]
      · rw [if_neg (fun h ↦ hempty h.1)] at hall
        exact hall
  · intro h
    exact forall_proxies_withFallbacks (P := fun value ↦ Strings.trimSpace value = value)
      Strings.trimSpace_empty h

/-- The texts that `FromEnvironment` reads are trimmed exactly when the environment is settled. -/
theorem trimmed_fromEnvironment_iff (environ : List String) :
    (fromEnvironment environ).Trimmed ↔ Settled environ := by
  have hread : (readEnvironment environ).Trimmed ↔ ∀ raw ∈ proxyTexts environ,
      Strings.trimSpace (normalizeProxyURL raw) = normalizeProxyURL raw := by
    rw [readEnvironment_eq]
    simp only [Config.Trimmed, Config.proxies, proxyTexts, List.forall_mem_cons,
      List.not_mem_nil, false_imp_iff, implies_true, and_true]
  rw [fromEnvironment, trimmed_withFallbacks_iff, hread]
  simp only [trimSpace_normalizeProxyURL_iff, Settled]

omit [NetURL] in
/-- The list of exempt hosts is trimmed when it is read. -/
theorem trimSpace_readPair (environ : List String) (upper lower : String) :
    Strings.trimSpace (readPair environ upper lower) = readPair environ upper lower := by
  refine firstNonEmpty_of_forall (P := fun value ↦ Strings.trimSpace value = value)
    Strings.trimSpace_empty ?_
  have hlookup : ∀ name, Strings.trimSpace (((environmentMap environ).lookup name).getD "") =
      ((environmentMap environ).lookup name).getD "" := by
    intro name
    rw [lookup_environmentMap]
    cases (bindings name environ).getLast? with
    | none => exact Strings.trimSpace_empty
    | some value => exact Strings.trimSpace_trimSpace value
  simp [hlookup]

/-- Assumes: a URL with slashes after its scheme has no `Opaque` part. Reading what
`FromEnvironment` returned changes it exactly when one of its texts is not trimmed. -/
theorem reread_fromEnvironment_iff
    (hslashes : ∀ scheme ∈ proxySchemes, ∀ (rest : String) (url : URL),
      NetURL.parse (scheme ++ "://" ++ rest) = some url → url.opaqueData = "")
    (environ : List String) :
    (fromEnvironment environ).reread = fromEnvironment environ ↔
      (fromEnvironment environ).Trimmed := by
  have hagain : ∀ proxy ∈ (fromEnvironment environ).proxies,
      normalizeProxyURL proxy.2 = Strings.trimSpace proxy.2 := by
    refine forall_proxies_withFallbacks
      (P := fun value ↦ normalizeProxyURL value = Strings.trimSpace value)
          (by simp [normalizeProxyURL])
      ?_
    simp [readEnvironment, Config.proxies, normalizeProxyURL_normalizeProxyURL hslashes]
  have hno : Strings.trimSpace (fromEnvironment environ).noProxy =
      (fromEnvironment environ).noProxy := by
    rw [fromEnvironment, withFallbacks_noProxy]
    exact trimSpace_readPair environ "NO_PROXY" "no_proxy"
  have hfilled : (fromEnvironment environ).withFallbacks = fromEnvironment environ :=
    withFallbacks_withFallbacks _
  generalize fromEnvironment environ = cfg at hagain hno hfilled ⊢
  simp only [Config.proxies, List.forall_mem_cons] at hagain
  obtain ⟨hhttp, hhttps, hall, -⟩ := hagain
  rw [Config.reread, hhttp, hhttps, hall, hno]
  constructor
  · intro h
    have hagain : Config.Trimmed (Config.withFallbacks
        { httpProxy := Strings.trimSpace cfg.httpProxy
          httpsProxy := Strings.trimSpace cfg.httpsProxy
          allProxy := Strings.trimSpace cfg.allProxy
          noProxy := cfg.noProxy }) := by
      rw [trimmed_withFallbacks_iff]
      simp [Config.Trimmed, Config.proxies, Strings.trimSpace_trimSpace]
    rwa [h] at hagain
  · intro h
    simp only [Config.Trimmed, Config.proxies, List.forall_mem_cons] at h
    rw [h.1, h.2.1, h.2.2.1]
    exact hfilled

end Rereading

/-! ### One policy -/

section Policy

variable [NetURL] [HTTPProxy]

/-- One proxy policy for every consumer: normalising an environment changes neither what is read of
it nor, when it is done twice, the environment; and a child of the resolver of the environment,
whatever its base, is assigned the resolver's configuration. -/
structure OnePolicy (environ : List String) : Prop where
  consistent : fromEnvironment (normalize environ) = fromEnvironment environ
  idempotent : normalize (normalize environ) = normalize environ
  child : ∀ r, resolve environ = .ok r → ∀ base,
    Assigns (normalize (normalizeEnvironment (some r) base)) r.cfg

/-- The configuration of a resolver is what `FromEnvironment` reads. -/
theorem resolve_cfg {environ : List String} {r : Resolver} (h : resolve environ = .ok r) :
    r.cfg = fromEnvironment environ := by
  unfold resolve at h
  dsimp only at h
  split at h
  next => rw [← Except.ok.inj h]
  next => cases h

/-- Assumes: a URL with slashes after its scheme has no `Opaque` part. There is one proxy policy
exactly when no proxy text of the environment is a loose shorthand. -/
theorem onePolicy_iff
    (hslashes : ∀ scheme ∈ proxySchemes, ∀ (rest : String) (url : URL),
      NetURL.parse (scheme ++ "://" ++ rest) = some url → url.opaqueData = "")
    (environ : List String) : OnePolicy environ ↔ Settled environ := by
  have hconsistent : fromEnvironment (normalize environ) = (fromEnvironment environ).reread :=
    (assigns_appendTo _ environ).fromEnvironment_eq
  rw [← trimmed_fromEnvironment_iff, ← reread_fromEnvironment_iff hslashes]
  constructor
  · intro h
    rw [← hconsistent]
    exact h.consistent
  · intro h
    refine ⟨hconsistent.trans h, ?_, ?_⟩
    · have htwice := normalize_appendTo (fromEnvironment environ) environ
      rwa [h] at htwice
    · intro r hresolve base
      have hchild : normalize (normalizeEnvironment (some r) base) =
          r.cfg.reread.appendTo (withoutProxies base) := normalize_appendTo r.cfg base
      rw [hchild, resolve_cfg hresolve, h]
      exact assigns_appendTo _ base

end Policy

/-- The URLs of a proxy named `proxy`, as `url.Parse` reads its shorthand with and without a query,
and the URL written out. -/
@[reducible]
def shorthandURL : NetURL where
  parse text :=
    if text = "http:proxy ?x" then some ⟨"http", "", false, "x", "", "proxy "⟩
    else if text = "http:proxy" then some ⟨"http", "", false, "", "", "proxy"⟩
    else if text = "http://proxy" then some ⟨"http", "proxy", false, "", "", ""⟩
    else none

/-- No URL with slashes after its scheme has an `Opaque` part. -/
theorem shorthandURL_slashes : ∀ scheme ∈ proxySchemes, ∀ (rest : String) (url : URL),
    shorthandURL.parse (scheme ++ "://" ++ rest) = some url → url.opaqueData = "" := by
  intro scheme hscheme rest url h
  have hlist : (scheme ++ "://" ++ rest).toList = scheme.toList ++
      ("://".toList ++ rest.toList) := by
    rw [String.toList_append, String.toList_append, List.append_assoc]
  have hshort : ∀ text : String, text ∈ ["http:proxy ?x", "http:proxy"] →
      scheme ++ "://" ++ rest ≠ text := by
    intro text hmem heq
    rw [← String.toList_inj, hlist] at heq
    simp only [proxySchemes, List.mem_cons, List.not_mem_nil, or_false] at hscheme hmem
    rcases hscheme with rfl | rfl | rfl | rfl <;> rcases hmem with rfl | rfl <;> simp at heq
  have hquery := hshort "http:proxy ?x" (by simp)
  have hplain := hshort "http:proxy" (by simp)
  change (if _ = _ then _ else if _ = _ then _ else if _ = _ then _ else none) = some url at h
  rw [if_neg hquery, if_neg hplain] at h
  split_ifs at h
  obtain rfl := Option.some.inj h
  rfl

/-- A shorthand without white space at its end is settled. -/
theorem onePolicy_shorthand : @OnePolicy shorthandURL exemptNone ["HTTP_PROXY=http:proxy"] := by
  let _ := shorthandURL
  let _ := exemptNone
  refine (onePolicy_iff shorthandURL_slashes _).mpr ?_
  have htexts : proxyTexts ["HTTP_PROXY=http:proxy"] = ["http:proxy", "", ""] := by
    decide +kernel
  rw [Settled, htexts]
  simp only [List.forall_mem_cons, LooseShorthand]
  refine ⟨?_, fun h ↦ h.1 (by decide), fun h ↦ h.1 (by decide), by simp⟩
  rintro ⟨-, parsed, hparse, -, -, -, -, c, hlast, hspace⟩
  have heq : NetURL.parse (Strings.trimSpace "http:proxy") =
      some ⟨"http", "", false, "", "", "proxy"⟩ := by
    decide +kernel
  rw [heq] at hparse
  obtain rfl := Option.some.inj hparse
  have hy : "proxy".toList.getLast? = some 'y' := by decide
  rw [hy] at hlast
  obtain rfl := Option.some.inj hlast
  revert hspace
  decide

/-- The shorthand `http:proxy ?x` is accepted. What is read of it ends in a blank, which the child
does not get. -/
theorem loose_shorthand_not_onePolicy :
    (∃ r, @resolve shorthandURL exemptNone ["HTTP_PROXY=http:proxy ?x"] = .ok r ∧
      r.cfg.httpProxy = "http://proxy " ∧
      bindings "HTTP_PROXY" (@normalize shorthandURL
        (@normalizeEnvironment shorthandURL (some r) ["PATH=/bin"])) = ["http://proxy"]) ∧
      ¬ @OnePolicy shorthandURL exemptNone ["HTTP_PROXY=http:proxy ?x"] := by
  let _ := shorthandURL
  let _ := exemptNone
  have heval : (resolve ["HTTP_PROXY=http:proxy ?x"]).toOption.any (fun r : Resolver ↦
      r.cfg.httpProxy == "http://proxy " &&
        bindings "HTTP_PROXY" (normalize (normalizeEnvironment (some r) ["PATH=/bin"])) ==
          ["http://proxy"]) = true := by
    decide +kernel
  obtain ⟨r, hresolve, htest⟩ := Option.any_eq_true _ _ |>.mp heval
  simp only [Bool.and_eq_true, beq_iff_eq] at htest
  refine ⟨⟨r, eq_ok_of_toOption hresolve, htest⟩, fun h ↦ ?_⟩
  have hdiffer : fromEnvironment (normalize ["HTTP_PROXY=http:proxy ?x"]) ≠
      fromEnvironment ["HTTP_PROXY=http:proxy ?x"] := by
    decide +kernel
  exact hdiffer h.consistent

end CodexQueueBot.Proxyenv
