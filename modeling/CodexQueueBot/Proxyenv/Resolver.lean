import CodexQueueBot.Go.NetURL
import CodexQueueBot.Go.StringFacts
import CodexQueueBot.Lib.Table

/-!
# The outbound proxy of a request

`proxyenv.Resolve` reads the proxy variables of an environment once, and the resolver it returns
picks the proxy of every request: `proxyForScheme` selects one of the configured texts, and
`proxyURL` parses it. A nil URL without an error means a direct connection.

`parseProxyURL` answers a text that parses to a URL without a host by a nil URL and no error. So
`Resolve` accepts such a text, for example `proxy.local:8080`, whose part before the colon is a
scheme to `url.Parse`, and the requests it is selected for go out directly. `proxied_iff_namesHost`
says that these are the only ones: a request whose proxy text is not empty, and whose host is not
exempt, goes to a proxy exactly when the text names a host.

`url.Parse` and the matcher of `golang.org/x/net/http/httpproxy` are parameters.
-/

set_option autoImplicit false
set_option relaxedAutoImplicit false

namespace CodexQueueBot.Proxyenv

open Go Lib

/-! ### The environment -/

/-- `Config`. -/
structure Config where
  httpProxy : String
  httpsProxy : String
  allProxy : String
  noProxy : String
  deriving DecidableEq, Repr

/-- `environmentMap`. A later entry for a name replaces an earlier one. -/
def environmentMap (environ : List String) : Table String String :=
  environ.foldl
    (fun values item ↦
      match Strings.cut item '=' with
      | some (name, value) => values.insert name (Strings.trimSpace value)
      | none => values)
    ∅

/-- `firstNonEmpty`. -/
def firstNonEmpty (values : List String) : String :=
  (values.find? (· ≠ "")).getD ""

/-- The schemes that a proxy URL may have. -/
def proxySchemes : List String :=
  ["http", "https", "socks5", "socks5h"]

/-- The fields of `httpproxy.Config` that `Resolve` sets. -/
structure HTTPProxyConfig where
  httpProxy : String
  httpsProxy : String
  noProxy : String
  deriving DecidableEq, Repr

/-- The `httpproxy` package: the function that `Config.ProxyFunc` returns. A nil URL without an
error says that the request needs no proxy. -/
class HTTPProxy where
  proxyFunc : HTTPProxyConfig → URL → Except String (Option URL)

section

variable [NetURL]

/-- `normalizeProxyURL`. -/
def normalizeProxyURL (raw : String) : String :=
  let raw := Strings.trimSpace raw
  if raw = "" then ""
  else match NetURL.parse raw with
  | none => raw
  | some parsed =>
    if parsed.scheme = "" ∨ parsed.host ≠ "" ∨ parsed.opaqueData = "" then raw
    else
      let scheme := Strings.toLower parsed.scheme
      if scheme ∈ proxySchemes then scheme ++ "://" ++ parsed.opaqueData else raw

/-- `parseProxyURL`. A URL without a host is answered by nil and the error of `url.Parse`, which is
nil as well. -/
def parseProxyURL (raw : String) : Except String (Option URL) :=
  let raw := normalizeProxyURL raw
  if Strings.trimSpace raw = "" then .error "empty proxy URL"
  else match NetURL.parse raw with
  | none => .error "parse proxy URL"
  | some url =>
    if url.host = "" then .ok none
    else if Strings.toLower url.scheme ∈ proxySchemes then .ok (some url)
    else .error "unsupported proxy scheme"

/-- The proxies as `FromEnvironment` reads them, before it fills in those that are not set. -/
def readEnvironment (environ : List String) : Config :=
  let values := environmentMap environ
  let value (name : String) : String := (values.lookup name).getD ""
  { httpProxy := normalizeProxyURL (firstNonEmpty [value "HTTP_PROXY", value "http_proxy"])
    httpsProxy := normalizeProxyURL (firstNonEmpty [value "HTTPS_PROXY", value "https_proxy"])
    allProxy := normalizeProxyURL (firstNonEmpty [value "ALL_PROXY", value "all_proxy"])
    noProxy := firstNonEmpty [value "NO_PROXY", value "no_proxy"] }

omit [NetURL] in
/-- The proxies that `FromEnvironment` fills in. -/
def Config.withFallbacks (cfg : Config) : Config :=
  let cfg := if cfg.httpProxy = "" then
    { cfg with httpProxy := firstNonEmpty [cfg.allProxy, cfg.httpsProxy] } else cfg
  let cfg := if cfg.httpsProxy = "" then
    { cfg with httpsProxy := firstNonEmpty [cfg.allProxy, cfg.httpProxy] } else cfg
  if cfg.allProxy = "" ∧ cfg.httpProxy = cfg.httpsProxy then
    { cfg with allProxy := cfg.httpProxy } else cfg

/-- `FromEnvironment`. -/
def fromEnvironment (environ : List String) : Config :=
  (readEnvironment environ).withFallbacks

/-! ### The resolver -/

omit [NetURL] in
/-- The proxy variables and their texts, as the loop of `Resolve` goes over them. -/
def Config.proxies (cfg : Config) : List (String × String) :=
  [("HTTP_PROXY", cfg.httpProxy), ("HTTPS_PROXY", cfg.httpsProxy), ("ALL_PROXY", cfg.allProxy)]

/-- The body of the loop of `Resolve`: whether a configured text is refused. -/
def refuses (raw : String) : Bool :=
  Strings.trimSpace raw ≠ "" && (parseProxyURL raw matches .error _)

/-- `Resolver`. A nil matcher is `none`. -/
structure Resolver where
  cfg : Config
  noProxy : Option (URL → Except String (Option URL))

/-- `Resolve`. The loop goes over a map, so that the returned error is any one of those listed
here. -/
def resolve [HTTPProxy] (environ : List String) : Except (List String) Resolver :=
  let cfg := fromEnvironment environ
  let matcher := HTTPProxy.proxyFunc
    { httpProxy := "http://proxy.invalid", httpsProxy := "http://proxy.invalid",
      noProxy := cfg.noProxy }
  match cfg.proxies.filter fun proxy ↦ refuses proxy.2 with
  | [] => .ok { cfg, noProxy := some matcher }
  | refused =>
    .error (refused.map fun proxy ↦ proxy.1 ++ " has an invalid or unsupported proxy URL")

namespace Resolver

omit [NetURL] in
/-- `proxyForScheme`. -/
def proxyForScheme (r : Resolver) (scheme : String) : String :=
  let scheme := Strings.toLower (Strings.trimSpace scheme)
  if scheme = "http" ∨ scheme = "ws" then
    firstNonEmpty [r.cfg.httpProxy, r.cfg.allProxy, r.cfg.httpsProxy]
  else if scheme = "https" ∨ scheme = "wss" then
    firstNonEmpty [r.cfg.httpsProxy, r.cfg.allProxy, r.cfg.httpProxy]
  else firstNonEmpty [r.cfg.allProxy, r.cfg.httpsProxy, r.cfg.httpProxy]

omit [NetURL] in
/-- The URL that `proxyURL` hands to the matcher: a WebSocket request is matched as an HTTP
request. -/
def matchURL (requestURL : URL) : URL :=
  if requestURL.scheme = "ws" then { requestURL with scheme := "http" }
  else if requestURL.scheme = "wss" then { requestURL with scheme := "https" }
  else requestURL

omit [NetURL] in
/-- The matcher exempts a request from the proxy. -/
def exempts (r : Resolver) (requestURL : URL) : Bool :=
  r.noProxy.any fun matcher ↦ matcher (matchURL requestURL) matches .ok none

/-- `proxyURL` on a resolver and a request URL that are not nil. -/
def proxyURL (r : Resolver) (requestURL : URL) : Except String (Option URL) :=
  if r.exempts requestURL then .ok none
  else
    let raw := r.proxyForScheme requestURL.scheme
    if raw = "" then .ok none
    else match parseProxyURL raw with
    | .error _ => .error "invalid outbound proxy configuration"
    | .ok url => .ok url

/-- A request goes to a proxy: `proxyURL` finds a URL with a host and with a scheme that a proxy may
have. -/
def Proxied (r : Resolver) (requestURL : URL) : Prop :=
  ∃ proxy, r.proxyURL requestURL = .ok (some proxy) ∧ proxy.host ≠ "" ∧ proxy.scheme ∈ proxySchemes

end Resolver

/-! ### Texts that name a host -/

/-- A proxy text names a host: with a shorthand written out, it parses to a URL with a host. -/
def NamesHost (raw : String) : Prop :=
  ∃ url, NetURL.parse (normalizeProxyURL raw) = some url ∧ url.host ≠ ""

/-- A normalised text is empty or not blank. -/
theorem normalizeProxyURL_blank {raw : String}
    (h : Strings.trimSpace (normalizeProxyURL raw) = "") : normalizeProxyURL raw = "" := by
  unfold normalizeProxyURL at h ⊢
  by_cases hraw : Strings.trimSpace raw = ""
  · simp only [hraw, if_true]
  · simp only [hraw, if_false] at h ⊢
    have hkept : Strings.trimSpace (Strings.trimSpace raw) ≠ "" := by
      rwa [Strings.trimSpace_trimSpace]
    cases hparse : NetURL.parse (Strings.trimSpace raw) with
    | none =>
      simp only [hparse] at h
      exact absurd h hkept
    | some parsed =>
      simp only [hparse] at h
      split_ifs at h with hhost hscheme
      · exact absurd h hkept
      · have hcolon : ':' ∈ (Strings.toLower parsed.scheme ++ "://" ++
            parsed.opaqueData).toList := by
          simp
        exact absurd h (Strings.trimSpace_ne_empty hcolon (by decide))
      · exact absurd h hkept

omit [NetURL] in
/-- What `firstNonEmpty` returns is one of the values, or the empty text. -/
theorem firstNonEmpty_mem (values : List String) :
    firstNonEmpty values = "" ∨ firstNonEmpty values ∈ values := by
  unfold firstNonEmpty
  cases hfind : values.find? (· ≠ "") with
  | none => exact Or.inl rfl
  | some value => exact Or.inr (List.mem_of_find?_eq_some hfind)

/-- A text that is empty or not blank. -/
def Tidy (value : String) : Prop :=
  Strings.trimSpace value = "" → value = ""

omit [NetURL] in
/-- What holds of the empty text and of the values holds of what `firstNonEmpty` returns. -/
theorem firstNonEmpty_of_forall {P : String → Prop} (hempty : P "") {values : List String}
    (h : ∀ value ∈ values, P value) : P (firstNonEmpty values) := by
  rcases firstNonEmpty_mem values with hnone | hmem
  · rwa [hnone]
  · exact h _ hmem

omit [NetURL] in
/-- What holds of the empty text and of the proxy texts still holds after filling in proxies. -/
theorem forall_proxies_withFallbacks {P : String → Prop} (hempty : P "") {cfg : Config}
    (h : ∀ proxy ∈ cfg.proxies, P proxy.2) : ∀ proxy ∈ cfg.withFallbacks.proxies, P proxy.2 := by
  have hhttp : ∀ proxy ∈ (if cfg.httpProxy = "" then
      { cfg with httpProxy := firstNonEmpty [cfg.allProxy, cfg.httpsProxy] }
      else cfg).proxies, P proxy.2 := by
    split_ifs
    · simp only [Config.proxies, List.forall_mem_cons] at h ⊢
      exact ⟨firstNonEmpty_of_forall hempty (by simp [h]), h.2⟩
    · exact h
  unfold Config.withFallbacks
  dsimp only
  generalize (if cfg.httpProxy = "" then
      { cfg with httpProxy := firstNonEmpty [cfg.allProxy, cfg.httpsProxy] }
      else cfg) = cfg at hhttp ⊢
  have hhttps : ∀ proxy ∈ (if cfg.httpsProxy = "" then
      { cfg with httpsProxy := firstNonEmpty [cfg.allProxy, cfg.httpProxy] }
      else cfg).proxies, P proxy.2 := by
    split_ifs
    · simp only [Config.proxies, List.forall_mem_cons] at hhttp ⊢
      exact ⟨hhttp.1, firstNonEmpty_of_forall hempty (by simp [hhttp]), hhttp.2.2⟩
    · exact hhttp
  generalize (if cfg.httpsProxy = "" then
      { cfg with httpsProxy := firstNonEmpty [cfg.allProxy, cfg.httpProxy] }
      else cfg) = cfg at hhttps ⊢
  split_ifs
  · simp only [Config.proxies, List.forall_mem_cons] at hhttps ⊢
    exact ⟨hhttps.1, hhttps.2.1, hhttps.1, hhttps.2.2.2⟩
  · exact hhttps

/-- The proxy texts of an environment are tidy. -/
theorem tidy_fromEnvironment (environ : List String) :
    ∀ proxy ∈ (fromEnvironment environ).proxies, Tidy proxy.2 := by
  have htidy : ∀ raw, Tidy (normalizeProxyURL raw) := fun raw ↦ normalizeProxyURL_blank
  refine forall_proxies_withFallbacks (P := Tidy) (fun _ ↦ rfl) ?_
  simp [readEnvironment, Config.proxies, htidy]

/-! ### Requests -/

variable [HTTPProxy]

/-- A resolver refuses none of its proxy texts, and they are tidy. -/
theorem accepted_of_resolve {environ : List String} {r : Resolver}
    (h : resolve environ = .ok r) :
    ∀ proxy ∈ r.cfg.proxies, refuses proxy.2 = false ∧ Tidy proxy.2 := by
  have htidy := tidy_fromEnvironment environ
  unfold resolve at h
  dsimp only at h
  generalize fromEnvironment environ = cfg at h htidy
  split at h
  case h_1 hnone =>
    obtain rfl := Except.ok.inj h
    intro proxy hmem
    have hrefused := List.filter_eq_nil_iff.mp hnone proxy hmem
    exact ⟨by simpa using hrefused, htidy proxy hmem⟩
  case h_2 => cases h

omit [NetURL] [HTTPProxy] in
/-- What `proxyForScheme` selects is the first of the proxy texts that is not empty, in some
order. -/
theorem proxyForScheme_eq (r : Resolver) (scheme : String) :
    ∃ values, r.proxyForScheme scheme = firstNonEmpty values ∧
      ∀ value ∈ values, ∃ proxy ∈ r.cfg.proxies, proxy.2 = value := by
  unfold Resolver.proxyForScheme
  dsimp only
  generalize Strings.toLower (Strings.trimSpace scheme) = lower
  by_cases hhttp : lower = "http" ∨ lower = "ws"
  · rw [if_pos hhttp]
    exact ⟨_, rfl, by simp [Config.proxies]⟩
  · rw [if_neg hhttp]
    by_cases hhttps : lower = "https" ∨ lower = "wss"
    · rw [if_pos hhttps]
      exact ⟨_, rfl, by simp [Config.proxies]⟩
    · rw [if_neg hhttps]
      exact ⟨_, rfl, by simp [Config.proxies]⟩

omit [NetURL] [HTTPProxy] in
/-- A text that `proxyForScheme` selects is one of the proxy texts. -/
theorem proxyForScheme_mem {r : Resolver} {scheme : String}
    (h : r.proxyForScheme scheme ≠ "") :
    ∃ proxy ∈ r.cfg.proxies, proxy.2 = r.proxyForScheme scheme := by
  obtain ⟨values, heq, hvalues⟩ := proxyForScheme_eq r scheme
  rw [heq] at h ⊢
  exact hvalues _ ((firstNonEmpty_mem values).resolve_left h)

omit [HTTPProxy] in
/-- A URL that `parseProxyURL` returns has a host, and the text names it. -/
theorem parseProxyURL_some {raw : String} {url : URL} (h : parseProxyURL raw = .ok (some url)) :
    NetURL.parse (normalizeProxyURL raw) = some url ∧ url.host ≠ "" := by
  unfold parseProxyURL at h
  dsimp only at h
  split_ifs at h
  cases hparse : NetURL.parse (normalizeProxyURL raw) with
  | none =>
    rw [hparse] at h
    cases h
  | some parsed =>
    simp only [hparse] at h
    by_cases hhost : parsed.host = ""
    · simp only [hhost, if_true] at h
      cases h
    · simp only [hhost, if_false] at h
      split_ifs at h
      obtain rfl := Option.some.inj (Except.ok.inj h)
      exact ⟨rfl, hhost⟩

omit [HTTPProxy] in
/-- A text that is not refused and names a host parses to the proxy it names. -/
theorem parseProxyURL_of_namesHost {raw : String} (htidy : Tidy raw) (hraw : raw ≠ "")
    (hkept : refuses raw = false) (hnames : NamesHost raw) :
    ∃ url, parseProxyURL raw = .ok (some url) ∧ url.host ≠ "" ∧
      NetURL.parse (normalizeProxyURL raw) = some url ∧
      Strings.toLower url.scheme ∈ proxySchemes := by
  obtain ⟨url, hparse, hhost⟩ := hnames
  have hblank : Strings.trimSpace raw ≠ "" := fun h ↦ hraw (htidy h)
  simp only [refuses, ne_eq, hblank, not_false_eq_true, decide_true, Bool.true_and] at hkept
  refine ⟨url, ?_, hhost, hparse, ?_⟩
  all_goals
    unfold parseProxyURL at hkept
    dsimp only at hkept
    simp only [hparse, hhost, if_false] at hkept
    split_ifs at hkept with hempty hscheme
  · simp only [parseProxyURL, hempty, hparse, hhost, hscheme, if_true, if_false]
  · exact hscheme

/-- Assumes: `url.Parse` returns schemes in lower case. Of the requests for which the selected proxy
text is not empty and which are not exempt, those go to a proxy whose text names a host. -/
theorem proxied_iff_namesHost
    (hlower : ∀ (text : String) (url : URL), NetURL.parse text = some url →
      Strings.toLower url.scheme = url.scheme)
    (environ : List String) (r : Resolver) (hresolve : resolve environ = .ok r)
    (requestURL : URL) (hselected : r.proxyForScheme requestURL.scheme ≠ "")
    (hexempt : r.exempts requestURL = false) :
    r.Proxied requestURL ↔ NamesHost (r.proxyForScheme requestURL.scheme) := by
  have hproxyURL : r.proxyURL requestURL =
      match parseProxyURL (r.proxyForScheme requestURL.scheme) with
      | .error _ => .error "invalid outbound proxy configuration"
      | .ok url => .ok url := by
    simp only [Resolver.proxyURL, hexempt, hselected, Bool.false_eq_true, if_false]
  constructor
  · rintro ⟨proxy, hfound, -, -⟩
    rw [hproxyURL] at hfound
    split at hfound
    case h_1 => cases hfound
    case h_2 url hparsed =>
      cases hfound
      exact ⟨proxy, parseProxyURL_some hparsed⟩
  · intro hnames
    obtain ⟨proxy, hmem, heq⟩ := proxyForScheme_mem hselected
    obtain ⟨hkept, htidy⟩ := accepted_of_resolve hresolve proxy hmem
    rw [heq] at hkept htidy
    obtain ⟨url, hparsed, hhost, hparse, hscheme⟩ :=
      parseProxyURL_of_namesHost htidy hselected hkept hnames
    refine ⟨url, ?_, hhost, ?_⟩
    · rw [hproxyURL, hparsed]
    · rwa [hlower _ _ hparse] at hscheme

end

/-! ### Two environments -/

/-- The URLs of a proxy at `proxy.local:8080`, with and without its scheme, as `url.Parse` reads
them. -/
@[reducible]
def proxyLocal : NetURL where
  parse text :=
    if text = "http://proxy.local:8080" then some ⟨"http", "proxy.local:8080", false, "", "", ""⟩
    else if text = "proxy.local:8080" then some ⟨"proxy.local", "", false, "", "", "8080"⟩
    else none

/-- Its schemes are in lower case. -/
theorem proxyLocal_lower (text : String) (url : URL) (h : proxyLocal.parse text = some url) :
    Strings.toLower url.scheme = url.scheme := by
  change (if text = "http://proxy.local:8080" then _ else if text = "proxy.local:8080" then _
    else none) = some url at h
  split_ifs at h <;>
  · obtain rfl := Option.some.inj h
    decide

/-- A matcher for an empty list of exempt hosts: it finds the proxy of every HTTP request. -/
@[reducible]
def exemptNone : HTTPProxy where
  proxyFunc _ url :=
    if url.scheme = "http" ∨ url.scheme = "https" then
      .ok (some ⟨"http", "proxy.invalid", false, "", "", ""⟩)
    else .ok none

/-- The resolver that an accepted environment has. -/
theorem eq_ok_of_toOption {result : Except (List String) Resolver} {r : Resolver}
    (h : result.toOption = some r) : result = .ok r := by
  cases result with
  | error => cases h
  | ok => exact congrArg _ (Option.some.inj h)

/-- A request to `example.com`. -/
def exampleRequest : URL :=
  ⟨"http", "example.com", false, "", "", ""⟩

/-- With a scheme in `HTTP_PROXY`, the request goes to the proxy. -/
theorem proxied_iff_namesHost_scheme :
    ∃ r, @resolve proxyLocal exemptNone ["HTTP_PROXY=http://proxy.local:8080"] = .ok r ∧
      r.proxyForScheme exampleRequest.scheme = "http://proxy.local:8080" ∧
      r.exempts exampleRequest = false ∧ @Resolver.Proxied proxyLocal r exampleRequest := by
  let _ := proxyLocal
  let _ := exemptNone
  have heval : (resolve ["HTTP_PROXY=http://proxy.local:8080"]).toOption.any (fun r : Resolver ↦
      r.proxyForScheme exampleRequest.scheme == "http://proxy.local:8080" &&
        !r.exempts exampleRequest) = true := by
    decide +kernel
  obtain ⟨r, hresolve, htest⟩ := Option.any_eq_true _ _ |>.mp heval
  simp only [Bool.and_eq_true, beq_iff_eq, Bool.not_eq_true'] at htest
  have hresolve := eq_ok_of_toOption hresolve
  refine ⟨r, hresolve, htest.1, htest.2, ?_⟩
  refine (proxied_iff_namesHost proxyLocal_lower _ r hresolve exampleRequest (by simp [htest.1])
    htest.2).mpr ?_
  rw [htest.1]
  exact ⟨⟨"http", "proxy.local:8080", false, "", "", ""⟩, by decide +kernel, by decide⟩

/-- Without the scheme, `Resolve` accepts the variable as well, the text is selected, and the
request goes out directly. -/
theorem schemeless_proxy_bypassed :
    ∃ r, @resolve proxyLocal exemptNone ["HTTP_PROXY=proxy.local:8080"] = .ok r ∧
      r.proxyForScheme exampleRequest.scheme = "proxy.local:8080" ∧
      r.exempts exampleRequest = false ∧
      @Resolver.proxyURL proxyLocal r exampleRequest = .ok none ∧
      ¬ @Resolver.Proxied proxyLocal r exampleRequest := by
  let _ := proxyLocal
  let _ := exemptNone
  have heval : (resolve ["HTTP_PROXY=proxy.local:8080"]).toOption.any (fun r : Resolver ↦
      r.proxyForScheme exampleRequest.scheme == "proxy.local:8080" &&
        !r.exempts exampleRequest && r.proxyURL exampleRequest matches .ok none) = true := by
    decide +kernel
  obtain ⟨r, hresolve, htest⟩ := Option.any_eq_true _ _ |>.mp heval
  simp only [Bool.and_eq_true, beq_iff_eq, Bool.not_eq_true'] at htest
  have hdirect : r.proxyURL exampleRequest = .ok none := by
    have hmatches := htest.2
    split at hmatches
    · assumption
    · cases hmatches
  refine ⟨r, eq_ok_of_toOption hresolve, htest.1.1, htest.1.2, hdirect, ?_⟩
  rintro ⟨proxy, hfound, -⟩
  rw [hdirect] at hfound
  cases hfound

end CodexQueueBot.Proxyenv
