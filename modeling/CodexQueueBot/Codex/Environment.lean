import CodexQueueBot.Proxyenv.Environment

/-!
# The environment of the Codex child

`codexEnvironment` builds the environment of a Codex child from that of the bot: it normalises the
proxy variables, keeps the items whose name is on a list, and adds the key of the target. A runner
with a resolver first replaces the proxy variables by those of the resolver.

`codexEnvironment_isolated` says that the child depends on nothing else. Of two environments with
the same listed items it gets the same variables, so that no other variable of the bot can reach it,
not even through the proxies that are filled in.
-/

set_option autoImplicit false
set_option relaxedAutoImplicit false

namespace CodexQueueBot.Codex

open Go Proxyenv

/-- `apiKeyEnvName`. -/
def apiKeyEnvName : String :=
  "CODEX_QUEUE_TARGET_API_KEY"

/-- The names that `allowedCodexEnvironmentVariable` lists. -/
def allowedNames : List String :=
  ["PATH", "HOME", "USER", "LOGNAME", "TMPDIR", "TMP", "TEMP", "LANG", "LANGUAGE", "TZ",
   "HTTP_PROXY", "HTTPS_PROXY", "ALL_PROXY", "NO_PROXY",
   "http_proxy", "https_proxy", "all_proxy", "no_proxy",
   "SSL_CERT_FILE", "SSL_CERT_DIR", "REQUESTS_CA_BUNDLE", "CURL_CA_BUNDLE", "NODE_EXTRA_CA_CERTS"]

/-- `allowedCodexEnvironmentVariable`. -/
def allowedCodexEnvironmentVariable (name : String) : Bool :=
  if "LC_".toList.isPrefixOf name.toList then true else allowedNames.contains name

/-- The condition under which the loop of `codexEnvironment` keeps an item. -/
def keeps (item : String) : Bool :=
  match Strings.cut item '=' with
  | none => false
  | some (name, _) => !(name == apiKeyEnvName || !allowedCodexEnvironmentVariable name)

section

variable [NetURL]

/-- `codexEnvironment`. -/
def codexEnvironment (base : List String) (apiKey : String) : List String :=
  (Proxyenv.normalize base).filter keeps ++ [apiKeyEnvName ++ "=" ++ apiKey]

/-- `Runner.codexEnvironment`, for the resolver that the runner has. A nil resolver is `none`. -/
def Runner.codexEnvironment (resolver : Option Resolver) (base : List String) (apiKey : String) :
    List String :=
  let base := match resolver with
    | none => base
    | some resolver => normalizeEnvironment (some resolver) base
  Codex.codexEnvironment base apiKey

end

/-! ### Isolation -/

/-- An item has the form `name=value` with a name on the list. -/
def allowedItem (item : String) : Bool :=
  match Strings.cut item '=' with
  | none => false
  | some (name, _) => allowedCodexEnvironmentVariable name

/-- What a child may see of an environment: the items with a name on the list. -/
def visible (base : List String) : List String :=
  base.filter allowedItem

/-- A function from environments and keys to child environments isolates the child. What it returns
is listed items that do not bind the key's variable, and behind them the key. Of environments that
look the same to a child it makes the same child. -/
structure Isolates (environment : List String → String → List String) : Prop where
  items : ∀ base apiKey, ∃ kept, environment base apiKey =
      kept ++ [apiKeyEnvName ++ "=" ++ apiKey] ∧
    ∀ item ∈ kept, ∃ name value, Strings.cut item '=' = some (name, value) ∧
      allowedCodexEnvironmentVariable name = true ∧ name ≠ apiKeyEnvName
  noninterference : ∀ base other apiKey, visible base = visible other →
    environment base apiKey = environment other apiKey

/-- The proxy variables are on the list. -/
theorem allowed_of_isProxyVariable {name : String} (h : name ∈ proxyVariableNames) :
    allowedCodexEnvironmentVariable name = true := by
  have hall : ∀ name ∈ proxyVariableNames, allowedCodexEnvironmentVariable name = true := by
    decide
  exact hall name h

/-- An item that is kept has a name on the list. -/
theorem allowedItem_of_keeps {item : String} (h : keeps item = true) : allowedItem item = true := by
  unfold keeps at h
  unfold allowedItem
  split at h
  next => cases h
  next name value hcut =>
    simp only [Bool.not_eq_true', Bool.or_eq_false_iff, Bool.not_eq_false'] at h
    exact h.2

/-- What a configuration writes does not depend on what stands before it. -/
theorem appendTo_eq_append (cfg : Proxyenv.Config) (environ : List String) :
    cfg.appendTo environ = environ ++ cfg.appendTo [] := by
  have hpair : ∀ (environ : List String) (upper lower value : String),
      appendProxyPair environ upper lower value =
        environ ++ appendProxyPair [] upper lower value := by
    intro environ upper lower value
    rw [appendProxyPair, appendProxyPair]
    by_cases hvalue : value = ""
    · rw [if_pos hvalue, if_pos hvalue, List.append_nil]
    · rw [if_neg hvalue, if_neg hvalue, List.nil_append]
  have hfour : ∀ environ : List String, cfg.appendTo environ =
      environ ++ (appendProxyPair [] "HTTP_PROXY" "http_proxy" cfg.httpProxy ++
        (appendProxyPair [] "HTTPS_PROXY" "https_proxy" cfg.httpsProxy ++
          (appendProxyPair [] "ALL_PROXY" "all_proxy" cfg.allProxy ++
            appendProxyPair [] "NO_PROXY" "no_proxy" cfg.noProxy))) := by
    intro environ
    rw [Proxyenv.Config.appendTo, hpair _ "NO_PROXY", hpair _ "ALL_PROXY", hpair _ "HTTPS_PROXY",
      hpair environ]
    simp only [List.append_assoc]
  rw [hfour environ, hfour [], List.nil_append]

/-- Of the items that bind no proxy variable, those that are kept are visible. -/
theorem filter_keeps_withoutProxies (base : List String) :
    (withoutProxies base).filter keeps = (withoutProxies (visible base)).filter keeps := by
  rw [withoutProxies, withoutProxies, visible, List.filter_filter, List.filter_filter,
    List.filter_filter]
  refine List.filter_congr fun item _ ↦ ?_
  by_cases hkept : keeps item = true
  · rw [hkept, allowedItem_of_keeps hkept, Bool.and_true]
  · rw [Bool.eq_false_iff.mpr hkept, Bool.false_and, Bool.false_and]

variable [NetURL]

/-- The proxies of an environment are visible. -/
theorem fromEnvironment_visible (base : List String) :
    fromEnvironment base = fromEnvironment (visible base) := by
  refine fromEnvironment_congr fun name hname ↦ (bindings_filter
      (fun item value hcut ↦ ?_) base).symm
  rw [allowedItem, hcut]
  exact allowed_of_isProxyVariable hname

/-- Every child environment has the key behind listed items. -/
theorem codexEnvironment_items (base : List String) (apiKey : String) :
    ∃ kept, codexEnvironment base apiKey = kept ++ [apiKeyEnvName ++ "=" ++ apiKey] ∧
      ∀ item ∈ kept, ∃ name value, Strings.cut item '=' = some (name, value) ∧
        allowedCodexEnvironmentVariable name = true ∧ name ≠ apiKeyEnvName := by
  refine ⟨_, rfl, fun item hmem ↦ ?_⟩
  have hkept := (List.mem_filter.mp hmem).2
  unfold keeps at hkept
  split at hkept
  next => cases hkept
  next name value hcut =>
    simp only [Bool.not_eq_true', Bool.or_eq_false_iff, Bool.not_eq_false', beq_eq_false_iff_ne]
      at hkept
    exact ⟨name, value, hcut, hkept.2, hkept.1⟩

/-- The Codex child is isolated, with and without a resolver. -/
theorem codexEnvironment_isolated :
    Isolates codexEnvironment ∧ ∀ resolver, Isolates (Runner.codexEnvironment resolver) := by
  have hwritten : ∀ (cfg : Proxyenv.Config) (base other : List String), visible base =
      visible other →
      (cfg.appendTo (withoutProxies base)).filter keeps =
        (cfg.appendTo (withoutProxies other)).filter keeps := by
    intro cfg base other hvisible
    rw [appendTo_eq_append, List.filter_append, filter_keeps_withoutProxies, hvisible,
      ← filter_keeps_withoutProxies, ← List.filter_append, ← appendTo_eq_append]
  have hplain : Isolates codexEnvironment := by
    refine ⟨codexEnvironment_items, fun base other apiKey hvisible ↦ ?_⟩
    have hproxies : fromEnvironment base = fromEnvironment other := by
      rw [fromEnvironment_visible, hvisible, ← fromEnvironment_visible]
    rw [codexEnvironment, codexEnvironment, Proxyenv.normalize, Proxyenv.normalize, hproxies,
      hwritten _ base other hvisible]
  refine ⟨hplain, fun resolver ↦ ?_⟩
  cases resolver with
  | none => exact hplain
  | some resolver =>
      refine ⟨fun base apiKey ↦ codexEnvironment_items _ apiKey,
        fun base other apiKey hvisible ↦ ?_⟩
      have hnormalized : ∀ base, Proxyenv.normalize (normalizeEnvironment (some resolver) base) =
          resolver.cfg.reread.appendTo (withoutProxies base) := normalize_appendTo resolver.cfg
      simp only [Runner.codexEnvironment, codexEnvironment, hnormalized]
      rw [hwritten _ base other hvisible]

end CodexQueueBot.Codex
