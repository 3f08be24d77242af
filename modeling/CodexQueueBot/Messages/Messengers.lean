import CodexQueueBot.Messages.Generations

/-!
# Messengers and the clients behind them

The manager and the command handlers do not keep clients but messengers: a `messaging.Proxy` sends a
message to the client that it has at that time, and the default one passes it to the proxy of an
adapter. A `Reload` disconnects the proxies, closes the old clients and makes new ones; a `Close`
closes the clients first.

`messengers_connected` says what becomes of messages while calls come and go. There are never two
clients of one adapter that are not closed. Except during a `Close`, a proxy has no client that is
closed. And between the calls, the clients that are not closed are those that the last call has
asked for, each behind the proxy of its adapter.

Only calls change the `Wiring` of the runtime. The operations of a call come in a fixed order, so
that what is left to do tells what the call has done (`Wired`).
-/

set_option autoImplicit false
set_option relaxedAutoImplicit false

namespace CodexQueueBot.Messages

open Hub Lib

/-! ### Wiring -/

/-- A client without its status. -/
structure Badge where
  adapter : Adapter
  generation : ℕ
  cancelled : Bool
  deriving DecidableEq, Repr

/-- The badge of a client. -/
def Client.badge (client : Client) : Badge :=
  ⟨client.adapter, client.generation, client.cancelled⟩

/-- The part of a runtime that only calls change. -/
structure Wiring where
  generation : ℕ
  current : Adapter → Option ℕ
  proxy : Adapter → Option ℕ
  defaultProxy : Option Adapter
  badges : List Badge
  active : Option Call
  calls : List Request

/-- The wiring of a runtime. -/
def Runtime.wiring (runtime : Runtime) : Wiring where
  generation := runtime.generation
  current := runtime.current
  proxy := runtime.proxy
  defaultProxy := runtime.defaultProxy
  badges := runtime.clients.map Client.badge
  active := runtime.active
  calls := runtime.calls

/-- The wiring after a client is closed, if there is one. -/
def Wiring.cancel (w : Wiring) (client : Option ℕ) : Wiring :=
  match client with
  | none => w
  | some index =>
    { w with badges := w.badges.modify index fun badge ↦ { badge with cancelled := true } }

/-- A call asks for a client of an adapter. -/
def Request.wants : Request → Adapter → Bool
  | .reload cfg, .openILink => cfg.openILink.isOpenILinkEnabled && cfg.openILink.token ≠ ""
  | .reload cfg, .telegram => cfg.telegram.isTelegramEnabled && cfg.telegram.token ≠ ""
  | .close, _ => false

/-- The last call asks for a client of an adapter. -/
def wanted (calls : List Request) (adapter : Adapter) : Bool :=
  calls.getLast?.any (·.wants adapter)

/-- The adapter whose proxy the default one passes messages to, given those that clients are asked
for. -/
def defaultAdapter (wants : Adapter → Bool) : Option Adapter :=
  (if wants .openILink then some .openILink else none).or
    (if wants .telegram then some .telegram else none)

/-! ### The order of the operations -/

/-- What stands behind an element of a list without duplicates is in every suffix that has the
element. -/
theorem mem_of_pair_sublist {α : Type*} {a b : α} {l rest : List α} (hnodup : l.Nodup)
    (hpair : [a, b].Sublist l) (hrest : rest <:+ l) (ha : a ∈ rest) : b ∈ rest := by
  obtain ⟨front, rfl⟩ := hrest
  obtain ⟨first, second, hsplit, hfirst, hsecond⟩ := List.sublist_append_iff.mp hpair
  cases first with
  | nil =>
    rw [List.nil_append] at hsplit
    exact hsecond.subset (hsplit ▸ List.mem_cons_of_mem a List.mem_cons_self)
  | cons head tail =>
    obtain ⟨rfl, -⟩ := List.cons.inj hsplit
    exact absurd ha ((List.nodup_append.mp hnodup).2.2 a (hfirst.subset List.mem_cons_self) a · rfl)

/-- Pairs of operations of which the first comes before the second in every call. -/
inductive Precedes : Action → Action → Prop
  | disconnects (adapter : Adapter) : Precedes (.clearProxy adapter) (.setProxy adapter)
  | unsets (adapter : Adapter) : Precedes .clearDefault (.setDefault adapter)
  | connects (adapter : Adapter) : Precedes (.create adapter) (.setProxy adapter)
  | installs (adapter : Adapter) : Precedes (.create adapter) (.install adapter)
  | replaces (adapter other : Adapter) : Precedes (.stop adapter) (.create other)

variable {request : Request} {action first second : Action} {rest : List Action}
  {adapter other : Adapter}

/-- No operation is done twice. -/
theorem nodup_actions (request : Request) : (actions request).Nodup := by
  cases request with
  | reload cfg =>
    simp only [actions]
    split_ifs <;> decide
  | close => decide

theorem Precedes.sublist (h : Precedes first second) (hsecond : second ∈ actions request) :
    [first, second].Sublist (actions request) := by
  revert hsecond
  cases request with
  | reload cfg =>
    simp only [actions]
    cases h with
    | disconnects adapter | unsets adapter | connects adapter | installs adapter =>
      cases adapter <;> split_ifs <;> decide
    | replaces adapter other => cases adapter <;> cases other <;> split_ifs <;> decide
  | close =>
    cases h with
    | disconnects adapter | unsets adapter | connects adapter | installs adapter =>
      cases adapter <;> decide
    | replaces adapter other => cases adapter <;> cases other <;> decide

/-- While the first of two operations is left to do, the second is. -/
theorem Precedes.mem (h : Precedes first second) (hrest : rest <:+ actions request)
    (hsecond : second ∈ actions request) (hfirst : first ∈ rest) : second ∈ rest :=
  mem_of_pair_sublist (nodup_actions request) (h.sublist hsecond) hrest hfirst

/-- A `Reload` disconnects the proxies before it closes a client. -/
theorem stop_mem_of_clearProxy {cfg : CodexQueueBot.Config}
    (hrest : rest <:+ actions (.reload cfg)) (hclear : .clearProxy adapter ∈ rest) :
    .stop other ∈ rest := by
  refine mem_of_pair_sublist (nodup_actions _) ?_ hrest hclear
  simp only [actions]
  cases adapter <;> cases other <;> split_ifs <;> decide

/-- The operations that a call does for the sake of a client are those for the clients that it is
asked for. -/
theorem starts_iff : (.create adapter ∈ actions request ↔ request.wants adapter = true) ∧
    (.setProxy adapter ∈ actions request ↔ request.wants adapter = true) ∧
    (.setDefault adapter ∈ actions request ↔ request.wants adapter = true) ∧
    (.install adapter ∈ actions request ↔ request.wants adapter = true) := by
  cases request with
  | reload cfg =>
    simp only [actions]
    cases adapter <;> split_ifs <;> simp_all [Request.wants, startActions]
  | close => simp [actions, Request.wants]

/-- Every call disconnects the proxies and closes the old clients. -/
theorem ends_mem (request : Request) (adapter : Adapter) :
    .clearProxy adapter ∈ actions request ∧ .clearDefault ∈ actions request ∧
      .stop adapter ∈ actions request := by
  cases request <;> cases adapter <;> simp [actions]

/-! ### The invariant -/

/-- A call has done an operation: it is none of those that are left. -/
def did (request : Request) (rest : List Action) (action : Action) : Bool :=
  action ∈ actions request && action ∉ rest

theorem did_eq_true_iff : did request rest action = true ↔ action ∈ actions request ∧
    action ∉ rest := by
  simp [did]

theorem did_cons : did request (first :: rest) action =
    (did request rest action && decide (action ≠ first)) := by
  by_cases hsame : action = first <;> simp [did, hsame]

/-- What a call has made of the wiring. -/
structure Wired (w : Wiring) (request : Request) (call : Call) : Prop where
  generation : call.generation = w.generation
  rest : call.rest <:+ actions request
  old : ∀ adapter index, call.old adapter = some index → ∃ generation < call.generation,
    w.badges[index]? = some ⟨adapter, generation, decide (.stop adapter ∉ call.rest)⟩
  made : ∀ adapter index, call.made adapter = some index →
    w.badges[index]? = some ⟨adapter, call.generation, false⟩
  created : ∀ adapter,
    (call.made adapter).isSome = true ↔ did request call.rest (.create adapter)
  live : ∀ index badge, w.badges[index]? = some badge → badge.cancelled = false →
    call.old badge.adapter = some index ∨ call.made badge.adapter = some index
  proxy : ∀ adapter, w.proxy adapter =
    if .clearProxy adapter ∈ call.rest then call.old adapter
    else if did request call.rest (.setProxy adapter) then call.made adapter else none
  current : ∀ adapter, w.current adapter =
    if did request call.rest (.install adapter) then call.made adapter else none
  default : .clearDefault ∉ call.rest →
    w.defaultProxy = defaultAdapter fun adapter ↦ did request call.rest (.setDefault adapter)

/-- The wiring between the calls. -/
structure Wiring.Settled (w : Wiring) : Prop where
  proxy : ∀ adapter, w.proxy adapter = w.current adapter
  current : ∀ adapter index, w.current adapter = some index →
    w.badges[index]? = some ⟨adapter, w.generation, false⟩
  live : ∀ index badge, w.badges[index]? = some badge → badge.cancelled = false →
    w.current badge.adapter = some index
  wanted : ∀ adapter, (w.current adapter).isSome = wanted w.calls adapter
  default : w.defaultProxy = defaultAdapter (Messages.wanted w.calls)

/-- The wiring is settled, or as the active call has made it. -/
structure Wiring.Connected (w : Wiring) : Prop where
  settled : w.active = none → w.Settled
  wired : ∀ call, w.active = some call →
    ∃ request, w.calls.getLast? = some request ∧ Wired w request call

/-! ### The operations of a call -/

variable {w : Wiring} {call : Call}

/-- The operation that a call does next is left to do, and once only. -/
theorem Wired.head (h : Wired w request call) (hcons : call.rest = action :: rest) :
    action ∈ actions request ∧ action ∉ rest := by
  have hsuffix := h.rest
  rw [hcons] at hsuffix
  have hnodup := hsuffix.sublist.nodup (nodup_actions request)
  exact ⟨hsuffix.subset List.mem_cons_self, (List.nodup_cons.mp hnodup).1⟩

/-- What is left to do afterwards. -/
theorem Wired.tail (h : Wired w request call) (hcons : call.rest = action :: rest) :
    rest <:+ actions request :=
  (List.suffix_cons action rest).trans (hcons ▸ h.rest)

/-- An operation that comes after the next one is still left to do. -/
theorem Wired.later (h : Wired w request call) (hcons : call.rest = action :: rest)
    (hprecedes : Precedes action second) : did request call.rest second = false := by
  rw [Bool.eq_false_iff]
  intro hdid
  obtain ⟨hmem, hleft⟩ := did_eq_true_iff.mp hdid
  exact hleft (hprecedes.mem h.rest hmem (hcons ▸ List.mem_cons_self))

/-- An operation is done after it was the next one. -/
theorem Wired.did_head (h : Wired w request call) (hcons : call.rest = action :: rest) :
    did request rest action = true :=
  did_eq_true_iff.mpr (h.head hcons)

/-- A proxy is disconnected. -/
theorem Wired.clearProxy (h : Wired w request call)
    (hcons : call.rest = .clearProxy adapter :: rest) :
    Wired { w with proxy := Function.update w.proxy adapter none } request { call with rest } where
  generation := h.generation
  rest := h.tail hcons
  old := by simpa [hcons] using h.old
  made := h.made
  created := by simpa [hcons, did_cons] using h.created
  live := h.live
  proxy other := by
    have hlater := h.later hcons (.disconnects adapter)
    have hother := h.proxy other
    rw [hcons, did_cons] at hlater hother
    by_cases hsame : other = adapter
    · subst hsame
      simp only [ne_eq, reduceCtorEq, not_false_eq_true, decide_true, Bool.and_true] at hlater
      simp [(h.head hcons).2, hlater]
    · simpa [Function.update_of_ne hsame, hsame] using hother
  current := by simpa [hcons, did_cons] using h.current
  default := by simpa [hcons, did_cons] using h.default

/-- The default messenger is disconnected. -/
theorem Wired.clearDefault (h : Wired w request call)
    (hcons : call.rest = .clearDefault :: rest) :
    Wired { w with defaultProxy := none } request { call with rest } where
  generation := h.generation
  rest := h.tail hcons
  old := by simpa [hcons] using h.old
  made := h.made
  created := by simpa [hcons, did_cons] using h.created
  live := h.live
  proxy := by simpa [hcons, did_cons] using h.proxy
  current := by simpa [hcons, did_cons] using h.current
  default _ := by
    have hopen := h.later hcons (.unsets .openILink)
    have htelegram := h.later hcons (.unsets .telegram)
    simp only [hcons, did_cons] at hopen htelegram
    simp_all [defaultAdapter]

/-- An operation that the wiring does not depend on. -/
theorem Wired.skip (h : Wired w request call) (hcons : call.rest = action :: rest)
    (haction : action = .disable adapter ∨ action = .connecting adapter ∨
      action = .forward adapter) : Wired w request { call with rest } := by
  have htail := h.tail hcons
  constructor
  · exact h.generation
  · exact htail
  · rcases haction with rfl | rfl | rfl <;> simpa [hcons] using h.old
  · exact h.made
  · rcases haction with rfl | rfl | rfl <;> simpa [hcons, did_cons] using h.created
  · exact h.live
  · rcases haction with rfl | rfl | rfl <;> simpa [hcons, did_cons] using h.proxy
  · rcases haction with rfl | rfl | rfl <;> simpa [hcons, did_cons] using h.current
  · rcases haction with rfl | rfl | rfl <;> simpa [hcons, did_cons] using h.default

/-- A new client is put behind its proxy. -/
theorem Wired.setProxy (h : Wired w request call)
    (hcons : call.rest = .setProxy adapter :: rest) :
    Wired { w with proxy := Function.update w.proxy adapter (call.made adapter) } request
      { call with rest } where
  generation := h.generation
  rest := h.tail hcons
  old := by simpa [hcons] using h.old
  made := h.made
  created := by simpa [hcons, did_cons] using h.created
  live := h.live
  proxy other := by
    have hother := h.proxy other
    by_cases hsame : other = adapter
    · subst hsame
      have hclear : .clearProxy other ∉ rest := fun hclear ↦
        (h.head hcons).2 ((Precedes.disconnects other).mem (h.tail hcons) (h.head hcons).1 hclear)
      simp [hclear, h.did_head hcons]
    · simpa [hcons, did_cons, Function.update_of_ne hsame, hsame] using hother
  current := by simpa [hcons, did_cons] using h.current
  default := by simpa [hcons, did_cons] using h.default

/-- A new client becomes the one of the runtime. -/
theorem Wired.install (h : Wired w request call)
    (hcons : call.rest = .install adapter :: rest) :
    Wired { w with current := Function.update w.current adapter (call.made adapter) } request
      { call with rest } where
  generation := h.generation
  rest := h.tail hcons
  old := by simpa [hcons] using h.old
  made := h.made
  created := by simpa [hcons, did_cons] using h.created
  live := h.live
  proxy := by simpa [hcons, did_cons] using h.proxy
  current other := by
    by_cases hsame : other = adapter
    · subst hsame
      simp [h.did_head hcons]
    · simpa [hcons, did_cons, Function.update_of_ne hsame, hsame] using h.current other
  default := by simpa [hcons, did_cons] using h.default

/-- The proxy of an adapter becomes the default one, where OpenILink goes before Telegram. -/
theorem Wired.setDefault (h : Wired w request call)
    (hcons : call.rest = .setDefault adapter :: rest) :
    Wired { w with defaultProxy := match adapter with
      | .openILink => some .openILink
      | .telegram => w.defaultProxy.or (some .telegram) } request { call with rest } where
  generation := h.generation
  rest := h.tail hcons
  old := by simpa [hcons] using h.old
  made := h.made
  created := by simpa [hcons, did_cons] using h.created
  live := h.live
  proxy := by simpa [hcons, did_cons] using h.proxy
  current := by simpa [hcons, did_cons] using h.current
  default hclear := by
    have hdid := h.did_head hcons
    have hdefault := h.default (by simpa [hcons] using hclear)
    cases adapter with
    | openILink => simp [defaultAdapter, hdid]
    | telegram => simp [hdefault, hcons, did_cons, defaultAdapter, hdid]

theorem getElem?_cancel (w : Wiring) (client : Option ℕ) (index : ℕ) :
    (w.cancel client).badges[index]? =
      if client = some index then
        w.badges[index]?.map fun badge ↦ { badge with cancelled := true }
      else w.badges[index]? := by
  cases client with
  | none => simp [Wiring.cancel]
  | some closed =>
    simp only [Wiring.cancel, List.getElem?_modify, Option.some.injEq]
    split_ifs
    · rfl
    · simp

/-- An old client is closed. -/
theorem Wired.stop (h : Wired w request call) (hcons : call.rest = .stop adapter :: rest) :
    Wired (w.cancel (call.old adapter)) request { call with rest } := by
  have hframe : (w.cancel (call.old adapter)).generation = w.generation ∧
      (w.cancel (call.old adapter)).proxy = w.proxy ∧
      (w.cancel (call.old adapter)).current = w.current ∧
      (w.cancel (call.old adapter)).defaultProxy = w.defaultProxy := by
    cases call.old adapter <;> exact ⟨rfl, rfl, rfl, rfl⟩
  constructor
  · exact h.generation.trans hframe.1.symm
  · exact h.tail hcons
  · intro other index hold
    obtain ⟨generation, hlt, hbadge⟩ := h.old other index hold
    refine ⟨generation, hlt, ?_⟩
    rw [getElem?_cancel, hbadge]
    by_cases hsame : other = adapter
    · subst hsame
      rw [if_pos hold, decide_eq_true (h.head hcons).2]
      rfl
    · have hapart : call.old adapter ≠ some index := by
        intro hclosed
        obtain ⟨_, -, hclosedBadge⟩ := h.old adapter index hclosed
        rw [hbadge] at hclosedBadge
        exact hsame (congrArg Badge.adapter (Option.some.inj hclosedBadge))
      simp [hapart, hcons, hsame]
  · intro other index hmade
    have hbadge := h.made other index hmade
    have hapart : call.old adapter ≠ some index := by
      intro hclosed
      obtain ⟨generation, hlt, hclosedBadge⟩ := h.old adapter index hclosed
      rw [hbadge] at hclosedBadge
      exact Nat.ne_of_gt hlt (congrArg Badge.generation (Option.some.inj hclosedBadge))
    rw [getElem?_cancel, if_neg hapart]
    exact hbadge
  · simpa [hcons, did_cons] using h.created
  · intro index badge hbadge hrunning
    rw [getElem?_cancel] at hbadge
    split_ifs at hbadge
    · obtain ⟨_, -, rfl⟩ := Option.map_eq_some_iff.mp hbadge
      cases hrunning
    · exact h.live index badge hbadge hrunning
  · rw [hframe.2.1]
    simpa [hcons, did_cons] using h.proxy
  · rw [hframe.2.2.1]
    simpa [hcons, did_cons] using h.current
  · rw [hframe.2.2.2]
    simpa [hcons, did_cons] using h.default

/-- A client is made. -/
theorem Wired.create (h : Wired w request call) (hcons : call.rest = .create adapter :: rest) :
    Wired { w with badges := w.badges ++ [⟨adapter, call.generation, false⟩] } request
      { call with
        made := Function.update call.made adapter (some w.badges.length)
        rest } := by
  have hnone : call.made adapter = none := by
    rw [← Option.not_isSome_iff_eq_none, h.created, did_eq_true_iff, hcons]
    simp
  have hkept : ∀ (index : ℕ) (badge : Badge), w.badges[index]? = some badge →
      (w.badges ++ [⟨adapter, call.generation, false⟩])[index]? = some badge := by
    intro index badge hbadge
    rw [List.getElem?_append_left (List.getElem?_eq_some_iff.mp hbadge).1]
    exact hbadge
  constructor
  · exact h.generation
  · exact h.tail hcons
  · intro other index hold
    obtain ⟨generation, hlt, hbadge⟩ := h.old other index hold
    refine ⟨generation, hlt, ?_⟩
    simpa [hcons] using hkept index _ hbadge
  · intro other index
      (hmade : Function.update call.made adapter (some w.badges.length) other = some index)
    by_cases hsame : other = adapter
    · subst hsame
      rw [Function.update_self] at hmade
      rw [← Option.some.inj hmade]
      exact List.getElem?_concat_length
    · rw [Function.update_of_ne hsame] at hmade
      exact hkept index _ (h.made other index hmade)
  · intro other
    by_cases hsame : other = adapter
    · subst hsame
      simp [h.did_head hcons]
    · simpa [hcons, did_cons, Function.update_of_ne hsame, hsame] using h.created other
  · intro index badge hbadge hrunning
    change call.old badge.adapter = some index ∨
      Function.update call.made adapter (some w.badges.length) badge.adapter = some index
    rw [List.getElem?_append] at hbadge
    split_ifs at hbadge with hlength
    · refine (h.live index badge hbadge hrunning).imp_right fun hmade ↦ ?_
      have hother : badge.adapter ≠ adapter := by
        intro hsame
        rw [hsame, hnone] at hmade
        cases hmade
      rw [Function.update_of_ne hother]
      exact hmade
    · rw [List.getElem?_singleton] at hbadge
      split_ifs at hbadge with hlast
      obtain rfl : index = w.badges.length := by omega
      rw [← Option.some.inj hbadge]
      exact Or.inr (Function.update_self _ _ _)
  · intro other
    have hother := h.proxy other
    by_cases hsame : other = adapter
    · subst hsame
      have hlater := h.later hcons (.connects other)
      simp only [hcons, did_cons] at hlater hother
      simp_all
    · simpa [hcons, did_cons, Function.update_of_ne hsame] using hother
  · intro other
    have hother := h.current other
    by_cases hsame : other = adapter
    · subst hsame
      have hlater := h.later hcons (.installs other)
      simp only [hcons, did_cons] at hlater hother
      simp_all
    · simpa [hcons, did_cons, Function.update_of_ne hsame] using hother
  · simpa [hcons, did_cons] using h.default

/-- Which call is active makes no difference to the wiring as a call has made it. -/
theorem Wired.activate (h : Wired w request call) (active : Option Call) :
    Wired { w with active } request call :=
  ⟨h.generation, h.rest, h.old, h.made, h.created, h.live, h.proxy, h.current, h.default⟩

namespace Runtime

variable {runtime runtime' : Runtime}

/-- Closing a client changes the wiring by its badge. -/
theorem wiring_stop (runtime : Runtime) (client : Option ℕ) :
    (runtime.stop client).wiring = runtime.wiring.cancel client := by
  cases client with
  | none => rfl
  | some index =>
    have hbadges : (runtime.clients.modify index fun client ↦ { client with cancelled := true }).map
        Client.badge =
        (runtime.clients.map Client.badge).modify index fun badge ↦
          { badge with cancelled := true } := by
      refine List.ext_getElem? fun other ↦ ?_
      simp only [List.getElem?_map, List.getElem?_modify, Option.map_eq_map, Option.map_map]
      split_ifs <;> rfl
    simp only [wiring, stop, Wiring.cancel, hbadges]

/-- An operation of the active call. -/
theorem wired_perform (h : Wired runtime.wiring request call) (hcons : call.rest = action :: rest)
    (hstep : ({ runtime with active := some { call with rest } } : Runtime).perform
      { call with rest } action = some runtime') :
    ∃ call', runtime'.active = some call' ∧ runtime'.calls = runtime.calls ∧
      Wired runtime'.wiring request call' := by
  cases action with
  | clearProxy adapter =>
    rw [← Option.some.inj hstep]
    exact ⟨_, rfl, rfl, (h.clearProxy hcons).activate _⟩
  | clearDefault =>
    rw [← Option.some.inj hstep]
    exact ⟨_, rfl, rfl, (h.clearDefault hcons).activate _⟩
  | stop adapter =>
    rw [← Option.some.inj hstep]
    have hwiring := wiring_stop { runtime with active := some { call with rest } }
      (call.old adapter)
    have hactive := (h.activate (some { call with rest })).stop hcons
    refine ⟨{ call with rest }, ?_, ?_, ?_⟩
    · cases call.old adapter <;> rfl
    · cases call.old adapter <;> rfl
    · exact hwiring ▸ hactive
  | disable adapter =>
    rw [← Option.some.inj hstep]
    exact ⟨_, rfl, rfl, (h.skip hcons (Or.inl rfl)).activate _⟩
  | create adapter =>
    rw [← Option.some.inj hstep]
    refine ⟨_, rfl, rfl, ?_⟩
    have hcreate := (h.create hcons).activate (some { call with
      made := Function.update call.made adapter (some runtime.clients.length)
      rest })
    have hbadge : (Client.new adapter call.generation).badge =
        ⟨adapter, call.generation, false⟩ := rfl
    simpa only [wiring, List.map_append, List.map_cons, List.map_nil, List.length_map, hbadge]
      using hcreate
  | setProxy adapter =>
    rw [← Option.some.inj hstep]
    exact ⟨_, rfl, rfl, (h.setProxy hcons).activate _⟩
  | setDefault adapter =>
    cases adapter with
    | openILink | telegram =>
      rw [← Option.some.inj hstep]
      exact ⟨_, rfl, rfl, (h.setDefault hcons).activate _⟩
  | connecting adapter =>
    rw [← Option.some.inj hstep]
    exact ⟨_, rfl, rfl, (h.skip hcons (Or.inr (Or.inl rfl))).activate _⟩
  | install adapter =>
    rw [← Option.some.inj hstep]
    exact ⟨_, rfl, rfl, (h.install hcons).activate _⟩
  | forward adapter =>
    obtain ⟨client, -, hresult⟩ := Option.bind_eq_some_iff.mp hstep
    rw [← Option.some.inj hresult]
    exact ⟨_, rfl, rfl, (h.skip hcons (Or.inr (Or.inr rfl))).activate _⟩

/-! ### Steps and runs -/

/-- The wiring after a call has returned. -/
theorem settled_of_wired (h : Wired runtime.wiring request call) (hnil : call.rest = [])
    (hlast : runtime.calls.getLast? = some request) (returned : List ℕ) :
    ({ runtime with active := none, returned } : Runtime).wiring.Settled := by
  have hwanted : wanted runtime.calls = request.wants := by
    funext adapter
    simp [wanted, hlast]
  have hdid : ∀ {action adapter}, (action ∈ actions request ↔ request.wants adapter = true) →
      did request call.rest action = request.wants adapter := by
    intro action adapter hwants
    rw [Bool.eq_iff_iff, did_eq_true_iff, hnil, hwants]
    simp
  have hmade : ∀ adapter, (call.made adapter).isSome = request.wants adapter := by
    intro adapter
    rw [Bool.eq_iff_iff, h.created, hdid starts_iff.1]
  have hnone : ∀ adapter, request.wants adapter = false → call.made adapter = none := by
    intro adapter hunwanted
    rw [← Option.not_isSome_iff_eq_none, hmade, hunwanted]
    exact Bool.false_ne_true
  have hcurrent : ∀ adapter, runtime.current adapter = call.made adapter := by
    intro adapter
    have hcurrent : runtime.current adapter = _ := h.current adapter
    rw [hcurrent, hdid starts_iff.2.2.2]
    split_ifs with hwants
    · rfl
    · rw [hnone adapter (Bool.eq_false_iff.mpr hwants)]
  have hproxy : ∀ adapter, runtime.proxy adapter = call.made adapter := by
    intro adapter
    have hproxy : runtime.proxy adapter = _ := h.proxy adapter
    rw [hproxy, if_neg (hnil ▸ List.not_mem_nil), hdid starts_iff.2.1]
    split_ifs with hwants
    · rfl
    · rw [hnone adapter (Bool.eq_false_iff.mpr hwants)]
  constructor
  · exact fun adapter ↦ (hproxy adapter).trans (hcurrent adapter).symm
  · intro adapter index hindex
    have hbadge := h.made adapter index ((hcurrent adapter).symm.trans hindex)
    rw [h.generation] at hbadge
    exact hbadge
  · intro index badge hbadge hrunning
    rcases h.live index badge hbadge hrunning with hold | hnew
    · obtain ⟨generation, -, hclosed⟩ := h.old badge.adapter index hold
      have hsame : badge = _ := Option.some.inj (hbadge.symm.trans hclosed)
      rw [hsame, hnil] at hrunning
      cases hrunning
    · exact (hcurrent badge.adapter).trans hnew
  · intro adapter
    change (runtime.current adapter).isSome = wanted runtime.calls adapter
    rw [hcurrent, hmade, hwanted]
  · change runtime.defaultProxy = defaultAdapter (wanted runtime.calls)
    have hdefault : runtime.defaultProxy = _ := h.default (by simp [hnil])
    rw [hdefault, hwanted]
    congr 1
    funext adapter
    exact hdid starts_iff.2.2.1

/-- The start of a call. -/
theorem wired_start (h : runtime.wiring.Settled) (request : Request) :
    Wired (runtime.start request).wiring request
      ⟨runtime.generation + 1, runtime.current, fun _ ↦ none, actions request⟩ := by
  have hleft : ∀ action, did request (actions request) action = false := by
    intro action
    simp [did]
  constructor
  · rfl
  · exact List.suffix_rfl
  · intro adapter index hold
    refine ⟨runtime.generation, Nat.lt_succ_self _, ?_⟩
    rw [decide_eq_false (not_not_intro (ends_mem request adapter).2.2)]
    exact h.current adapter index hold
  · intro adapter index hmade
    cases hmade
  · intro adapter
    simp [hleft]
  · intro index badge hbadge hrunning
    exact Or.inl (h.live index badge hbadge hrunning)
  · intro adapter
    rw [if_pos (ends_mem request adapter).1]
    exact h.proxy adapter
  · intro adapter
    rw [hleft]
    rfl
  · intro hclear
    exact absurd (ends_mem request .openILink).2.1 hclear

/-- A change of clients that leaves their badges. -/
theorem badges_modify (clients : List Client) (index : ℕ) {change : Client → Client}
    (hchange : ∀ client, (change client).badge = client.badge) :
    (clients.modify index change).map Client.badge = clients.map Client.badge := by
  refine List.ext_getElem? fun other ↦ ?_
  rw [List.getElem?_map, List.getElem?_map, List.getElem?_modify]
  cases clients[other]? with
  | none => rfl
  | some client =>
    simp only [Option.map_eq_map, Option.map_some]
    split_ifs
    · rw [hchange]
    · rfl

/-- A move of a forwarder leaves the wiring. -/
theorem wiring_moveForwarder (runtime : Runtime) (index : ℕ) (forwarder : Forwarder)
    (status : StatusStore) : (runtime.moveForwarder index forwarder status).wiring =
      runtime.wiring := by
  simp only [wiring, moveForwarder]
  rw [badges_modify]
  exact fun _ ↦ rfl

/-- A forwarder leaves the wiring. -/
theorem wiring_forward {index : ℕ} {done : Bool}
    (hstep : runtime.forward index done = some runtime') : runtime'.wiring = runtime.wiring := by
  obtain ⟨forwarder, -, hrest⟩ := Option.bind_eq_some_iff.mp hstep
  obtain ⟨client, -, hmove⟩ := Option.bind_eq_some_iff.mp hrest
  split at hmove
  next =>
    rw [← Option.some.inj hmove]
    exact wiring_moveForwarder _ _ _ _
  next update _ =>
    rw [← Option.some.inj hmove, setStatusIfCurrent]
    split_ifs <;> rfl
  next =>
    split_ifs at hmove
    · rw [← Option.some.inj hmove]
      exact wiring_moveForwarder _ _ _ _
    · obtain ⟨⟨update, store⟩, -, hupdate⟩ := Option.bind_eq_some_iff.mp hmove
      cases update with
      | some update | none =>
        rw [← Option.some.inj hupdate]
        exact wiring_moveForwarder _ _ _ _
  next =>
    rw [← Option.some.inj hmove]
    exact wiring_moveForwarder _ _ _ _
  next => cases hmove

/-- Every step keeps the messengers connected. -/
theorem connected_step {label : Label} (h : runtime.wiring.Connected)
    (hstep : runtime.step label = some runtime') : runtime'.wiring.Connected := by
  cases label with
  | call request =>
    rw [step] at hstep
    split_ifs at hstep with hidle
    rw [← Option.some.inj hstep]
    refine ⟨fun hnone ↦ absurd hnone (Option.some_ne_none _), ?_⟩
    intro call hactive
    obtain rfl := Option.some.inj hactive
    have hsettled := h.settled (Option.isNone_iff_eq_none.mp hidle)
    exact ⟨request, List.getLast?_concat, wired_start hsettled request⟩
  | advance =>
    obtain ⟨call, hactive, hnext⟩ := Option.bind_eq_some_iff.mp hstep
    obtain ⟨request, hlast, hwired⟩ := h.wired call hactive
    split at hnext
    next hnil =>
      rw [← Option.some.inj hnext]
      exact ⟨fun _ ↦ settled_of_wired hwired hnil hlast _,
        fun _ hnone ↦ absurd hnone.symm (Option.some_ne_none _)⟩
    next action rest hcons =>
      obtain ⟨call', hactive', hcalls, hwired'⟩ := wired_perform hwired hcons hnext
      refine ⟨fun hnone ↦ absurd (hactive'.symm.trans hnone) (Option.some_ne_none _), ?_⟩
      intro other hother
      obtain rfl := Option.some.inj (hactive'.symm.trans hother)
      exact ⟨request, (congrArg List.getLast? hcalls).trans hlast, hwired'⟩
  | emit client state errorText =>
    rw [step, emit] at hstep
    split_ifs at hstep
    rw [← Option.some.inj hstep]
    have hwiring : ({ runtime with
        clients := runtime.clients.modify client (·.emit state errorText) } : Runtime).wiring =
        runtime.wiring := by
      simp only [wiring]
      rw [badges_modify]
      exact fun _ ↦ rfl
    exact hwiring ▸ h
  | forward forwarder done => exact wiring_forward hstep ▸ h
  | cancelRoot =>
    rw [← Option.some.inj hstep]
    exact h

/-- In every reachable state the messengers are connected. -/
theorem Reachable.connected (h : runtime.Reachable) : runtime.wiring.Connected := by
  have hnew : new.wiring.Connected := by
    refine ⟨fun _ ↦ ?_, fun _ hnone ↦ absurd hnone.symm (Option.some_ne_none _)⟩
    constructor
    · exact fun _ ↦ rfl
    · exact fun _ _ hnone ↦ absurd hnone.symm (Option.some_ne_none _)
    · exact fun _ _ hnone ↦ absurd hnone.symm (Option.some_ne_none _)
    · exact fun _ ↦ rfl
    · rfl
  exact Steps.invariant (P := fun runtime : Runtime ↦ runtime.wiring.Connected)
    (fun _ _ _ hconnected _ hstep ↦ connected_step hconnected hstep) h hnew

/-! ### Where messages go -/

/-- A client of an adapter that has not been closed. -/
def Running (runtime : Runtime) (adapter : Adapter) (index : ℕ) : Prop :=
  ∃ client, runtime.clients[index]? = some client ∧ client.adapter = adapter ∧
    client.cancelled = false

/-- A `Close` is under way. -/
def Closing (runtime : Runtime) : Prop :=
  runtime.active.isSome = true ∧ runtime.calls.getLast? = some .close

/-- The client that the default messenger passes a message to. Without one, `Send` returns
`ErrUnavailable`. -/
def recipient (runtime : Runtime) : Option ℕ :=
  runtime.defaultProxy.bind runtime.proxy

/-- A client that has not been closed has the badge of one. -/
theorem running_iff {adapter : Adapter} {index : ℕ} : runtime.Running adapter index ↔
    ∃ generation, runtime.wiring.badges[index]? = some ⟨adapter, generation, false⟩ := by
  simp only [Running, wiring, List.getElem?_map, Option.map_eq_some_iff, Client.badge,
    Badge.mk.injEq]
  constructor
  · rintro ⟨client, hclient, hadapter, hrunning⟩
    exact ⟨client.generation, client, hclient, hadapter, rfl, hrunning⟩
  · rintro ⟨generation, client, hclient, hadapter, -, hrunning⟩
    exact ⟨client, hclient, hadapter, hrunning⟩

/-- While a call is active, a client that runs is an old one that is still to be closed, or one that
the call has made. -/
theorem old_or_made_of_running {index : ℕ} (h : Wired runtime.wiring request call)
    (hrunning : runtime.Running adapter index) :
    (call.old adapter = some index ∧ .stop adapter ∈ call.rest) ∨
      call.made adapter = some index := by
  obtain ⟨generation, hbadge⟩ := running_iff.mp hrunning
  refine (h.live index _ hbadge rfl).imp_left fun hold ↦ ⟨hold, ?_⟩
  obtain ⟨_, -, hsame⟩ := h.old adapter index hold
  have hcancelled := congrArg Badge.cancelled (Option.some.inj (hbadge.symm.trans hsame))
  simpa using hcancelled.symm

/-- While an old client of an adapter is still to be closed, a call has made no client. -/
theorem made_eq_none_of_stop (h : Wired runtime.wiring request call)
    (hstop : .stop adapter ∈ call.rest) (other : Adapter) : call.made other = none := by
  rw [← Option.not_isSome_iff_eq_none, h.created, did_eq_true_iff]
  rintro ⟨hmem, hleft⟩
  exact hleft ((Precedes.replaces adapter other).mem h.rest hmem hstop)

/-- Two clients of one adapter do not run at the same time. -/
theorem running_unique {first second : ℕ} (h : runtime.Reachable)
    (hfirst : runtime.Running adapter first) (hsecond : runtime.Running adapter second) :
    first = second := by
  cases hactive : runtime.active with
  | none =>
    have hsettled := h.connected.settled hactive
    obtain ⟨_, hfirst⟩ := running_iff.mp hfirst
    obtain ⟨_, hsecond⟩ := running_iff.mp hsecond
    have hcurrent : runtime.current adapter = some first := hsettled.live first _ hfirst rfl
    have hcurrent' : runtime.current adapter = some second := hsettled.live second _ hsecond rfl
    exact Option.some.inj (hcurrent.symm.trans hcurrent')
  | some call =>
    obtain ⟨request, -, hwired⟩ := h.connected.wired call hactive
    rcases old_or_made_of_running hwired hfirst with ⟨hold, hstop⟩ | hmade
    · rcases old_or_made_of_running hwired hsecond with ⟨hold', -⟩ | hmade'
      · exact Option.some.inj (hold.symm.trans hold')
      · rw [made_eq_none_of_stop hwired hstop] at hmade'
        cases hmade'
    · rcases old_or_made_of_running hwired hsecond with ⟨-, hstop⟩ | hmade'
      · rw [made_eq_none_of_stop hwired hstop] at hmade
        cases hmade
      · exact Option.some.inj (hmade.symm.trans hmade')

/-- Except during a `Close`, the client of a proxy runs. -/
theorem running_of_proxy {index : ℕ} (h : runtime.Reachable) (hclosing : ¬ runtime.Closing)
    (hproxy : runtime.proxy adapter = some index) : runtime.Running adapter index := by
  cases hactive : runtime.active with
  | none =>
    have hsettled := h.connected.settled hactive
    have hcurrent := (hsettled.proxy adapter).symm.trans hproxy
    exact running_iff.mpr ⟨_, hsettled.current adapter index hcurrent⟩
  | some call =>
    obtain ⟨request, hlast, hwired⟩ := h.connected.wired call hactive
    have hwhere : runtime.proxy adapter = _ := hwired.proxy adapter
    rw [hproxy] at hwhere
    split_ifs at hwhere with hclear hdid
    · cases request with
      | close => exact absurd ⟨by rw [hactive]; rfl, hlast⟩ hclosing
      | reload cfg =>
        obtain ⟨generation, -, hbadge⟩ := hwired.old adapter index hwhere.symm
        have hstop : .stop adapter ∈ call.rest := stop_mem_of_clearProxy hwired.rest hclear
        rw [decide_eq_false (not_not_intro hstop)] at hbadge
        exact running_iff.mpr ⟨generation, hbadge⟩
    · exact running_iff.mpr ⟨_, hwired.made adapter index hwhere.symm⟩

/-- Two clients of one adapter never run at the same time. Except during a `Close`, what a proxy
passes on goes to a client that runs. Between the calls, the clients that run are those behind the
proxies; they were made by the last call, which has asked for them, and the default messenger passes
messages to the one for OpenILink, or else to the one for Telegram. -/
theorem messengers_connected (h : runtime.Reachable) :
    (∀ adapter first second, runtime.Running adapter first → runtime.Running adapter second →
      first = second) ∧
    (¬ runtime.Closing → ∀ adapter index, runtime.proxy adapter = some index →
      runtime.Running adapter index) ∧
    (runtime.active = none →
      (∀ adapter index, runtime.Running adapter index ↔ runtime.proxy adapter = some index) ∧
      (∀ adapter index, runtime.proxy adapter = some index →
        runtime.Made adapter runtime.generation index) ∧
      (∀ adapter, (runtime.proxy adapter).isSome = wanted runtime.calls adapter) ∧
      runtime.recipient = (defaultAdapter (wanted runtime.calls)).bind runtime.proxy) := by
  refine ⟨fun _ _ _ ↦ running_unique h, fun hclosing _ _ ↦ running_of_proxy h hclosing, ?_⟩
  intro hactive
  have hsettled := h.connected.settled hactive
  have hclosing : ¬ runtime.Closing := by
    rintro ⟨hsome, -⟩
    rw [hactive] at hsome
    cases hsome
  refine ⟨fun adapter index ↦ ⟨?_, running_of_proxy h hclosing⟩, ?_, ?_, ?_⟩
  · intro hrunning
    obtain ⟨generation, hbadge⟩ := running_iff.mp hrunning
    exact (hsettled.proxy adapter).trans (hsettled.live index _ hbadge rfl)
  · intro adapter index hproxy
    have hbadge := hsettled.current adapter index ((hsettled.proxy adapter).symm.trans hproxy)
    obtain ⟨client, hclient, hsame⟩ := Option.map_eq_some_iff.mp
      ((List.getElem?_map ..).symm.trans hbadge)
    exact ⟨client, hclient, congrArg Badge.adapter hsame, congrArg Badge.generation hsame⟩
  · intro adapter
    have hproxy : runtime.proxy adapter = runtime.current adapter := hsettled.proxy adapter
    rw [hproxy]
    exact hsettled.wanted adapter
  · have hdefault : runtime.defaultProxy = _ := hsettled.default
    rw [recipient, hdefault]
    rfl

/-- The client of a `Reload` is replaced by that of a second one. -/
def replacedLabels : List Label :=
  .call (.reload openILinkOnly) :: List.replicate 14 .advance ++
    .call (.reload openILinkOnly) :: List.replicate 14 .advance

/-- After a second `Reload` the first client does not run, and messages go to the second one. -/
theorem messengers_connected_replaced :
    ∃ runtime : Runtime, runtime.Reachable ∧ runtime.clients.length = 2 ∧
      ¬ runtime.Running .openILink 0 ∧ runtime.Running .openILink 1 ∧
      runtime.recipient = some 1 := by
  have hrun : (runLabels step (fun _ _ ↦ true) new replacedLabels).any (fun runtime ↦
      decide (runtime.active.isNone = true ∧ runtime.clients.length = 2 ∧
        runtime.proxy .openILink = some 1 ∧ runtime.recipient = some 1)) = true := by
    decide +kernel
  obtain ⟨runtime, hreach, htest⟩ : ∃ runtime, Reachable runtime ∧ _ :=
    Steps.exists_of_runLabels (fun _ _ _ ↦ trivial) hrun
  obtain ⟨hidle, hlength, hproxy, hrecipient⟩ := of_decide_eq_true htest
  obtain ⟨-, -, hsettled⟩ := messengers_connected hreach
  have hrunning := (hsettled (Option.isNone_iff_eq_none.mp hidle)).1 .openILink
  refine ⟨runtime, hreach, hlength, ?_, (hrunning 1).mpr hproxy, hrecipient⟩
  intro hfirst
  cases hproxy.symm.trans ((hrunning 0).mp hfirst)

end Runtime

end CodexQueueBot.Messages
