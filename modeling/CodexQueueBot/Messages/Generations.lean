import CodexQueueBot.Messages.Runtime

/-!
# Generations of message clients

A write to a shown store comes from the call that set the generation, or from the client that this
call made for the adapter: `writes_current`. The argument rests on one invariant, `Sound`. A
forwarder has the generation of its client, and what it offers was emitted by this client, so the
comparison of the generations in `setStatusIfCurrent` is all that is needed. After a `Close` that no
`Reload` follows, no client has the current generation, and both stores stay disabled. A `Reload`
after a `Close` is carried out like any other.
-/

set_option autoImplicit false
set_option relaxedAutoImplicit false

namespace CodexQueueBot.Messages.Runtime

open Hub Lib

variable {runtime runtime' : Runtime}

/-! ### Provenance -/

/-- The client at a number is one of an adapter and a generation, and has had a status. -/
def Emits (runtime : Runtime) (adapter : Adapter) (generation index : ℕ)
    (status : StatusSnapshot) : Prop :=
  ∃ client, runtime.clients[index]? = some client ∧ client.adapter = adapter ∧
    client.generation = generation ∧ status ∈ client.emitted

/-- The client at a number is one of an adapter and a generation. -/
def Made (runtime : Runtime) (adapter : Adapter) (generation index : ℕ) : Prop :=
  ∃ client, runtime.clients[index]? = some client ∧ client.adapter = adapter ∧
    client.generation = generation

/-- A write is one of the call that set the generation, or carries a status of the client that this
call made for the adapter. -/
def Current (runtime : Runtime) (write : Write) : Prop :=
  match write.origin with
  | .call generation => generation = write.generation
  | .client index => runtime.Emits write.adapter write.generation index write.status

/-- Clients stay, and their statuses are only added to. -/
def Grows (runtime runtime' : Runtime) : Prop :=
  ∀ (index : ℕ) (client : Client), runtime.clients[index]? = some client →
    ∃ client', runtime'.clients[index]? = some client' ∧ client'.adapter = client.adapter ∧
      client'.generation = client.generation ∧ client.emitted ⊆ client'.emitted

/-- Where the clients are the same, nothing was lost. -/
theorem grows_of_eq (h : runtime'.clients = runtime.clients) : Grows runtime runtime' := by
  intro index client hclient
  exact ⟨client, h ▸ hclient, rfl, rfl, List.Subset.refl _⟩

/-- A change of one client keeps the clients, where it keeps what is known about this one. -/
theorem grows_of_modify {index : ℕ} {change : Client → Client}
    (h : runtime'.clients = runtime.clients.modify index change)
    (hchange : ∀ client, runtime.clients[index]? = some client →
      (change client).adapter = client.adapter ∧
      (change client).generation = client.generation ∧
      client.emitted ⊆ (change client).emitted) : Grows runtime runtime' := by
  intro other client hclient
  rw [h]
  by_cases hsame : index = other
  · refine ⟨change client, ?_, hchange client (hsame ▸ hclient)⟩
    rw [List.getElem?_modify, hclient, Option.map_eq_map, Option.map_some, if_pos hsame]
  · refine ⟨client, ?_, rfl, rfl, List.Subset.refl _⟩
    rw [List.getElem?_modify, hclient, Option.map_eq_map, Option.map_some, if_neg hsame]

/-- A new client leaves the others. -/
theorem grows_of_append {client : Client}
    (h : runtime'.clients = runtime.clients ++ [client]) : Grows runtime runtime' := by
  intro index old hold
  refine ⟨old, ?_, rfl, rfl, List.Subset.refl _⟩
  rw [h, List.getElem?_append_left (List.getElem?_eq_some_iff.mp hold).1]
  exact hold

variable {adapter : Adapter} {generation index : ℕ} {status : StatusSnapshot}

theorem Emits.grows (h : runtime.Emits adapter generation index status)
    (hgrows : Grows runtime runtime') : runtime'.Emits adapter generation index status := by
  obtain ⟨client, hclient, hadapter, hgeneration, hmem⟩ := h
  obtain ⟨client', hclient', hadapter', hgeneration', hsub⟩ := hgrows index client hclient
  exact ⟨client', hclient', hadapter'.trans hadapter, hgeneration'.trans hgeneration, hsub hmem⟩

theorem Made.grows (h : runtime.Made adapter generation index)
    (hgrows : Grows runtime runtime') : runtime'.Made adapter generation index := by
  obtain ⟨client, hclient, hadapter, hgeneration⟩ := h
  obtain ⟨client', hclient', hadapter', hgeneration', -⟩ := hgrows index client hclient
  exact ⟨client', hclient', hadapter'.trans hadapter, hgeneration'.trans hgeneration⟩

theorem Current.grows {write : Write} (h : runtime.Current write)
    (hgrows : Grows runtime runtime') : runtime'.Current write := by
  rw [Current] at h ⊢
  split at h
  · exact h
  · exact Emits.grows h hgrows

/-! ### The invariant -/

/-- What is known about the call that holds `reloadMu`. -/
structure CallSound (runtime : Runtime) (call : Call) : Prop where
  generation : call.generation = runtime.generation
  rest : ∃ request, runtime.calls.getLast? = some request ∧ call.rest <:+ actions request
  made : ∀ adapter index, call.made adapter = some index →
    runtime.Made adapter call.generation index

/-- What is known about a client: a `Reload` set its generation, and its store shows only what it
has had. -/
structure ClientSound (runtime : Runtime) (client : Client) : Prop where
  reload : ∃ cfg, 0 < client.generation ∧
    runtime.calls[client.generation - 1]? = some (.reload cfg)
  shows : ∀ status, client.status.Shows status → status ∈ client.emitted

/-- What is known about a forwarder. -/
structure ForwarderSound (runtime : Runtime) (forwarder : Forwarder) : Prop where
  made : runtime.Made forwarder.adapter forwarder.generation forwarder.client
  offer : ∀ status, forwarder.pc = .offer status →
    runtime.Emits forwarder.adapter forwarder.generation forwarder.client status

/-- The invariant of the runtime. -/
structure Sound (runtime : Runtime) : Prop where
  counted : runtime.calls.length = runtime.generation
  call : ∀ call, runtime.active = some call → runtime.CallSound call
  clients : ∀ client ∈ runtime.clients, runtime.ClientSound client
  forwarders : ∀ forwarder ∈ runtime.forwarders, runtime.ForwarderSound forwarder
  writes : ∀ write ∈ runtime.writes, runtime.Current write
  returned : ∀ generation ∈ runtime.returned, generation ≤ runtime.generation

theorem ForwarderSound.grows {forwarder : Forwarder} (h : runtime.ForwarderSound forwarder)
    (hgrows : Grows runtime runtime') : runtime'.ForwarderSound forwarder :=
  ⟨h.made.grows hgrows, fun status hpc ↦ (h.offer status hpc).grows hgrows⟩

theorem CallSound.grows {call : Call} (h : runtime.CallSound call)
    (hgrows : Grows runtime runtime') (hgeneration : runtime'.generation = runtime.generation)
    (hcalls : runtime'.calls = runtime.calls) : runtime'.CallSound call :=
  ⟨hgeneration ▸ h.generation, hcalls ▸ h.rest,
    fun adapter index hmade ↦ (h.made adapter index hmade).grows hgrows⟩

theorem sound_new : Sound new where
  counted := rfl
  call _ hactive := nomatch hactive
  clients _ hmem := absurd hmem List.not_mem_nil
  forwarders _ hmem := absurd hmem List.not_mem_nil
  writes _ hmem := absurd hmem List.not_mem_nil
  returned _ hmem := absurd hmem List.not_mem_nil

/-! ### What the operations preserve -/

/-- An element of a list with one changed element is an old one or the changed one. -/
theorem mem_modify {α : Type*} {l : List α} {index : ℕ} {change : α → α} {a : α}
    (h : a ∈ l.modify index change) : a ∈ l ∨ ∃ old, l[index]? = some old ∧ a = change old := by
  obtain ⟨position, hposition⟩ := List.mem_iff_getElem?.mp h
  rw [List.getElem?_modify] at hposition
  obtain ⟨old, hold, rfl⟩ := Option.map_eq_some_iff.mp hposition
  by_cases hsame : index = position
  · rw [if_pos hsame]
    exact Or.inr ⟨old, hsame ▸ hold, rfl⟩
  · rw [if_neg hsame]
    exact Or.inl (List.mem_of_getElem? hold)

/-- A change of one client that keeps the client sound. -/
theorem Sound.modify (h : runtime.Sound) (index : ℕ) {change : Client → Client}
    (hadapter : ∀ client, (change client).adapter = client.adapter)
    (hgeneration : ∀ client, (change client).generation = client.generation)
    (hemitted : ∀ client, client.emitted ⊆ (change client).emitted)
    (hshows : ∀ client, runtime.clients[index]? = some client →
      (∀ status, client.status.Shows status → status ∈ client.emitted) →
      ∀ status, (change client).status.Shows status → status ∈ (change client).emitted) :
    Sound { runtime with clients := runtime.clients.modify index change } := by
  have hgrows : Grows runtime { runtime with clients := runtime.clients.modify index change } :=
    grows_of_modify rfl fun client _ ↦ ⟨hadapter client, hgeneration client, hemitted client⟩
  constructor
  · exact h.counted
  · intro call hactive
    exact (h.call call hactive).grows hgrows rfl rfl
  · intro client hmem
    rcases mem_modify hmem with hold | ⟨old, hold, rfl⟩
    · exact ⟨(h.clients client hold).reload, (h.clients client hold).shows⟩
    · have hsound := h.clients old (List.mem_of_getElem? hold)
      constructor
      · rw [hgeneration]
        exact hsound.reload
      · exact hshows old hold hsound.shows
  · intro forwarder hmem
    exact (h.forwarders forwarder hmem).grows hgrows
  · intro write hmem
    exact (h.writes write hmem).grows hgrows
  · exact h.returned

/-- A change of the status of a client. -/
theorem Sound.emit {index : ℕ} {state : Status} {errorText : String} (h : runtime.Sound)
    (hstep : runtime.emit index state errorText = some runtime') : runtime'.Sound := by
  rw [Runtime.emit] at hstep
  split_ifs at hstep
  rw [← Option.some.inj hstep]
  apply h.modify
  · exact fun client ↦ rfl
  · exact fun client ↦ rfl
  · exact fun client ↦ List.subset_append_left _ _
  · intro client _ hclient status hshows
    rcases StatusStore.shows_set hshows with hnew | hold
    · rw [hnew]
      exact List.mem_append_right _ (List.mem_singleton.mpr rfl)
    · exact List.mem_append_left _ (hclient status hold)

/-- The cancellation of a client. -/
theorem Sound.stop (h : runtime.Sound) (client : Option ℕ) : (runtime.stop client).Sound := by
  cases client with
  | none => exact h
  | some index =>
    exact h.modify index (fun _ ↦ rfl) (fun _ ↦ rfl) (fun _ ↦ List.Subset.refl _)
      fun _ _ hclient ↦ hclient

/-- A step that leaves the clients and adds what is sound. -/
theorem Sound.of_clients (h : runtime.Sound) (hclients : runtime'.clients = runtime.clients)
    (hgeneration : runtime'.generation = runtime.generation)
    (hcalls : runtime'.calls = runtime.calls)
    (hactive : ∀ call, runtime'.active = some call → runtime.CallSound call)
    (hreturned : ∀ generation ∈ runtime'.returned, generation ≤ runtime.generation)
    (hforwarders : ∀ forwarder ∈ runtime'.forwarders,
      forwarder ∈ runtime.forwarders ∨ runtime.ForwarderSound forwarder)
    (hwrites : ∀ write ∈ runtime'.writes, write ∈ runtime.writes ∨ runtime.Current write) :
    runtime'.Sound := by
  have hgrows : Grows runtime runtime' := grows_of_eq hclients
  constructor
  · rw [hcalls, hgeneration, h.counted]
  · intro call hcall
    exact (hactive call hcall).grows hgrows hgeneration hcalls
  · intro client hmem
    rw [hclients] at hmem
    refine ⟨?_, (h.clients client hmem).shows⟩
    rw [hcalls]
    exact (h.clients client hmem).reload
  · intro forwarder hmem
    rcases hforwarders forwarder hmem with hold | hnew
    · exact (h.forwarders forwarder hold).grows hgrows
    · exact hnew.grows hgrows
  · intro write hmem
    rcases hwrites write hmem with hold | hnew
    · exact (h.writes write hold).grows hgrows
    · exact hnew.grows hgrows
  · rw [hgeneration]
    exact hreturned

/-- A new place of a forwarder. -/
theorem Sound.setForwarder {forwarder : Forwarder} (h : runtime.Sound) (index : ℕ)
    (hforwarder : runtime.ForwarderSound forwarder) :
    Sound { runtime with forwarders := runtime.forwarders.set index forwarder } := by
  refine h.of_clients rfl rfl rfl h.call h.returned ?_ fun write hmem ↦ Or.inl hmem
  intro other hmem
  rcases List.mem_or_eq_of_mem_set hmem with hold | rfl
  · exact Or.inl hold
  · exact Or.inr hforwarder

/-- A write that is current. -/
theorem Sound.write {origin : Origin} (h : runtime.Sound)
    (hcurrent : runtime.Current ⟨adapter, runtime.generation, status, origin⟩) :
    (runtime.write adapter status origin).Sound := by
  refine h.of_clients rfl rfl rfl h.call h.returned (fun forwarder hmem ↦ Or.inl hmem) ?_
  intro write hmem
  rcases List.mem_append.mp hmem with hold | hnew
  · exact Or.inl hold
  · rw [List.mem_singleton.mp hnew]
    exact Or.inr hcurrent

/-- A change of what neither the clients nor the statuses depend on. -/
theorem Sound.change (h : runtime.Sound) (proxy current : Adapter → Option ℕ)
    (defaultProxy : Option Adapter) (rootCancelled : Bool) :
    Sound { runtime with proxy, current, defaultProxy, rootCancelled } :=
  h.of_clients rfl rfl rfl h.call h.returned (fun _ hmem ↦ Or.inl hmem) fun _ hmem ↦ Or.inl hmem

/-- The start of a call. -/
theorem Sound.start (h : runtime.Sound) (request : Request) : (runtime.start request).Sound := by
  have hgrows : Grows runtime (runtime.start request) := grows_of_eq rfl
  constructor
  · rw [Runtime.start, List.length_append, h.counted]
    rfl
  · intro call hactive
    rw [← Option.some.inj hactive]
    refine ⟨rfl, ⟨request, List.getLast?_concat, List.suffix_rfl⟩, ?_⟩
    intro adapter index hnone
    cases hnone
  · intro client hmem
    obtain ⟨⟨cfg, hpos, hcfg⟩, hshows⟩ := h.clients client hmem
    refine ⟨⟨cfg, hpos, ?_⟩, hshows⟩
    exact (List.getElem?_append_left (List.getElem?_eq_some_iff.mp hcfg).1).trans hcfg
  · intro forwarder hmem
    exact (h.forwarders forwarder hmem).grows hgrows
  · intro write hmem
    exact (h.writes write hmem).grows hgrows
  · intro generation hmem
    exact Nat.le_succ_of_le (h.returned generation hmem)

/-! ### The operations of a call -/

variable {call : Call} {action : Action}

/-- The call that set the generation is the last one. -/
theorem Sound.getLast? (h : runtime.Sound) :
    runtime.calls[runtime.generation - 1]? = runtime.calls.getLast? := by
  rw [List.getLast?_eq_getElem?, h.counted]

/-- A `Close` makes no client and shows none as connecting. -/
theorem reload_of_mem {request : Request} (h : .create adapter ∈ actions request ∨
    .connecting adapter ∈ actions request) : ∃ cfg, request = .reload cfg := by
  cases request with
  | reload cfg => exact ⟨cfg, rfl⟩
  | close => simp [actions] at h

/-- A new client of the active call. -/
theorem Sound.create (h : runtime.Sound) (hactive : runtime.active = some call)
    (hreload : ∃ cfg, runtime.calls.getLast? = some (.reload cfg)) :
    Sound { runtime with
      clients := runtime.clients ++ [.new adapter call.generation]
      active := some { call with
        made := Function.update call.made adapter (some runtime.clients.length) } } := by
  have hcall := h.call call hactive
  have hgrows : Grows runtime { runtime with
      clients := runtime.clients ++ [.new adapter call.generation]
      active := some { call with
        made := Function.update call.made adapter (some runtime.clients.length) } } :=
    grows_of_append rfl
  constructor
  · exact h.counted
  · intro changed hchanged
    rw [← Option.some.inj hchanged]
    refine ⟨hcall.generation, hcall.rest, ?_⟩
    intro other index
      (hmade : Function.update call.made adapter (some runtime.clients.length) other = some index)
    by_cases hsame : other = adapter
    · subst hsame
      rw [Function.update_self] at hmade
      refine ⟨.new other call.generation, ?_, rfl, rfl⟩
      rw [← Option.some.inj hmade]
      exact List.getElem?_concat_length
    · rw [Function.update_of_ne hsame] at hmade
      exact (hcall.made other index hmade).grows hgrows
  · intro client hmem
    rcases List.mem_append.mp hmem with hold | hnew
    · exact ⟨(h.clients client hold).reload, (h.clients client hold).shows⟩
    · rw [List.mem_singleton.mp hnew]
      obtain ⟨cfg, hcfg⟩ := hreload
      have hlast : runtime.calls[call.generation - 1]? = some (.reload cfg) := by
        rw [hcall.generation, h.getLast?, hcfg]
      refine ⟨⟨cfg, ?_, hlast⟩, ?_⟩
      · have hlength := List.length_pos_of_mem (List.mem_of_getLast? hcfg)
        rw [h.counted, ← hcall.generation] at hlength
        exact hlength
      · intro status hshows
        exact List.mem_singleton.mpr (StatusStore.shows_new hshows)
  · intro forwarder hmem
    exact (h.forwarders forwarder hmem).grows hgrows
  · intro write hmem
    exact (h.writes write hmem).grows hgrows
  · exact h.returned

/-- A new forwarder of a client that the active call made. -/
theorem Sound.forwarder {client : ℕ} (h : runtime.Sound) (hactive : runtime.active = some call)
    (hmade : call.made adapter = some client) :
    Sound { runtime with
      forwarders := runtime.forwarders ++ [⟨call.generation, client, adapter, 0, .start⟩] } := by
  refine h.of_clients rfl rfl rfl h.call h.returned ?_ fun write hmem ↦ Or.inl hmem
  intro forwarder hmem
  rcases List.mem_append.mp hmem with hold | hnew
  · exact Or.inl hold
  · rw [List.mem_singleton.mp hnew]
    refine Or.inr ⟨(h.call call hactive).made adapter client hmade, ?_⟩
    intro status hpc
    cases hpc

/-- An operation of the active call. -/
theorem Sound.perform (h : runtime.Sound) (hactive : runtime.active = some call)
    (haction : ∃ request, runtime.calls.getLast? = some request ∧ action ∈ actions request)
    (hstep : runtime.perform call action = some runtime') : runtime'.Sound := by
  have hgeneration := (h.call call hactive).generation
  have hreload : (∃ adapter, action = .create adapter) →
      ∃ cfg, runtime.calls.getLast? = some (.reload cfg) := by
    rintro ⟨adapter, rfl⟩
    obtain ⟨request, hlast, hmem⟩ := haction
    obtain ⟨cfg, rfl⟩ := reload_of_mem (Or.inl hmem)
    exact ⟨cfg, hlast⟩
  cases action with
  | stop adapter =>
    rw [← Option.some.inj hstep]
    exact h.stop (call.old adapter)
  | disable | connecting =>
    rw [← Option.some.inj hstep]
    exact h.write hgeneration
  | create adapter =>
    rw [← Option.some.inj hstep]
    exact h.create hactive (hreload ⟨adapter, rfl⟩)
  | forward adapter =>
    obtain ⟨client, hmade, hresult⟩ := Option.bind_eq_some_iff.mp hstep
    rw [← Option.some.inj hresult]
    exact h.forwarder hactive hmade
  | clearProxy | clearDefault | setProxy | install =>
    rw [← Option.some.inj hstep]
    exact h.change _ _ _ _
  | setDefault adapter =>
    cases adapter with
    | openILink | telegram =>
      rw [← Option.some.inj hstep]
      exact h.change _ _ _ _

/-! ### Steps and runs -/

/-- The next operation of the active call. -/
theorem Sound.advance (h : runtime.Sound) (hstep : runtime.advance = some runtime') :
    runtime'.Sound := by
  obtain ⟨call, hactive, hnext⟩ := Option.bind_eq_some_iff.mp hstep
  have hcall := h.call call hactive
  split at hnext
  next hnil =>
    rw [← Option.some.inj hnext]
    refine h.of_clients rfl rfl rfl (fun other hnone ↦ nomatch hnone) ?_
      (fun forwarder hmem ↦ Or.inl hmem) fun write hmem ↦ Or.inl hmem
    intro generation hmem
    rcases List.mem_append.mp hmem with hold | hnew
    · exact h.returned generation hold
    · rw [List.mem_singleton.mp hnew]
      exact Nat.le_of_eq hcall.generation
  next action rest hcons =>
    obtain ⟨request, hlast, hsuffix⟩ := hcall.rest
    rw [hcons] at hsuffix
    have hbase : Sound { runtime with active := some { call with rest } } := by
      refine h.of_clients rfl rfl rfl ?_ h.returned (fun forwarder hmem ↦ Or.inl hmem)
        fun write hmem ↦ Or.inl hmem
      intro other hother
      rw [← Option.some.inj hother]
      exact ⟨hcall.generation, ⟨request, hlast, (List.suffix_cons action rest).trans hsuffix⟩,
        hcall.made⟩
    exact hbase.perform rfl ⟨request, hlast, hsuffix.subset List.mem_cons_self⟩ hnext

/-- A move of a forwarder whose client shows what it has shown before. -/
theorem Sound.moveForwarder {forwarder : Forwarder} {client : Client} {store : StatusStore}
    (h : runtime.Sound) (hforwarder : runtime.ForwarderSound forwarder)
    (hclient : runtime.clients[forwarder.client]? = some client)
    (hshows : ∀ status, store.Shows status → client.status.Shows status) (index : ℕ) :
    (runtime.moveForwarder index forwarder store).Sound := by
  have hgrows : Grows runtime { runtime with
      clients := runtime.clients.modify forwarder.client fun client ↦
        { client with status := store } } :=
    grows_of_modify rfl fun _ _ ↦ ⟨rfl, rfl, List.Subset.refl _⟩
  refine Sound.setForwarder ?_ index (hforwarder.grows hgrows)
  apply h.modify forwarder.client
  · exact fun _ ↦ rfl
  · exact fun _ ↦ rfl
  · exact fun _ ↦ List.Subset.refl _
  · intro same hsame hemitted status hstatus
    obtain rfl : client = same := Option.some.inj (hclient.symm.trans hsame)
    exact hemitted status (hshows status hstatus)

/-- A forwarder that offers nothing. -/
theorem ForwarderSound.place {forwarder : Forwarder} (h : runtime.ForwarderSound forwarder)
    {pc : ForwarderPC} (hpc : ∀ update, pc ≠ .offer update) :
    runtime.ForwarderSound { forwarder with pc } :=
  ⟨h.made, fun update hsame ↦ absurd hsame (hpc update)⟩

/-- A forwarder that offers what its client has shown. -/
theorem ForwarderSound.offers {forwarder : Forwarder} {client : Client}
    (h : runtime.ForwarderSound forwarder)
    (hclient : runtime.clients[forwarder.client]? = some client)
    (hsound : runtime.ClientSound client) (hshows : client.status.Shows status) (observer : ℕ) :
    runtime.ForwarderSound { forwarder with observer, pc := .offer status } := by
  refine ⟨h.made, ?_⟩
  intro update hsame
  obtain rfl : status = update := ForwarderPC.offer.inj hsame
  obtain ⟨made, hmade, hadapter, hgeneration⟩ := h.made
  obtain rfl : client = made := Option.some.inj (hclient.symm.trans hmade)
  exact ⟨client, hclient, hadapter, hgeneration, hsound.shows status hshows⟩

/-- `setStatusIfCurrent`. -/
theorem Sound.setStatusIfCurrent {forwarder : Forwarder} (h : runtime.Sound)
    (hforwarder : runtime.ForwarderSound forwarder) (hpc : forwarder.pc = .offer status)
    (index : ℕ) : (runtime.setStatusIfCurrent index forwarder status).Sound := by
  rw [Runtime.setStatusIfCurrent]
  split_ifs with hcurrent
  · have hwrite : (runtime.write forwarder.adapter status (.client forwarder.client)).Sound :=
      h.write (hcurrent.1 ▸ hforwarder.offer status hpc)
    have hwaiting : runtime.ForwarderSound { forwarder with pc := .waiting } :=
      hforwarder.place fun update hsame ↦ nomatch hsame
    exact hwrite.setForwarder index (hwaiting.grows (grows_of_eq rfl))
  · exact h.setForwarder index (hforwarder.place fun update hsame ↦ nomatch hsame)

/-- The next step of a `forwardStatus` goroutine. -/
theorem Sound.forward {done : Bool} (h : runtime.Sound)
    (hstep : runtime.forward index done = some runtime') : runtime'.Sound := by
  obtain ⟨forwarder, hforwarder, hrest⟩ := Option.bind_eq_some_iff.mp hstep
  obtain ⟨client, hclient, hmove⟩ := Option.bind_eq_some_iff.mp hrest
  have hsound := h.forwarders forwarder (List.mem_of_getElem? hforwarder)
  have hclientSound := h.clients client (List.mem_of_getElem? hclient)
  have hclosing : runtime.ForwarderSound { forwarder with pc := .closing } :=
    hsound.place fun update hsame ↦ nomatch hsame
  split at hmove
  next hpc =>
    rw [← Option.some.inj hmove]
    have hoffer := hsound.offers hclient hclientSound (Or.inl rfl) client.status.observers.length
    exact h.moveForwarder hoffer hclient (fun _ hshows ↦ StatusStore.shows_observe hshows) index
  next update hpc =>
    rw [← Option.some.inj hmove]
    exact h.setStatusIfCurrent hsound hpc index
  next hpc =>
    split_ifs at hmove
    · rw [← Option.some.inj hmove]
      exact h.moveForwarder hclosing hclient (fun _ hshows ↦ hshows) index
    · obtain ⟨⟨update, store⟩, hreceive, hupdate⟩ := Option.bind_eq_some_iff.mp hmove
      obtain ⟨hfound, hleft⟩ := StatusStore.shows_receive hreceive
      cases update with
      | some update =>
        rw [← Option.some.inj hupdate]
        have hoffer := hsound.offers hclient hclientSound (hfound update rfl) forwarder.observer
        exact h.moveForwarder hoffer hclient hleft index
      | none =>
        rw [← Option.some.inj hupdate]
        exact h.moveForwarder hclosing hclient hleft index
  next hpc =>
    rw [← Option.some.inj hmove]
    have hdone : runtime.ForwarderSound { forwarder with pc := .done } :=
      hsound.place fun update hsame ↦ nomatch hsame
    exact h.moveForwarder hdone hclient (fun _ ↦ StatusStore.shows_close) index
  next hpc => cases hmove

/-- Every step keeps the invariant. -/
theorem Sound.step {label : Label} (h : runtime.Sound)
    (hstep : runtime.step label = some runtime') : runtime'.Sound := by
  cases label with
  | call request =>
    rw [Runtime.step] at hstep
    split_ifs at hstep
    rw [← Option.some.inj hstep]
    exact h.start request
  | advance => exact h.advance hstep
  | emit client state errorText => exact h.emit hstep
  | forward forwarder done => exact h.forward hstep
  | cancelRoot =>
    rw [← Option.some.inj hstep]
    exact h.change _ _ _ _

/-- Every reachable state is sound. -/
theorem Reachable.sound (h : runtime.Reachable) : runtime.Sound :=
  Steps.invariant (fun _ _ _ hsound _ hstep ↦ hsound.step hstep) h sound_new

/-! ### After a `Close` -/

/-- The call of a generation is a `Close`, and so are all later ones. -/
def ClosedSince (calls : List Request) (generation : ℕ) : Prop :=
  ∃ before after, calls = before ++ .close :: after ∧ before.length + 1 = generation ∧
    ∀ request ∈ after, request = .close

/-- The call of a generation has disabled the store of an adapter. -/
def HasDisabled (runtime : Runtime) (adapter : Adapter) (generation : ℕ) : Prop :=
  generation ∈ runtime.returned ∨
    ∃ call, runtime.active = some call ∧ call.generation = generation ∧
      .disable adapter ∉ call.rest

/-- Stores that a `Close` has disabled are disabled until a `Reload`. -/
def StaysDisabled (runtime : Runtime) : Prop :=
  ∀ generation adapter, ClosedSince runtime.calls generation →
    runtime.HasDisabled adapter generation → (runtime.status adapter).snapshot.state = .disabled

/-- The last call since a `Close` is one. -/
theorem ClosedSince.getLast? {calls : List Request} (h : ClosedSince calls generation) :
    calls.getLast? = some .close := by
  obtain ⟨before, after, rfl, -, hafter⟩ := h
  rw [List.getLast?_append_of_ne_nil _ (List.cons_ne_nil _ _), List.getLast?_cons]
  cases hlast : after.getLast? with
  | none => rfl
  | some request => rw [Option.getD_some, hafter request (List.mem_of_getLast? hlast)]

/-- What holds since a `Close` held before the last call, unless this call is the `Close`. -/
theorem ClosedSince.of_concat {calls : List Request} {request : Request}
    (h : ClosedSince (calls ++ [request]) generation) (hle : generation ≤ calls.length) :
    ClosedSince calls generation := by
  obtain ⟨before, after, hcalls, hlength, hafter⟩ := h
  rcases List.eq_nil_or_concat after with rfl | ⟨front, last, rfl⟩
  · have hlengths := congrArg List.length hcalls
    simp only [List.length_append, List.length_cons, List.length_nil] at hlengths
    omega
  · have hfront : calls = before ++ .close :: front := by
      rw [List.concat_eq_append, ← List.cons_append, ← List.append_assoc] at hcalls
      exact (List.append_inj' hcalls rfl).1
    refine ⟨before, front, hfront, hlength, ?_⟩
    intro earlier hmem
    exact hafter earlier (List.concat_eq_append ▸ List.mem_append_left _ hmem)

/-- Every call disables both stores. -/
theorem disable_mem (request : Request) (adapter : Adapter) :
    .disable adapter ∈ actions request := by
  cases request <;> cases adapter <;> simp [actions]

/-- A write changes the store of its adapter. -/
theorem status_write {origin : Origin} :
    (runtime.write adapter status origin).status =
      Function.update runtime.status adapter
        ((runtime.status adapter).set status.state status.error) :=
  rfl

/-- The state of a store after a write. -/
theorem write_status {origin : Origin} (other : Adapter) :
    ((runtime.write adapter status origin).status other).snapshot.state =
      if other = adapter then status.state else (runtime.status other).snapshot.state := by
  by_cases hsame : other = adapter
  · subst hsame
    rw [status_write, if_pos rfl, Function.update_self, StatusStore.set_state]
  · rw [status_write, if_neg hsame, Function.update_of_ne hsame]

/-- Only a `Reload` makes clients of the current generation. -/
theorem Sound.reload_of_made (h : runtime.Sound)
    (hmade : runtime.Made adapter runtime.generation index) :
    ∃ cfg, runtime.calls.getLast? = some (.reload cfg) := by
  obtain ⟨client, hclient, -, hgeneration⟩ := hmade
  obtain ⟨cfg, -, hcfg⟩ := (h.clients client (List.mem_of_getElem? hclient)).reload
  rw [hgeneration, h.getLast?] at hcfg
  exact ⟨cfg, hcfg⟩

theorem staysDisabled_new : StaysDisabled new := by
  rintro generation adapter ⟨before, after, hcalls, -, -⟩
  cases before <;> cases hcalls

/-- A step that writes only in the generation of a `Reload`. -/
theorem StaysDisabled.of_eq (h : runtime.StaysDisabled) (hcalls : runtime'.calls = runtime.calls)
    (hreturned : runtime'.returned = runtime.returned) (hactive : runtime'.active = runtime.active)
    (hstatus : (∃ cfg, runtime.calls.getLast? = some (.reload cfg)) ∨
      runtime'.status = runtime.status) : runtime'.StaysDisabled := by
  intro generation adapter hclosed hdisabled
  rw [hcalls] at hclosed
  rw [HasDisabled, hreturned, hactive] at hdisabled
  rcases hstatus with ⟨cfg, hreload⟩ | hsame
  · cases hclosed.getLast?.symm.trans hreload
  · rw [hsame]
    exact h generation adapter hclosed hdisabled

/-- The start of a call. -/
theorem StaysDisabled.start (h : runtime.StaysDisabled) (hsound : runtime.Sound)
    (request : Request) : (runtime.start request).StaysDisabled := by
  intro generation adapter hclosed hdisabled
  rcases hdisabled with hreturned | ⟨call, hactive, -, hrest⟩
  · have hle : generation ≤ runtime.calls.length := by
      rw [hsound.counted]
      exact hsound.returned generation hreturned
    exact h generation adapter (hclosed.of_concat hle) (Or.inl hreturned)
  · rw [← Option.some.inj hactive] at hrest
    exact absurd (disable_mem request adapter) hrest

/-- What an operation of the active call changes. -/
theorem perform_frame (hactive : runtime.active = some call)
    (hstep : runtime.perform call action = some runtime') :
    runtime'.calls = runtime.calls ∧ runtime'.returned = runtime.returned ∧
      (∃ made, runtime'.active = some { call with made }) ∧
      ∀ adapter, (runtime'.status adapter).snapshot.state =
        if action = .disable adapter then .disabled
        else if action = .connecting adapter then .connecting
        else (runtime.status adapter).snapshot.state := by
  cases action with
  | disable | connecting =>
    rw [← Option.some.inj hstep]
    refine ⟨rfl, rfl, ⟨call.made, hactive⟩, fun adapter ↦ ?_⟩
    rw [write_status]
    simp [eq_comm]
  | create =>
    rw [← Option.some.inj hstep]
    exact ⟨rfl, rfl, ⟨_, rfl⟩, fun adapter ↦ by simp⟩
  | stop other =>
    rw [← Option.some.inj hstep]
    cases call.old other with
    | none | some =>
      exact ⟨rfl, rfl, ⟨call.made, hactive⟩, fun adapter ↦ by simp [Runtime.stop]⟩
  | forward =>
    obtain ⟨client, hmade, hresult⟩ := Option.bind_eq_some_iff.mp hstep
    rw [← Option.some.inj hresult]
    exact ⟨rfl, rfl, ⟨call.made, hactive⟩, fun adapter ↦ by simp⟩
  | clearProxy | clearDefault | setProxy | install =>
    rw [← Option.some.inj hstep]
    exact ⟨rfl, rfl, ⟨call.made, hactive⟩, fun adapter ↦ by simp⟩
  | setDefault other =>
    cases other with
    | openILink | telegram =>
      rw [← Option.some.inj hstep]
      exact ⟨rfl, rfl, ⟨call.made, hactive⟩, fun adapter ↦ by simp⟩

/-- The next operation of the active call. -/
theorem StaysDisabled.advance (h : runtime.StaysDisabled) (hsound : runtime.Sound)
    (hstep : runtime.advance = some runtime') : runtime'.StaysDisabled := by
  obtain ⟨call, hactive, hnext⟩ := Option.bind_eq_some_iff.mp hstep
  split at hnext
  next hnil =>
    rw [← Option.some.inj hnext]
    intro generation adapter hclosed hdisabled
    refine h generation adapter hclosed ?_
    rcases hdisabled with hreturned | ⟨other, hother, -⟩
    · rcases List.mem_append.mp hreturned with hold | hnew
      · exact Or.inl hold
      · refine Or.inr ⟨call, hactive, (List.mem_singleton.mp hnew).symm, ?_⟩
        rw [hnil]
        exact List.not_mem_nil
    · cases hother
  next action rest hcons =>
    obtain ⟨hcalls, hreturned, ⟨made, hmade⟩, hstatus⟩ := perform_frame rfl hnext
    obtain ⟨request, hlast, hsuffix⟩ := (hsound.call call hactive).rest
    intro generation adapter hclosed hdisabled
    rw [hcalls] at hclosed
    rw [hstatus adapter]
    by_cases hdisable : action = .disable adapter
    · rw [if_pos hdisable]
    · have hbefore : runtime.HasDisabled adapter generation := by
        rcases hdisabled with hdone | ⟨other, hother, hgeneration, hrest⟩
        · rw [hreturned] at hdone
          exact Or.inl hdone
        · rw [hmade] at hother
          rw [← Option.some.inj hother] at hgeneration hrest
          refine Or.inr ⟨call, hactive, hgeneration, ?_⟩
          rw [hcons, List.mem_cons, not_or]
          exact ⟨fun heq ↦ hdisable heq.symm, hrest⟩
      by_cases hconnecting : action = .connecting adapter
      · -- A call that shows a client as connecting is a `Reload`.
        have hmem : .connecting adapter ∈ actions request := by
          rw [hcons, hconnecting] at hsuffix
          exact hsuffix.subset List.mem_cons_self
        obtain ⟨cfg, rfl⟩ := reload_of_mem (Or.inr hmem)
        cases hclosed.getLast?.symm.trans hlast
      · rw [if_neg hdisable, if_neg hconnecting]
        exact h generation adapter hclosed hbefore

/-- The next step of a `forwardStatus` goroutine. -/
theorem StaysDisabled.forward {done : Bool} (h : runtime.StaysDisabled) (hsound : runtime.Sound)
    (hstep : runtime.forward index done = some runtime') : runtime'.StaysDisabled := by
  obtain ⟨forwarder, hforwarder, hrest⟩ := Option.bind_eq_some_iff.mp hstep
  obtain ⟨client, hclient, hmove⟩ := Option.bind_eq_some_iff.mp hrest
  have hmade := (hsound.forwarders forwarder (List.mem_of_getElem? hforwarder)).made
  split at hmove
  next hpc =>
    rw [← Option.some.inj hmove]
    exact h.of_eq rfl rfl rfl (Or.inr rfl)
  next update hpc =>
    rw [← Option.some.inj hmove, setStatusIfCurrent]
    split_ifs with hcurrent
    · exact h.of_eq rfl rfl rfl (Or.inl (hsound.reload_of_made (hcurrent.1 ▸ hmade)))
    · exact h.of_eq rfl rfl rfl (Or.inr rfl)
  next hpc =>
    split_ifs at hmove
    · rw [← Option.some.inj hmove]
      exact h.of_eq rfl rfl rfl (Or.inr rfl)
    · obtain ⟨⟨update, store⟩, -, hupdate⟩ := Option.bind_eq_some_iff.mp hmove
      cases update with
      | some update =>
        rw [← Option.some.inj hupdate]
        exact h.of_eq rfl rfl rfl (Or.inr rfl)
      | none =>
        rw [← Option.some.inj hupdate]
        exact h.of_eq rfl rfl rfl (Or.inr rfl)
  next hpc =>
    rw [← Option.some.inj hmove]
    exact h.of_eq rfl rfl rfl (Or.inr rfl)
  next hpc => cases hmove

/-- Every step keeps what a `Close` has disabled. -/
theorem StaysDisabled.step {label : Label} (h : runtime.StaysDisabled) (hsound : runtime.Sound)
    (hstep : runtime.step label = some runtime') : runtime'.StaysDisabled := by
  cases label with
  | call request =>
    rw [Runtime.step] at hstep
    split_ifs at hstep
    rw [← Option.some.inj hstep]
    exact h.start hsound request
  | advance => exact h.advance hsound hstep
  | emit client state errorText =>
    rw [Runtime.step, Runtime.emit] at hstep
    split_ifs at hstep
    rw [← Option.some.inj hstep]
    exact h.of_eq rfl rfl rfl (Or.inr rfl)
  | forward forwarder done => exact h.forward hsound hstep
  | cancelRoot =>
    rw [← Option.some.inj hstep]
    exact h.of_eq rfl rfl rfl (Or.inr rfl)

/-- Stores stay disabled in every reachable state. -/
theorem Reachable.staysDisabled (h : runtime.Reachable) : runtime.StaysDisabled := by
  have hboth : runtime.Sound ∧ runtime.StaysDisabled :=
    Steps.invariant (P := fun runtime ↦ runtime.Sound ∧ runtime.StaysDisabled)
      (fun _ _ _ hinv _ hstep ↦ ⟨hinv.1.step hstep, hinv.2.step hinv.1 hstep⟩) h
      ⟨sound_new, staysDisabled_new⟩
  exact hboth.2

/-! ### The shown statuses -/

/-- Every write between two counts of the generation is one of the call that set it, or carries a
status of the client that this call made for the adapter. Both stores are disabled after a `Close`
that has returned, as long as no `Reload` has begun since. -/
theorem writes_current (hreach : runtime.Reachable) :
    (∀ write ∈ runtime.writes, runtime.Current write) ∧
      ∀ generation ∈ runtime.returned, ClosedSince runtime.calls generation →
        ∀ adapter, (runtime.status adapter).snapshot.state = .disabled := by
  refine ⟨hreach.sound.writes, ?_⟩
  intro generation hreturned hclosed adapter
  exact hreach.staysDisabled generation adapter hclosed (Or.inl hreturned)

/-- A configuration with an OpenILink client only. -/
def openILinkOnly : CodexQueueBot.Config :=
  { openILink := { enabled := true, token := "token", enabledSet := true } }

/-- The client of a `Reload` connects, and its forwarder holds this status when a `Close` begins. -/
def staleLabels : List Label :=
  .call (.reload openILinkOnly) :: List.replicate 14 .advance ++
    [.forward 0 false, .forward 0 false, .emit 0 .connected "", .forward 0 false, .call .close,
      .forward 0 false] ++ List.replicate 8 .advance

/-- The forwarder has written the first status of its client, and drops the later one. -/
theorem writes_current_stale :
    ∃ runtime : Runtime, runtime.Reachable ∧
      (runtime.returned = [1, 2] ∧ runtime.calls = [.reload openILinkOnly, .close] ∧
        Write.mk .openILink 1 ⟨.connecting, ""⟩ (.client 0) ∈ runtime.writes) ∧
      (∀ write ∈ runtime.writes, runtime.Current write) ∧
      ∀ generation ∈ runtime.returned, ClosedSince runtime.calls generation →
        ∀ adapter, (runtime.status adapter).snapshot.state = .disabled := by
  have hrun : (runLabels step (fun _ _ ↦ true) new staleLabels).any (fun runtime ↦
      decide (runtime.returned = [1, 2] ∧ runtime.calls = [.reload openILinkOnly, .close] ∧
        Write.mk .openILink 1 ⟨.connecting, ""⟩ (.client 0) ∈ runtime.writes)) = true := by
    decide +kernel
  obtain ⟨runtime, hreach, htest⟩ : ∃ runtime, Reachable runtime ∧ _ :=
    Steps.exists_of_runLabels (fun _ _ _ ↦ trivial) hrun
  exact ⟨runtime, hreach, of_decide_eq_true htest, writes_current hreach⟩

/-- A `Reload` that begins after a `Close` has returned shows a client as connecting. -/
theorem reload_after_close :
    ¬ ∀ runtime : Runtime, runtime.Reachable → ∀ generation ∈ runtime.returned,
      runtime.calls[generation - 1]? = some .close →
        ∀ adapter, (runtime.status adapter).snapshot.state = .disabled := by
  intro hclaim
  have hrun : (runLabels step (fun _ _ ↦ true) new
      (.call .close :: List.replicate 8 .advance ++
        .call (.reload openILinkOnly) :: List.replicate 11 .advance)).any (fun runtime ↦
      decide (1 ∈ runtime.returned ∧ runtime.calls[1 - 1]? = some .close ∧
        (runtime.status .openILink).snapshot.state = .connecting)) = true := by
    decide +kernel
  obtain ⟨runtime, hreach, htest⟩ : ∃ runtime, Reachable runtime ∧ _ :=
    Steps.exists_of_runLabels (fun _ _ _ ↦ trivial) hrun
  obtain ⟨hreturned, hclose, hconnecting⟩ := of_decide_eq_true htest
  cases hconnecting.symm.trans (hclaim runtime hreach 1 hreturned hclose .openILink)

end CodexQueueBot.Messages.Runtime
