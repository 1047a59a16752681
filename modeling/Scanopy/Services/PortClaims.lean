import Scanopy.Services.BindingLists

/-! A port of a host is claimed by one service. Requests look for other claims at their check and
write later, so the claims stay exclusive as long as no request is overtaken on its host. -/

namespace Scanopy
open List BindingType

namespace ServiceStore
variable (store : ServiceStore)

def Exclusive : Prop :=
  ∀ s ∈ store.services, ∀ t ∈ store.services, s.isLive = true → t.isLive = true → s.id ≠ t.id →
    s.base.hostId = t.base.hostId → ∀ b ∈ store.bindingsOf s.id, ∀ c ∈ store.bindingsOf t.id,
      b.base.bindingType.overlaps c.base.bindingType = false

def NoClash (hostId serviceId : Uuid) (bindings : List Binding) : Prop :=
  ∀ t ∈ store.services, t.isLive = true → t.base.hostId = hostId → t.id ≠ serviceId →
    ∀ b ∈ bindings, ∀ c ∈ store.bindingsOf t.id,
      b.base.bindingType.overlaps c.base.bindingType = false

/-- A `create` that is merged into a stored service, or comes from a discovery, is not checked
against the ports of the others: its ports are free nevertheless. -/
def UncheckedFree (defs : ServiceDefinitions) (service : TrackedService) : Prop :=
  (store.upsertTarget defs service).isSome = true ∨ service.base.source.isFromDiscovery = true →
    store.validateBindingsAvailable service.base.hostId
      ((store.upsertTarget defs service).elim service.id (·.id)) service.base.bindings = none

def FreePorts (defs : ServiceDefinitions) : ServiceRequest → Prop
  | .create service newId now => store.UncheckedFree defs (submittedService service newId now)
  | _ => True

end ServiceStore

def ClaimsFree (defs : ServiceDefinitions) (s : ServiceSystem) (e : ServiceEvent) : Prop :=
  SavesFit s e ∧ (∀ r, s.begins e = some r → s.store.FreePorts defs r) ∧
    match e with
    | .finish i _ => ∀ p, s.pending[i]? = some p → p.overtaken = false
    | _ => True

instance (store : ServiceStore) : Decidable store.Exclusive :=
  inferInstanceAs (Decidable (∀ s ∈ store.services.rows, ∀ t ∈ store.services.rows,
    s.isLive = true → t.isLive = true → s.id ≠ t.id → s.base.hostId = t.base.hostId →
      ∀ b ∈ store.bindingsOf s.id, ∀ c ∈ store.bindingsOf t.id,
        b.base.bindingType.overlaps c.base.bindingType = false))

instance (defs : ServiceDefinitions) (store : ServiceStore) (service : TrackedService) :
    Decidable (store.UncheckedFree defs service) :=
  inferInstanceAs (Decidable (_ ∨ _ → _ = none))

instance (defs : ServiceDefinitions) (store : ServiceStore) :
    (r : ServiceRequest) → Decidable (store.FreePorts defs r)
  | .create service newId now =>
    inferInstanceAs (Decidable (store.UncheckedFree defs (submittedService service newId now)))
  | .update _ | .removePortBindings _ _ | .delete _ => isTrue trivial

instance (defs : ServiceDefinitions) (s : ServiceSystem) :
    (e : ServiceEvent) → Decidable (ClaimsFree defs s e)
  | .finish i draws => inferInstanceAs (Decidable (SavesFit s (.finish i draws) ∧
      (∀ r, s.begins (.finish i draws) = some r → s.store.FreePorts defs r) ∧
        ∀ p, s.pending[i]? = some p → p.overtaken = false))
  | .start r => inferInstanceAs (Decidable (SavesFit s (.start r) ∧
      (∀ r', s.begins (.start r) = some r' → s.store.FreePorts defs r') ∧ True))
  | .next k => inferInstanceAs (Decidable (SavesFit s (.next k) ∧
      (∀ r, s.begins (.next k) = some r → s.store.FreePorts defs r) ∧ True))
  | .discover d => inferInstanceAs (Decidable (SavesFit s (.discover d) ∧
      (∀ r, s.begins (.discover d) = some r → s.store.FreePorts defs r) ∧ True))

theorem bindingsOverlap_comm (a b : Option Uuid) : bindingsOverlap a b = bindingsOverlap b a := by
  cases a with
  | none => cases b <;> rfl
  | some a =>
    cases b with
    | none => rfl
    | some b => exact decide_eq_decide.mpr eq_comm

theorem BindingType.overlaps_comm (s t : BindingType) : s.overlaps t = t.overlaps s := by
  cases s with
  | ipAddress i => cases t <;> rfl
  | port p ip =>
    cases t with
    | ipAddress j => rfl
    | port q ip' =>
      unfold overlaps
      dsimp only
      rw [bindingsOverlap_comm, decide_eq_decide.mpr (@eq_comm _ p q)]

theorem BindingType.overlaps_ipAddress (i : Uuid) (t : BindingType) :
    (ipAddress i).overlaps t = false := by cases t <;> rfl

namespace ServiceStore
variable {defs : ServiceDefinitions} {store store' : ServiceStore} {hostId serviceId : Uuid}
  {bindings bindings' : List Binding} {w : ServiceWrite} {draws : ℕ → Uuid}
variable {b : Binding} {s service : TrackedService}

theorem validateBindingsAvailable_eq_none :
    store.validateBindingsAvailable hostId serviceId bindings = none ↔
      store.NoClash hostId serviceId bindings := by
  have hswap : store.NoClash hostId serviceId bindings ↔ ∀ b ∈ bindings,
      ∀ t ∈ store.services, t.isLive = true → t.base.hostId = hostId → t.id ≠ serviceId →
        ∀ c ∈ store.bindingsOf t.id, b.base.bindingType.overlaps c.base.bindingType = false :=
    ⟨fun h b hb t ht hlive hhost hne => h t ht hlive hhost hne b hb,
      fun h t ht hlive hhost hne b hb => h b hb t ht hlive hhost hne⟩
  rw [hswap]
  unfold validateBindingsAvailable
  dsimp only
  rw [findSome?_eq_none_iff]
  refine forall₂_congr fun b _ => ?_
  cases htype : b.base.bindingType with
  | ipAddress i => exact iff_of_true rfl fun _ _ _ _ _ _ _ => overlaps_ipAddress i _
  | port portId ip =>
    dsimp only
    rw [Option.map_eq_none_iff, find?_eq_none]
    constructor
    · intro h t ht hlive hhost hne c hc
      have hmem : store.hydrate t ∈ (store.liveServices hostId).filter (·.id ≠ serviceId) :=
        mem_filter.mpr ⟨mem_liveServices.mpr ⟨t, ht, hlive, hhost, rfl⟩, decide_eq_true hne⟩
      have hnone := h _ hmem
      rw [List.any_eq_true, not_exists] at hnone
      exact Bool.eq_false_iff.mpr fun hoverlaps => hnone c ⟨hc, hoverlaps⟩
    · intro h s hs hany
      obtain ⟨hs, hne⟩ := mem_filter.mp hs
      obtain ⟨t, ht, hlive, hhost, rfl⟩ := mem_liveServices.mp hs
      obtain ⟨c, hc, hoverlaps⟩ := List.any_eq_true.mp hany
      have hfree := h t ht hlive hhost (of_decide_eq_true hne) c hc
      exact Bool.noConfusion (hfree.symm.trans hoverlaps)

/-- The bindings that a discovery keeps when it looks for conflicts are free at that moment. -/
theorem noClash_partitionConflictingBindings (batchClaimed : List (Uuid × Option Uuid)) :
    store.NoClash hostId serviceId
      (store.partitionConflictingBindings hostId serviceId bindings batchClaimed).1 := by
  intro t ht hlive hhost hne b hb c hc
  unfold partitionConflictingBindings at hb
  rw [partition_eq_filter_filter] at hb
  have hfree := (mem_filter.mp hb).2
  rw [Bool.not_eq_true'] at hfree
  have hservice : store.hydrate t ∈ (store.liveServices hostId).filter (·.id ≠ serviceId) :=
    mem_filter.mpr ⟨mem_liveServices.mpr ⟨t, ht, hlive, hhost, rfl⟩, decide_eq_true hne⟩
  cases hb_type : b.base.bindingType with
  | ipAddress i => exact overlaps_ipAddress i _
  | port p ip =>
    cases hc_type : c.base.bindingType with
    | ipAddress j => rfl
    | port q ip' =>
      have hclaim : (q, ip') ∈ portClaims (store.hydrate t).base.bindings :=
        mem_filterMap.mpr ⟨c, hc, by rw [hc_type]⟩
      unfold isClaimed at hfree
      rw [hb_type] at hfree
      have hnone := List.any_eq_false.mp hfree (q, ip')
        (mem_append_left _ (mem_flatMap.mpr ⟨_, hservice, hclaim⟩))
      rw [Bool.not_eq_true] at hnone
      rw [overlaps_comm]
      exact hnone

theorem NoClash.of_types (h : store.NoClash hostId serviceId bindings)
    (htypes : ∀ b ∈ bindings', ∃ c ∈ bindings, c.base.bindingType = b.base.bindingType) :
    store.NoClash hostId serviceId bindings' := by
  intro t ht hlive hhost hne b hb c hc
  obtain ⟨b', hb', htype⟩ := htypes b hb
  rw [← htype]
  exact h t ht hlive hhost hne b' hb' c hc

theorem Exclusive.noClash (h : store.Exclusive) (hs : s ∈ store.services)
    (hlive : s.isLive = true) : store.NoClash s.base.hostId s.id (store.bindingsOf s.id) := by
  intro t ht htlive hhost hne b hb c hc
  exact h s hs t ht hlive htlive hne.symm hhost.symm b hb c hc

theorem exists_type_of_mem_ofService {mode : RowWrite}
    (h : b ∈ (ServiceWrite.ofService mode s).bindings) :
    ∃ c ∈ s.base.bindings, c.base.bindingType = b.base.bindingType := by
  obtain ⟨c, hc, rfl⟩ := mem_map.mp h
  exact ⟨c, hc, rfl⟩

structure Sound (store : ServiceStore) (w : ServiceWrite) : Prop where
  kept : w.mode = .keep → ∀ r ∈ store.services, r.id = w.service.id →
    r.base.hostId = w.service.base.hostId ∧ r.isLive = w.service.isLive
  free : w.mode ≠ .delete → w.service.isLive = true →
    store.NoClash w.service.base.hostId w.service.id w.bindings

theorem available_of_or {first second : Option ServiceError}
    (h : first.or (second.or (store.validateBindingsAvailable service.base.hostId service.id
      service.base.bindings)) = none) :
    store.NoClash service.base.hostId service.id service.base.bindings := by
  rw [Option.or_eq_none_iff, Option.or_eq_none_iff] at h
  exact validateBindingsAvailable_eq_none.mp h.2.2

theorem sound_of_checkCreate (hstore : store.Exclusive)
    (hfree : store.UncheckedFree defs service) (h : store.checkCreate defs service = .ok w) :
    store.Sound w := by
  unfold UncheckedFree at hfree
  rcases checkCreate_cases h with ⟨existing, htarget, rfl⟩ | ⟨htarget, hcheck, rfl⟩
  · obtain ⟨r, hr, hlive, hhost, rfl⟩ := upsertTarget_eq_some htarget
    rw [htarget] at hfree
    have hnew := validateBindingsAvailable_eq_none.mp (hfree (.inl rfl))
    have hold := hstore.noClash hr hlive
    refine ⟨nofun, fun _ _ t ht htlive hthost hne b hb c hc => ?_⟩
    obtain ⟨b', hb', htype⟩ := exists_type_of_mem_ofService hb
    rw [← htype]
    -- a merged list holds the old bindings of the service and new ones
    rcases mem_upsertBindings hb' with hb' | hb'
    · exact hold t ht htlive hthost hne b' hb' c hc
    · exact hnew t ht htlive (hthost.trans hhost) hne b' hb' c hc
  · rw [htarget] at hfree
    have hnoClash : store.NoClash service.base.hostId service.id service.base.bindings := by
      by_cases hsource : service.base.source.isFromDiscovery = true
      · exact validateBindingsAvailable_eq_none.mp (hfree (.inr hsource))
      · unfold checkInsert at hcheck
        dsimp only at hcheck
        rw [if_neg hsource] at hcheck
        exact available_of_or hcheck
    have htypes : ∀ b ∈ (ServiceWrite.ofService .insert (store.originateService service)).bindings,
        ∃ c ∈ service.base.bindings, c.base.bindingType = b.base.bindingType :=
      fun b hb => exists_type_of_mem_ofService (s := store.originateService service) hb
    exact ⟨nofun, fun _ _ => hnoClash.of_types htypes⟩

theorem sound_of_check (hstore : store.Exclusive) {r : ServiceRequest}
    (hfree : store.FreePorts defs r) (h : store.check defs r = .ok w) : store.Sound w := by
  cases r with
  | create service newId now => exact sound_of_checkCreate hstore hfree h
  | update service =>
    obtain ⟨hcheck, rfl⟩ := check_update h
    have hnoClash := available_of_or hcheck
    exact ⟨nofun, fun _ _ => hnoClash.of_types fun b hb => exists_type_of_mem_ofService hb⟩
  | removePortBindings serviceId claims =>
    obtain ⟨r, hr, -, hmode, hservice, hbindings⟩ := check_removePortBindings h
    constructor
    · intro _ r' hr' hid
      rw [hservice] at hid ⊢
      rw [store.services.eq_of_key hr' hr hid]
      exact ⟨rfl, rfl⟩
    · intro _ hlive
      rw [hservice] at hlive ⊢
      rw [hbindings]
      refine (hstore.noClash hr hlive).of_types fun b hb => ?_
      exact ⟨b, mem_of_mem_filter hb, rfl⟩
  | delete serviceId =>
    obtain ⟨-, -, -, hmode, -⟩ := check_delete h
    refine ⟨fun hkeep => ?_, fun hne => absurd hmode hne⟩
    rw [hmode] at hkeep
    exact absurd hkeep nofun

theorem mem_bindingsOf_of_written (h : Written store draws w (store', true))
    (hne : serviceId ≠ w.service.id) (hb : b ∈ store'.bindingsOf serviceId) :
    b ∈ store.bindingsOf serviceId := by
  obtain ⟨hb, hservice⟩ := mem_bindingsOf.mp hb
  rw [← hservice] at hne
  exact mem_bindingsOf.mpr ⟨(h.otherBindings b hne).mp hb, hservice⟩

theorem service_of_written (h : Written store draws w (store', true)) (hsound : store.Sound w)
    (hs : s ∈ store'.services) (hid : s.id = w.service.id) :
    w.mode ≠ .delete ∧ s.base.hostId = w.service.base.hostId ∧ s.isLive = w.service.isLive := by
  rcases h.service rfl s hs hid with ⟨hmode, rfl⟩ | ⟨hmode, hs⟩
  · refine ⟨?_, rfl, rfl⟩
    rcases hmode with hmode | hmode <;> rw [hmode] <;> nofun
  · exact ⟨by rw [hmode]; nofun, hsound.kept hmode s hs hid⟩

theorem exclusive_of_written (h : Written store draws w (store', true))
    (hstore : store.Exclusive) (hsound : store.Sound w) : store'.Exclusive := by
  have hwritten : ∀ s ∈ store'.services, ∀ t ∈ store'.services, s.isLive = true →
      t.isLive = true → s.id = w.service.id → t.id ≠ w.service.id →
      s.base.hostId = t.base.hostId → ∀ b ∈ store'.bindingsOf s.id, ∀ c ∈ store'.bindingsOf t.id,
        b.base.bindingType.overlaps c.base.bindingType = false := by
    intro s hs t ht hslive htlive hid hne hhost b hb c hc
    obtain ⟨hmode, hshost, hlive⟩ := service_of_written h hsound hs hid
    obtain ⟨t₀, ht₀, htid, hthost, htlive₀⟩ := h.exists_before ht hne
    rw [hid] at hb
    obtain ⟨hb, hservice⟩ := mem_bindingsOf.mp hb
    obtain ⟨b', hb', -, htype⟩ := h.bindings rfl b hb hservice
    have hmem : b'.base.bindingType ∈ w.bindings.map (·.base.bindingType) := by
      rw [← map_bindingType_assignIds draws]
      exact mem_map_of_mem hb'
    obtain ⟨b'', hb'', htype'⟩ := mem_map.mp hmem
    have hc' := mem_bindingsOf_of_written h hne hc
    rw [← htid] at hne hc'
    rw [← htype, ← htype']
    exact hsound.free hmode (hlive.symm.trans hslive) t₀ ht₀ (htlive₀.trans htlive)
      (hthost.trans (hhost.symm.trans hshost)) hne b'' hb'' c hc'
  intro s hs t ht hslive htlive hne hhost b hb c hc
  by_cases hsid : s.id = w.service.id
  · exact hwritten s hs t ht hslive htlive hsid (fun htid => hne (hsid.trans htid.symm)) hhost
      b hb c hc
  · by_cases htid : t.id = w.service.id
    · rw [overlaps_comm]
      exact hwritten t ht s hs htlive hslive htid hsid hhost.symm c hc b hb
    · obtain ⟨s₀, hs₀, hs₀_id, hs₀_host, hs₀_live⟩ := h.exists_before hs hsid
      obtain ⟨t₀, ht₀, ht₀_id, ht₀_host, ht₀_live⟩ := h.exists_before ht htid
      have hb' := mem_bindingsOf_of_written h hsid hb
      have hc' := mem_bindingsOf_of_written h htid hc
      rw [← hs₀_id] at hb' hne
      rw [← ht₀_id] at hc' hne
      exact hstore s₀ hs₀ t₀ ht₀ (hs₀_live.trans hslive) (ht₀_live.trans htlive) hne
        (hs₀_host.trans (hhost.trans ht₀_host.symm)) b hb' c hc'

theorem Sound.of_written {w' : ServiceWrite} (h : Written store draws w (store', true))
    (hsound : store.Sound w) (hsound' : store.Sound w')
    (hhost : w'.service.base.hostId ≠ w.service.base.hostId)
    (hservice : w'.service.id ≠ w.service.id) : store'.Sound w' := by
  constructor
  · intro hmode r hr hid
    have hne : r.id ≠ w.service.id := by rwa [hid]
    obtain ⟨r₀, hr₀, hr₀_id, hr₀_host, hr₀_live⟩ := h.exists_before hr hne
    rw [← hr₀_host, ← hr₀_live]
    exact hsound'.kept hmode r₀ hr₀ (hr₀_id.trans hid)
  · intro hmode hlive t ht htlive hthost hne b hb c hc
    have htid : t.id ≠ w.service.id := by
      intro htid
      exact hhost (hthost.symm.trans (service_of_written h hsound ht htid).2.1)
    obtain ⟨t₀, ht₀, ht₀_id, ht₀_host, ht₀_live⟩ := h.exists_before ht htid
    have hc' := mem_bindingsOf_of_written h htid hc
    rw [← ht₀_id] at hc' hne
    exact hsound'.free hmode hlive t₀ ht₀ (ht₀_live.trans htlive) (ht₀_host.trans hthost) hne b hb
      c hc'

end ServiceStore

structure ServiceSystem.Exclusive (s : ServiceSystem) : Prop where
  store : s.store.Exclusive
  pending : ∀ p ∈ s.pending, p.overtaken = false → s.store.Sound p.write

theorem PendingWrite.of_overtake {w : ServiceWrite} {p : PendingWrite}
    (h : (p.overtake w).overtaken = false) :
    p.overtake w = p ∧ p.write.service.base.hostId ≠ w.service.base.hostId ∧
      p.write.service.id ≠ w.service.id := by
  unfold overtake at h ⊢
  by_cases hsame : (p.write.service.base.hostId = w.service.base.hostId ||
      p.write.service.id = w.service.id : Bool) = true
  · rw [if_pos hsame] at h
    exact Bool.noConfusion h
  · rw [if_neg hsame]
    rw [Bool.or_eq_true, decide_eq_true_eq, decide_eq_true_eq, not_or] at hsame
    exact ⟨rfl, hsame⟩

theorem ServiceSystem.Exclusive.step {defs : ServiceDefinitions} {s s' : ServiceSystem}
    {e : ServiceEvent} (hs : s.Exclusive) (hfree : ClaimsFree defs s e)
    (h : s.step defs e = some s') : s'.Exclusive := by
  rcases step_cases h with ⟨hstore, hpending⟩ | ⟨r, w, hbegins, hw, hstore, hpending⟩ |
    ⟨i, draws, p, rfl, hp, hstore, hpending⟩
  · constructor
    · rw [hstore]
      exact hs.store
    · rw [hstore, hpending]
      exact hs.pending
  · refine ⟨by rw [hstore]; exact hs.store, fun p hp hcurrent => ?_⟩
    rw [hpending] at hp
    rw [hstore]
    rcases mem_append.mp hp with hp | hp
    · exact hs.pending p hp hcurrent
    · rw [mem_singleton.mp hp]
      exact ServiceStore.sound_of_check hs.store (hfree.2.1 r hbegins) hw
  · have hsound := hs.pending p (mem_of_getElem? hp) (hfree.2.2 p hp)
    rcases ServiceStore.write_ok_or_eq (hfree.1 p hp) with hok | hsame
    · have hwritten : s.store.Written draws p.write ((s.store.write draws p.write).1, true) := by
        rw [← hok]
        exact ServiceStore.written_write p.write
      rw [← hstore] at hwritten
      refine ⟨ServiceStore.exclusive_of_written hwritten hs.store hsound, fun q' hq' hcurrent => ?_⟩
      rw [hpending] at hq'
      obtain ⟨q, hq, rfl⟩ := mem_map.mp hq'
      obtain ⟨hq_eq, hhost, hservice⟩ := PendingWrite.of_overtake hcurrent
      rw [hq_eq] at hcurrent ⊢
      have hsound' := hs.pending q (mem_of_mem_eraseIdx hq) hcurrent
      exact ServiceStore.Sound.of_written hwritten hsound hsound' hhost hservice
    · rw [hsame] at hstore
      refine ⟨by rw [hstore]; exact hs.store, fun q' hq' hcurrent => ?_⟩
      rw [hpending] at hq'
      obtain ⟨q, hq, rfl⟩ := mem_map.mp hq'
      obtain ⟨hq_eq, -⟩ := PendingWrite.of_overtake hcurrent
      rw [hq_eq] at hcurrent ⊢
      rw [hstore]
      exact hs.pending q (mem_of_mem_eraseIdx hq) hcurrent

/-- From exclusive claims, every interleaving keeps them exclusive in which no request is overtaken
on its host between its check and its write, and in which the requests that are not checked ask for
free ports. -/
theorem exclusive_of_claimsFree {defs : ServiceDefinitions} {store : ServiceStore}
    (hstore : store.Exclusive) {s : ServiceSystem}
    (hs : (serviceLts defs store).ReachableVia (ClaimsFree defs) s) : s.store.Exclusive := by
  have hinit : ServiceSystem.Exclusive { store } := ⟨hstore, fun p hp => absurd hp not_mem_nil⟩
  have hinv : s.Exclusive :=
    hs.invariant hinit fun _ _ _ _ hinv hfree hstep => hinv.step hfree hstep
  exact hinv.store

private def onServer (id : Uuid) (definition : String) (bindings : List Binding) : TrackedService :=
  ⟨id, 0, 0, none, none, {
    hostId := 10, networkId := 9, serviceDefinition := definition, name := definition
    bindings := bindings, virtualizationServiceId := none, position := 0, source := .discovery }⟩

private def listens (id port : Uuid) : Binding :=
  ⟨id, 0, 0, none, none, ⟨Uuid.nil, 9, .port port none⟩⟩

private def serverStore : ServiceStore where
  services := ⟨[onServer 1 "HAProxy" [], onServer 2 "Varnish" []], by decide⟩
  bindings := ⟨[], by decide⟩
  ports := ⟨[⟨31, 0, 0, none, none, ⟨10, 9, 80, .tcp⟩⟩,
    ⟨32, 0, 0, none, none, ⟨10, 9, 6081, .tcp⟩⟩], by decide⟩
  ipAddresses := ⟨[], by decide⟩

private def specificDefinitions : ServiceDefinitions :=
  ⟨fun _ => false, fun _ => false, fun _ => false⟩

private def drawn (n : ℕ) : Uuid := BitVec.ofNat 128 (100 + n)

private def oneByOne : List ServiceEvent :=
  [.start (.update (onServer 1 "HAProxy" [listens 21 31])), .finish 0 drawn,
    .start (.create (onServer 5 "Varnish" [listens 22 32]) 6 0), .finish 0 drawn]

private def scanned : TransferContext where
  host := ⟨10, 0, 0, none, none, ⟨"server", 9, none, none, none, false, []⟩⟩
  originalIpAddresses := []
  originalPorts := [⟨51, 0, 0, none, none, ⟨50, 9, 80, .tcp⟩⟩]
  ipAddresses := []
  ports := [⟨31, 0, 0, none, none, ⟨10, 9, 80, .tcp⟩⟩]
  ipAddressIdRemap := HashMap.empty
  existingServices := [onServer 1 "HAProxy" [], onServer 2 "Varnish" []]
  batchClaimed := []
  serviceIdRemap := HashMap.empty
  liveServiceIds := [1, 2]

private def betweenLookAndCreate : List ServiceEvent :=
  [.discover (.transfer scanned (onServer 5 "Varnish" [listens 22 51]) 6 0),
    .start (.update (onServer 1 "HAProxy" [listens 21 31])), .finish 0 drawn, .next 0,
    .finish 0 drawn]

private def atOnce : List ServiceEvent :=
  [.start (.update (onServer 1 "HAProxy" [listens 21 31])),
    .start (.update (onServer 2 "Varnish" [listens 22 31])), .finish 0 drawn, .finish 0 drawn]

theorem exclusive_of_claimsFree_oneByOne :
    ∃ s, (serviceLts specificDefinitions serverStore).run { store := serverStore } oneByOne =
        some s ∧
      (s.store.bindingsOf 1).map (·.base.bindingType) = [.port 31 none] ∧
      (s.store.bindingsOf 2).map (·.base.bindingType) = [.port 32 none] ∧ s.store.Exclusive := by
  obtain ⟨s, hrun⟩ : ∃ s, (serviceLts specificDefinitions serverStore).run
      { store := serverStore } oneByOne = some s := ⟨_, rfl⟩
  have hguarded : (serviceLts specificDefinitions serverStore).Guarded
      (ClaimsFree specificDefinitions) { store := serverStore } oneByOne := by decide
  have hs := exclusive_of_claimsFree (by decide) (Lts.reachableVia_of_run .init hguarded hrun)
  cases hrun
  exact ⟨_, rfl, by decide, by decide, hs⟩

/-- Two updates of different services take different locks and claim one port; and a discovered
service, once its ports were found free, is merged into the stored one without another look. -/
theorem not_exclusive : serverStore.Exclusive ∧
    (∃ s, (serviceLts specificDefinitions serverStore).run { store := serverStore } atOnce =
      some s ∧ ¬s.store.Exclusive) ∧
    ∃ s, (serviceLts specificDefinitions serverStore).run { store := serverStore }
      betweenLookAndCreate = some s ∧ ¬s.store.Exclusive := by
  refine ⟨by decide, ⟨_, rfl, ?_⟩, ⟨_, rfl, ?_⟩⟩
  · decide
  · decide

end Scanopy
