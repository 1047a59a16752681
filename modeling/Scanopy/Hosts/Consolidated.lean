import Scanopy.Hosts.Consolidate

/-! What a consolidation leaves at the destination. The rows of the absorbed host are there, or rows
that stand for them, and the bindings of the services that have moved lead to them. -/

namespace Scanopy

open List BindingType ServiceStore

namespace ServiceStore
variable {store : ServiceStore} {hostId : Uuid}

theorem mem_hostAddresses {a : IPAddress} : a ∈ store.hostAddresses hostId ↔
    a ∈ store.ipAddresses ∧ a.isLive = true ∧ a.base.hostId = hostId := by
  unfold hostAddresses
  rw [mem_insertionSort, mem_filter, Bool.and_eq_true, decide_eq_true_eq]
  rfl

theorem mem_hostPorts {p : Port} : p ∈ store.hostPorts hostId ↔
    p ∈ store.ports ∧ p.base.hostId = hostId := by
  unfold hostPorts
  rw [mem_insertionSort, mem_filter, decide_eq_true_eq]
  rfl

theorem nodup_hostAddresses (store : ServiceStore) (hostId : Uuid) :
    ((store.hostAddresses hostId).map (·.id)).Nodup := by
  unfold hostAddresses
  rw [((perm_insertionSort _ _).map _).nodup_iff]
  exact store.ipAddresses.nodup.sublist (filter_sublist.map _)

theorem nodup_hostPorts (store : ServiceStore) (hostId : Uuid) :
    ((store.hostPorts hostId).map (·.id)).Nodup := by
  unfold hostPorts
  rw [((perm_insertionSort _ _).map _).nodup_iff]
  exact store.ports.nodup.sublist (filter_sublist.map _)

theorem nodup_liveServices (store : ServiceStore) (hostId : Uuid) :
    ((store.liveServices hostId).map (·.id)).Nodup := by
  unfold liveServices
  rw [map_map, ((perm_insertionSort _ _).map _).nodup_iff]
  exact store.services.nodup.sublist (filter_sublist.map _)

end ServiceStore

def ShareMac (dest other : List IPAddress) (a d : IPAddress) : Prop :=
  ∃ mac, d.base.macAddress = some mac ∧ a.base.macAddress = some mac ∧
    macCount dest mac = 1 ∧ macCount other mac = 1

def SharePlace (a d : IPAddress) : Prop :=
  d.base.subnetId = a.base.subnetId ∧ d.base.ipAddress = a.base.ipAddress

theorem sameInterface_iff {dest other : List IPAddress} {a d : IPAddress} :
    sameInterface dest other a d = true ↔ SharePlace a d ∨ ShareMac dest other a d := by
  unfold sameInterface ipAddressesShareAddress SharePlace ShareMac
  rw [Bool.or_eq_true]
  refine or_congr ?_ ?_
  · rw [Bool.and_eq_true, decide_eq_true_eq, decide_eq_true_eq, and_comm]
  · cases d.base.macAddress with
    | none => simp
    | some mac =>
      simp only [Option.isSome_some, Bool.true_and, Bool.and_eq_true, decide_eq_true_eq,
        Option.any_some, Option.some.injEq, exists_eq_left']
      rw [@eq_comm _ (some mac)]

def ServiceStore.Inside (store : ServiceStore) (hostId : Uuid) (t : BindingType) : Prop :=
  (∀ portId, t.portId = some portId → ∃ p ∈ store.ports, p.id = portId ∧ p.base.hostId = hostId) ∧
    ∀ ip, t.ipAddressId = some ip →
      ∃ a ∈ store.ipAddresses, a.id = ip ∧ a.isLive = true ∧ a.base.hostId = hostId

namespace ServiceStore
variable {store : ServiceStore} {hostId : Uuid}

theorem mem_hostPortIds {portId : Uuid} : portId ∈ store.hostPortIds hostId ↔
    ∃ p ∈ store.ports, p.id = portId ∧ p.base.hostId = hostId := by
  unfold hostPortIds
  rw [mem_map]
  refine exists_congr fun p => ?_
  rw [mem_filter, decide_eq_true_eq, and_assoc, and_comm (a := p.base.hostId = hostId)]
  rfl

theorem mem_hostIpAddressIds {ip : Uuid} : ip ∈ store.hostIpAddressIds hostId ↔
    ∃ a ∈ store.ipAddresses, a.id = ip ∧ a.isLive = true ∧ a.base.hostId = hostId := by
  unfold hostIpAddressIds
  rw [mem_map]
  refine exists_congr fun a => ?_
  rw [mem_filter, Bool.and_eq_true, decide_eq_true_eq, and_assoc, and_comm (b := a.id = ip)]
  rfl

theorem inside_iff {b : Binding} :
    store.Inside hostId b.base.bindingType ↔ store.foreignReference hostId b = none := by
  unfold Inside foreignReference
  simp only [← mem_hostPortIds, ← mem_hostIpAddressIds]
  cases b.base.bindingType with
  | ipAddress ip => simp [BindingType.portId, ipAddressId]
  | port portId ip =>
    by_cases hport : portId ∈ store.hostPortIds hostId
    · cases ip with
      | none => simp [BindingType.portId, ipAddressId, hport]
      | some ip => simp [BindingType.portId, ipAddressId, hport]
    · simp [BindingType.portId, ipAddressId, hport]

end ServiceStore

namespace ConsolidationState
variable {s : ConsolidationState} {destination other : Uuid} {host : TrackedHost}
variable {p : Port}

theorem mem_absorbedAddresses_of_destination (hne : destination ≠ other) {d : IPAddress}
    (hd : d ∈ s.children.ipAddresses) (hhost : d.base.hostId = destination) :
    d ∈ (s.absorbedAddresses destination other).table := by
  refine mem_table_of_kept (IPAddress.id_transferTo destination) hd fun a ha hid => ?_
  obtain ⟨ha, -, hother⟩ := mem_hostAddresses.mp ha
  rw [s.children.ipAddresses.eq_of_key ha hd hid, hhost] at hother
  exact absurd hother hne

theorem mem_absorbedPorts_of_destination (hne : host.id ≠ other)
    (hp : p ∈ s.children.ports) (hhost : p.base.hostId = host.id) :
    p ∈ (s.absorbedPorts host other).table := by
  refine mem_table_of_kept (Port.id_withHost host.id host.base.networkId) hp fun q hq hid => ?_
  obtain ⟨hq, hother⟩ := mem_hostPorts.mp hq
  rw [s.children.ports.eq_of_key hq hp hid, hhost] at hother
  exact absurd hother hne

theorem exists_absorbedAddress (hne : destination ≠ other) {a : IPAddress}
    (ha : a ∈ s.children.hostAddresses other) :
    ∃ d ∈ (s.absorbedAddresses destination other).table, d.isLive = true ∧
      d.base.hostId = destination ∧
      (s.absorbedAddresses destination other).idMap.get a.id = some d.id ∧
      (SharePlace a d ∨ d ∈ s.children.hostAddresses destination ∧
        ShareMac (s.children.hostAddresses destination) (s.children.hostAddresses other) a d) := by
  obtain ⟨hstored, hlive, -⟩ := mem_hostAddresses.mp ha
  have hfound : ∀ d, matchingAddress (s.children.hostAddresses destination)
      (s.children.hostAddresses other) a = some d → d ∈ s.children.hostAddresses destination :=
    fun _ hd => mem_of_find?_eq_some hd
  obtain ⟨d, hd, hget, hmatch | rfl⟩ := exists_mem_absorbAll
    (IPAddress.id_transferTo destination) (s.children.nodup_hostAddresses other) ha hstored fun d hd =>
      have hdest := mem_hostAddresses.mp (hfound d hd)
      mem_absorbedAddresses_of_destination hne hdest.1 hdest.2.2
  · obtain ⟨-, hlive, hhost⟩ := mem_hostAddresses.mp (hfound d hmatch)
    exact ⟨d, hd, hlive, hhost, hget, (sameInterface_iff.mp (find?_some hmatch)).imp_right
      fun hmac => ⟨hfound d hmatch, hmac⟩⟩
  · exact ⟨_, hd, hlive, rfl, hget, .inl ⟨rfl, rfl⟩⟩

theorem exists_absorbedPort (hne : host.id ≠ other)
    (hp : p ∈ s.children.hostPorts other) :
    ∃ d ∈ (s.absorbedPorts host other).table, d.base.hostId = host.id ∧
      (s.absorbedPorts host other).idMap.get p.id = some d.id ∧
      d.base.number = p.base.number ∧ d.base.protocol = p.base.protocol := by
  obtain ⟨hstored, -⟩ := mem_hostPorts.mp hp
  have hfound : ∀ d, matchingPort (s.children.hostPorts host.id) p = some d →
      d ∈ s.children.hostPorts host.id := fun _ hd => mem_of_find?_eq_some hd
  obtain ⟨d, hd, hget, hmatch | rfl⟩ := exists_mem_absorbAll
    (Port.id_withHost host.id host.base.networkId) (s.children.nodup_hostPorts other) hp hstored fun d hd =>
      have hdest := mem_hostPorts.mp (hfound d hd)
      mem_absorbedPorts_of_destination hne hdest.1 hdest.2
  · have hsame := find?_some hmatch
    rw [Bool.and_eq_true, decide_eq_true_eq, decide_eq_true_eq] at hsame
    exact ⟨d, hd, (mem_hostPorts.mp (hfound d hmatch)).2, hget, hsame⟩
  · exact ⟨_, hd, rfl, hget, rfl, rfl⟩

end ConsolidationState

namespace ServiceStore
variable {defs : ServiceDefinitions} {store store' : ServiceStore} {draws : ℕ → Uuid}
  {s : TrackedService}

/-- The service is on its host: its bindings are some of those of `s`, and refer to rows of the
host; a binding that is not there is covered by one that is. -/
structure Arrived (store : ServiceStore) (s : TrackedService) : Prop where
  service : ∀ t ∈ store.services, t.id = s.id → t.base.hostId = s.base.hostId
  inside : ∀ b ∈ store.bindings, b.base.serviceId = s.id →
    store.Inside s.base.hostId b.base.bindingType
  submitted : ∀ b ∈ store.bindings, b.base.serviceId = s.id → ∃ c ∈ s.base.bindings,
    (c.id = Uuid.nil ∨ c.id = b.id) ∧ b.base.bindingType = c.base.bindingType
  kept : (s.base.bindings.map (·.id)).Nodup → (∀ c ∈ s.base.bindings, c.id ≠ Uuid.nil) →
    ∀ c ∈ s.base.bindings, ∃ b ∈ store.bindings, b.base.serviceId = s.id ∧
      (b.base.bindingType = c.base.bindingType ∨
        b.base.bindingType.covers c.base.bindingType = true)

structure Updated (store store' : ServiceStore) (s : TrackedService) : Prop where
  ports : store'.ports = store.ports
  ipAddresses : store'.ipAddresses = store.ipAddresses
  otherServices : ∀ t : TrackedService, t.id ≠ s.id → (t ∈ store'.services ↔ t ∈ store.services)
  otherBindings : ∀ b : Binding, b.base.serviceId ≠ s.id →
    (b ∈ store'.bindings ↔ b ∈ store.bindings)
  arrived : Arrived store' s

def updateWrite (s : TrackedService) : ServiceWrite :=
  .ofService .update (s.withBindings (deduplicateBindings s.base.bindings))

theorem of_updateService (h : store.updateService defs draws s = .ok store') :
    store.validateBindingsBelongToHost s.base.hostId (deduplicateBindings s.base.bindings) = none ∧
      store.write draws (updateWrite s) = (store', true) := by
  unfold updateService at h
  split at h
  · cases h
  next w hcheck =>
    obtain ⟨hvalid, rfl⟩ := check_update hcheck
    obtain ⟨-, hvalid⟩ := Option.or_eq_none_iff.mp hvalid
    refine ⟨(Option.or_eq_none_iff.mp hvalid).1, ?_⟩
    split at h
    next store'' hwrite =>
      cases h
      exact hwrite
    · cases h

theorem submitted_of_write (hwrite : store.write draws (updateWrite s) = (store', true))
    {b : Binding} (hb : b ∈ store'.bindings) (hservice : b.base.serviceId = s.id) :
    ∃ c ∈ deduplicateBindings s.base.bindings,
      (c.id = Uuid.nil ∨ c.id = b.id) ∧ b.base.bindingType = c.base.bindingType := by
  have hwritten : Written store draws (updateWrite s) (store', true) := hwrite ▸ written_write _
  obtain ⟨c, hc, hid, htype⟩ := hwritten.bindings rfl b hb hservice
  obtain ⟨c', hc', hid', hbase⟩ := exists_of_mem_assignIds hc
  obtain ⟨d, hd, rfl⟩ := mem_map.mp hc'
  refine ⟨d, hd, hid'.imp_right fun heq => heq.trans hid, ?_⟩
  rw [← htype, ← hbase]
  rfl

theorem kept_of_write (hwrite : store.write draws (updateWrite s) = (store', true))
    (hnodup : (s.base.bindings.map (·.id)).Nodup) (hids : ∀ c ∈ s.base.bindings, c.id ≠ Uuid.nil)
    {c : Binding} (hc : c ∈ s.base.bindings) : ∃ b ∈ store'.bindings, b.base.serviceId = s.id ∧
      (b.base.bindingType = c.base.bindingType ∨
        b.base.bindingType.covers c.base.bindingType = true) := by
  obtain ⟨d, hd, hkeeps⟩ := exists_mem_deduplicateBindings hc
  have hsaved : { store with services := store.services.set (updateWrite s).service }.saveForParent
      s.id draws (updateWrite s).bindings = (store', true) := by
    change (if store.hasService s.id then _ else (store, false)) = _ at hwrite
    split_ifs at hwrite
    · exact hwrite
    · cases hwrite
  have hdistinct : ((updateWrite s).bindings.map (·.id)).Nodup := by
    refine map_map.symm ▸ List.Nodup.map_on (fun c hc c' hc' hid => ?_)
      (List.Nodup.of_map _ (deduplicated s.base.bindings).nodup)
    exact inj_on_of_nodup_map hnodup (mem_of_mem_deduplicateBindings hc)
      (mem_of_mem_deduplicateBindings hc') hid
  obtain ⟨b, hb, -, hbase⟩ := exists_of_saveForParent hsaved hdistinct
    (mem_map_of_mem hd) (hids d (mem_of_mem_deduplicateBindings hd))
  refine ⟨b, hb, ?_, ?_⟩
  · rw [hbase]
    rfl
  · rw [hbase]
    exact hkeeps

theorem updated_of_updateService (h : store.updateService defs draws s = .ok store') :
    Updated store store' s := by
  obtain ⟨hvalid, hwrite⟩ := of_updateService h
  have hwritten : Written store draws (updateWrite s) (store', true) := hwrite ▸ written_write _
  refine ⟨hwritten.ports, hwritten.ipAddresses, fun t hne => ?_, hwritten.otherBindings,
    fun t ht hid => ?_, fun b hb hservice => ?_, fun b hb hservice => ?_,
    fun hnodup hids c hc => kept_of_write hwrite hnodup hids hc⟩
  · rw [hwritten.otherServices t hne]
    exact release_of_ne (by nofun) t
  · rcases hwritten.service rfl t ht hid with ⟨-, rfl⟩ | ⟨hmode, -⟩
    · rfl
    · cases hmode
  · obtain ⟨c, hc, -, htype⟩ := submitted_of_write hwrite hb hservice
    have hinside := inside_iff.mpr (findSome?_eq_none_iff.mp hvalid c hc)
    rw [htype]
    unfold Inside at hinside ⊢
    rwa [hwritten.ports, hwritten.ipAddresses]
  · obtain ⟨c, hc, hsource⟩ := submitted_of_write hwrite hb hservice
    exact ⟨c, mem_of_mem_deduplicateBindings hc, hsource⟩

theorem Arrived.of_frame (h : Arrived store s) (hports : store'.ports = store.ports)
    (hipAddresses : store'.ipAddresses = store.ipAddresses)
    (hservices : ∀ t : TrackedService, t.id = s.id → (t ∈ store'.services ↔ t ∈ store.services))
    (hbindings : ∀ b : Binding, b.base.serviceId = s.id →
      (b ∈ store'.bindings ↔ b ∈ store.bindings)) : Arrived store' s := by
  refine ⟨fun t ht hid => h.service t ((hservices t hid).mp ht) hid, fun b hb hid => ?_,
    fun b hb hid => h.submitted b ((hbindings b hid).mp hb) hid, fun hnodup hids c hc => ?_⟩
  · have hinside := h.inside b ((hbindings b hid).mp hb) hid
    unfold Inside at hinside ⊢
    rwa [hports, hipAddresses]
  · obtain ⟨b, hb, hid, hkeeps⟩ := h.kept hnodup hids c hc
    exact ⟨b, (hbindings b hid).mpr hb, hid, hkeeps⟩

structure AbsorbedServices (existing : List TrackedService)
    (transfer : TrackedService → TrackedService) (store store' : ServiceStore)
    (services : List TrackedService) : Prop where
  ports : store'.ports = store.ports
  ipAddresses : store'.ipAddresses = store.ipAddresses
  otherServices : ∀ t : TrackedService,
    (∀ s ∈ services, isDuplicateService existing s = false → s.id ≠ t.id) →
      (t ∈ store'.services ↔ t ∈ store.services)
  otherBindings : ∀ b : Binding,
    (∀ s ∈ services, isDuplicateService existing s = false → s.id ≠ b.base.serviceId) →
      (b ∈ store'.bindings ↔ b ∈ store.bindings)
  arrived : ∀ s ∈ services, isDuplicateService existing s = false → Arrived store' (transfer s)

theorem absorbedServices_of_absorbServices {draws : Uuid → ℕ → Uuid}
    {existing services : List TrackedService} {transfer : TrackedService → TrackedService}
    (htransfer : ∀ s, (transfer s).id = s.id) (hnodup : (services.map (·.id)).Nodup)
    (h : absorbServices defs draws existing transfer store services = .ok store') :
    AbsorbedServices existing transfer store store' services := by
  induction services generalizing store with
  | nil =>
    cases h
    exact ⟨rfl, rfl, fun _ _ => Iff.rfl, fun _ _ => Iff.rfl, fun _ hs => absurd hs not_mem_nil⟩
  | cons s services ih =>
    rw [map_cons, nodup_cons] at hnodup
    rw [absorbServices] at h
    cases hduplicate : isDuplicateService existing s with
    | true =>
      rw [hduplicate, if_pos rfl] at h
      obtain ⟨hports, hipAddresses, hservices, hbindings, harrived⟩ := ih hnodup.2 h
      -- a duplicate is not touched
      refine ⟨hports, hipAddresses, fun t ht => hservices t (forall_mem_cons.mp ht).2,
        fun b hb => hbindings b (forall_mem_cons.mp hb).2, fun s' hs' hnew => ?_⟩
      rcases mem_cons.mp hs' with rfl | hs'
      · rw [hduplicate] at hnew
        cases hnew
      · exact harrived s' hs' hnew
    | false =>
      rw [hduplicate, if_neg Bool.false_ne_true] at h
      split at h
      · cases h
      next next hupdate =>
        have hupdated := updated_of_updateService hupdate
        obtain ⟨hports, hipAddresses, hservices, hbindings, harrived⟩ := ih hnodup.2 h
        refine ⟨hports.trans hupdated.ports, hipAddresses.trans hupdated.ipAddresses,
          fun t ht => ?_, fun b hb => ?_, fun s' hs' hnew => ?_⟩
        · obtain ⟨hne, ht⟩ := forall_mem_cons.mp ht
          rw [hservices t ht, hupdated.otherServices t]
          rw [htransfer]
          exact Ne.symm (hne hduplicate)
        · obtain ⟨hne, hb⟩ := forall_mem_cons.mp hb
          rw [hbindings b hb, hupdated.otherBindings b]
          rw [htransfer]
          exact Ne.symm (hne hduplicate)
        · rcases mem_cons.mp hs' with rfl | hs'
          · -- the services after it have other ids, so it stays as it has arrived
            have hrest : ∀ r ∈ services, isDuplicateService existing r = false → r.id ≠ s'.id :=
              fun r hr _ heq => hnodup.1 (mem_map.mpr ⟨r, hr, heq⟩)
            refine hupdated.arrived.of_frame hports hipAddresses (fun t ht => ?_) fun b hb => ?_
            · rw [htransfer] at ht
              exact hservices t (ht ▸ hrest)
            · rw [htransfer] at hb
              exact hbindings b (hb ▸ hrest)
          · exact harrived s' hs' hnew

section Delete
variable {hostId : Uuid}
variable {b : Binding} {destination : Uuid}

theorem mem_ports_deleteHost {p : Port} :
    p ∈ (store.deleteHost hostId).ports ↔ p ∈ store.ports ∧ p.base.hostId ≠ hostId := by
  refine Table.mem_delete.trans ?_
  rw [decide_eq_false_iff_not]

theorem mem_ipAddresses_deleteHost {a : IPAddress} :
    a ∈ (store.deleteHost hostId).ipAddresses ↔ a ∈ store.ipAddresses ∧ a.base.hostId ≠ hostId := by
  refine Table.mem_delete.trans ?_
  rw [decide_eq_false_iff_not]

theorem exists_of_mem_deleteHost {t : TrackedService}
    (ht : t ∈ (store.deleteHost hostId).services) :
    ∃ t₀ ∈ store.services, t₀.id = t.id ∧ t₀.base.hostId = t.base.hostId ∧
      t₀.isLive = t.isLive ∧ t₀.base.hostId ≠ hostId := by
  obtain ⟨t₀, ht₀, rfl⟩ := mem_map.mp ht
  obtain ⟨ht₀, hhost⟩ := Table.mem_delete.mp ht₀
  exact ⟨t₀, ht₀, rfl, rfl, rfl, of_decide_eq_false hhost⟩

theorem mem_of_mem_bindings_deleteHost
    (hb : b ∈ (store.deleteHost hostId).bindings) : b ∈ store.bindings :=
  (Table.mem_delete.mp hb).1

theorem Inside.deleteHost (hne : destination ≠ hostId) {t : BindingType}
    (h : store.Inside destination t) : (store.deleteHost hostId).Inside destination t := by
  refine ⟨fun portId hport => ?_, fun ip hip => ?_⟩
  · obtain ⟨p, hp, hid, hhost⟩ := h.1 portId hport
    exact ⟨p, mem_ports_deleteHost.mpr ⟨hp, hhost ▸ hne⟩, hid, hhost⟩
  · obtain ⟨a, ha, hid, hlive, hhost⟩ := h.2 ip hip
    exact ⟨a, mem_ipAddresses_deleteHost.mpr ⟨ha, hhost ▸ hne⟩, hid, hlive, hhost⟩

theorem mem_bindings_deleteHost (hne : destination ≠ hostId)
    (hb : b ∈ store.bindings) (hinside : store.Inside destination b.base.bindingType)
    (hservice : b.base.serviceId ∉ store.serviceIdsOf hostId) :
    b ∈ (store.deleteHost hostId).bindings := by
  refine Table.mem_delete.mpr ⟨hb, ?_⟩
  rw [Bool.or_eq_false_iff, Bool.or_eq_false_iff, decide_eq_false_iff_not]
  refine ⟨⟨hservice, ?_⟩, ?_⟩
  · cases hport : b.base.bindingType.portId with
    | none => rfl
    | some portId =>
      obtain ⟨p, hp, hid, hhost⟩ := hinside.1 portId hport
      refine List.any_eq_false.mpr fun r hr hdeleted => hne ?_
      rw [Bool.and_eq_true, decide_eq_true_eq, decide_eq_true_eq] at hdeleted
      rw [← hhost, store.ports.eq_of_key hp hr (hid.trans hdeleted.1.symm), hdeleted.2]
  · cases hip : b.base.bindingType.ipAddressId with
    | none => rfl
    | some ip =>
      obtain ⟨a, ha, hid, -, hhost⟩ := hinside.2 ip hip
      refine List.any_eq_false.mpr fun r hr hdeleted => hne ?_
      rw [Bool.and_eq_true, decide_eq_true_eq, decide_eq_true_eq] at hdeleted
      rw [← hhost, store.ipAddresses.eq_of_key ha hr (hid.trans hdeleted.1.symm), hdeleted.2]

end Delete

end ServiceStore

namespace ConsolidationState
variable {defs : ServiceDefinitions} {draws : Uuid → ℕ → Uuid} {s s' : ConsolidationState}
  {destination other : TrackedHost}

def withAbsorbedRows (s : ConsolidationState) (destination : TrackedHost) (other : Uuid) :
    ServiceStore :=
  { s.children with
    ipAddresses := (s.absorbedAddresses destination.id other).table
    ports := (s.absorbedPorts destination other).table }

def transfer (s : ConsolidationState) (destination : TrackedHost) (other : Uuid) :
    TrackedService → TrackedService :=
  TrackedService.transferTo destination.id destination.base.networkId
    (s.absorbedAddresses destination.id other).idMap (s.absorbedPorts destination other).idMap

theorem of_consolidateHosts (h : s.consolidateHosts defs draws destination other = .ok s') :
    destination.id ≠ other.id ∧ ∃ store : ServiceStore, s'.children = store.deleteHost other.id ∧
      ServiceStore.AbsorbedServices
        ((s.withAbsorbedRows destination other.id).liveServices destination.id)
        (s.transfer destination other.id) (s.withAbsorbedRows destination other.id) store
        ((s.withAbsorbedRows destination other.id).liveServices other.id) := by
  unfold consolidateHosts at h
  split_ifs at h with hsame
  refine ⟨hsame, ?_⟩
  dsimp only at h
  split at h
  · cases h
  next store hservices =>
    split at h
    · cases h
    · split_ifs at h
      cases h
      exact ⟨store, rfl, absorbedServices_of_absorbServices (fun _ => rfl)
        (nodup_liveServices _ _) hservices⟩

/-- The binding `t'` at the destination is what the binding `t` of the absorbed host was: its
address is at the same place, or has the MAC that tells, and its port is the same port. -/
structure LedOver (s s' : ConsolidationState) (destination other : Uuid) (t t' : BindingType) :
    Prop where
  address : ∀ a ∈ s.children.hostAddresses other, t.ipAddressId = some a.id →
    ∃ d ∈ s'.children.hostAddresses destination, t'.ipAddressId = some d.id ∧
      (SharePlace a d ∨ d ∈ s.children.hostAddresses destination ∧
        ShareMac (s.children.hostAddresses destination) (s.children.hostAddresses other) a d)
  port : ∀ p ∈ s.children.hostPorts other, t.portId = some p.id →
    ∃ d ∈ s'.children.hostPorts destination, t'.portId = some d.id ∧
      d.base.number = p.base.number ∧ d.base.protocol = p.base.protocol

def BindsInside (s : ConsolidationState) (hostId serviceId : Uuid) : Prop :=
  ∀ b ∈ s.children.bindings, b.base.serviceId = serviceId →
    s.children.Inside hostId b.base.bindingType

section Stages
variable {store : ServiceStore}
  (hne : destination.id ≠ other.id) (hchildren : s'.children = store.deleteHost other.id)
  (habsorbed : ServiceStore.AbsorbedServices
    ((s.withAbsorbedRows destination other.id).liveServices destination.id)
    (s.transfer destination other.id) (s.withAbsorbedRows destination other.id) store
    ((s.withAbsorbedRows destination other.id).liveServices other.id))
variable {p : Port} {t : TrackedService}
include hne hchildren habsorbed

theorem mem_hostAddresses_of_absorbed {d : IPAddress}
    (hd : d ∈ (s.absorbedAddresses destination.id other.id).table) (hlive : d.isLive = true)
    (hhost : d.base.hostId = destination.id) : d ∈ s'.children.hostAddresses destination.id := by
  rw [hchildren, mem_hostAddresses, mem_ipAddresses_deleteHost,
    habsorbed.ipAddresses]
  exact ⟨⟨hd, hhost ▸ hne⟩, hlive, hhost⟩

theorem mem_hostPorts_of_absorbed (hp : p ∈ (s.absorbedPorts destination other.id).table)
    (hhost : p.base.hostId = destination.id) : p ∈ s'.children.hostPorts destination.id := by
  rw [hchildren, mem_hostPorts, mem_ports_deleteHost, habsorbed.ports]
  exact ⟨⟨hp, hhost ▸ hne⟩, hhost⟩

theorem ledOver_remap (t : BindingType) : LedOver s s' destination.id other.id t
    (t.remap (s.absorbedAddresses destination.id other.id).idMap
      (s.absorbedPorts destination other.id).idMap) := by
  refine ⟨fun a ha hip => ?_, fun p hp hport => ?_⟩
  · obtain ⟨d, hd, hlive, hhost, hget, hsame⟩ := exists_absorbedAddress hne ha
    refine ⟨d, mem_hostAddresses_of_absorbed hne hchildren habsorbed hd hlive hhost, ?_, hsame⟩
    cases t with
    | ipAddress ip =>
      cases hip
      exact congrArg some (by rw [hget]; rfl)
    | port portId ip =>
      cases hip
      exact hget
  · obtain ⟨d, hd, hhost, hget, hsame⟩ := exists_absorbedPort hne hp
    refine ⟨d, mem_hostPorts_of_absorbed hne hchildren habsorbed hd hhost, ?_, hsame⟩
    cases t with
    | ipAddress ip => cases hport
    | port portId ip =>
      cases hport
      exact congrArg some (by rw [hget]; rfl)

omit hne hchildren in
theorem arrived_of_moved {t₀ : TrackedService} (ht₀ : t₀ ∈ s.children.services)
    (hlive : t₀.isLive = true) (hhost : t₀.base.hostId = other.id) (ht : t ∈ store.services)
    (hid : t.id = t₀.id) (hmoved : t.base.hostId ≠ other.id) :
    store.Arrived (s.transfer destination other.id (s.children.hydrate t₀)) := by
  have hmem : s.children.hydrate t₀ ∈
      (s.withAbsorbedRows destination other.id).liveServices other.id :=
    mem_liveServices.mpr ⟨t₀, ht₀, hlive, hhost, rfl⟩
  refine habsorbed.arrived _ hmem (by_contra fun hduplicate => ?_)
  -- a duplicate is still where it was
  have hsame : t ∈ s.children.services := by
    refine (habsorbed.otherServices t fun r hr hnew heq => hduplicate ?_).mp ht
    obtain ⟨r₀, hr₀, -, -, rfl⟩ := mem_liveServices.mp hr
    have hr₀_eq : r₀ = t₀ := s.children.services.eq_of_key hr₀ ht₀ (heq.trans hid)
    rw [hr₀_eq] at hnew
    exact hnew
  rw [s.children.services.eq_of_key hsame ht₀ hid] at hmoved
  exact hmoved hhost

omit hchildren in
theorem inside_of_absorbed (ht : t ∈ store.services)
    (hhost : t.base.hostId = destination.id)
    (hinside : ∀ t₀ ∈ s.children.services, t₀.id = t.id → t₀.base.hostId = destination.id →
      s.BindsInside destination.id t.id)
    {b : Binding} (hb : b ∈ store.bindings) (hservice : b.base.serviceId = t.id) :
    store.Inside destination.id b.base.bindingType := by
  by_cases hmoved : ∃ r ∈ (s.withAbsorbedRows destination other.id).liveServices other.id,
      isDuplicateService ((s.withAbsorbedRows destination other.id).liveServices destination.id) r =
        false ∧ r.id = t.id
  · obtain ⟨r, hr, hnew, hid⟩ := hmoved
    exact (habsorbed.arrived r hr hnew).inside b hb (hservice.trans hid.symm)
  · -- the loop has not touched the service, and its rows are rows of the destination
    have hothers : ∀ r ∈ (s.withAbsorbedRows destination other.id).liveServices other.id,
        isDuplicateService ((s.withAbsorbedRows destination other.id).liveServices destination.id)
          r = false → r.id ≠ t.id := fun r hr hnew hid => hmoved ⟨r, hr, hnew, hid⟩
    have hstored := (habsorbed.otherServices t hothers).mp ht
    have hbound := (habsorbed.otherBindings b (hservice ▸ hothers)).mp hb
    obtain ⟨hports, haddresses⟩ := hinside t hstored rfl hhost b hbound hservice
    refine ⟨fun portId hport => ?_, fun ip hip => ?_⟩
    · obtain ⟨p, hp, hid, hphost⟩ := hports portId hport
      rw [habsorbed.ports]
      exact ⟨p, mem_absorbedPorts_of_destination hne hp hphost, hid, hphost⟩
    · obtain ⟨a, ha, hid, halive, hahost⟩ := haddresses ip hip
      rw [habsorbed.ipAddresses]
      exact ⟨a, mem_absorbedAddresses_of_destination hne ha hahost, hid, halive, hahost⟩

theorem exists_hostPort (hp : p ∈ s.children.ports)
    (hhost : p.base.hostId = destination.id ∨ p.base.hostId = other.id) :
    ∃ d ∈ s'.children.hostPorts destination.id,
      d.base.number = p.base.number ∧ d.base.protocol = p.base.protocol := by
  rcases hhost with hhost | hhost
  · exact ⟨p, mem_hostPorts_of_absorbed hne hchildren habsorbed
      (mem_absorbedPorts_of_destination hne hp hhost) hhost, rfl, rfl⟩
  · obtain ⟨d, hd, hdhost, -, hsame⟩ :=
      exists_absorbedPort hne (mem_hostPorts.mpr ⟨hp, hhost⟩)
    exact ⟨d, mem_hostPorts_of_absorbed hne hchildren habsorbed hd hdhost, hsame⟩

theorem exists_hostAddress {a : IPAddress}
    (ha : a ∈ s.children.hostAddresses destination.id ∨ a ∈ s.children.hostAddresses other.id) :
    (∃ d ∈ s'.children.hostAddresses destination.id, SharePlace a d) ∨
      a ∈ s.children.hostAddresses other.id ∧ ∃ d ∈ s.children.hostAddresses destination.id,
        ShareMac (s.children.hostAddresses destination.id) (s.children.hostAddresses other.id)
          a d := by
  rcases ha with ha | ha
  · obtain ⟨hstored, hlive, hhost⟩ := mem_hostAddresses.mp ha
    exact .inl ⟨a, mem_hostAddresses_of_absorbed hne hchildren habsorbed
      (mem_absorbedAddresses_of_destination hne hstored hhost) hlive hhost, rfl, rfl⟩
  · obtain ⟨d, hd, hlive, hhost, -, hplace | ⟨hdest, hmac⟩⟩ := exists_absorbedAddress hne ha
    · exact .inl ⟨d, mem_hostAddresses_of_absorbed hne hchildren habsorbed hd hlive hhost, hplace⟩
    · exact .inr ⟨ha, d, hdest, hmac⟩

section Moved
variable {t t₀ : TrackedService} (ht₀ : t₀ ∈ s.children.services) (hlive : t₀.isLive = true)
  (hhost : t₀.base.hostId = other.id) (ht : t ∈ s'.children.services) (hid : t.id = t₀.id)
include ht₀ hlive hhost ht hid

theorem exists_ledOver {b' : Binding} (hb' : b' ∈ s'.children.bindings)
    (hservice : b'.base.serviceId = t.id) :
    ∃ b ∈ s.children.bindings, b.base.serviceId = t.id ∧ (b.id = Uuid.nil ∨ b.id = b'.id) ∧
      LedOver s s' destination.id other.id b.base.bindingType b'.base.bindingType := by
  have hled := ledOver_remap hne hchildren habsorbed
  rw [hchildren] at ht hb'
  obtain ⟨t₁, ht₁, hid₁, -, -, hmoved⟩ := exists_of_mem_deleteHost ht
  have harrived := arrived_of_moved habsorbed ht₀ hlive hhost ht₁ (hid₁.trans hid) hmoved
  obtain ⟨c, hc, hsource, htype⟩ := harrived.submitted b'
    (mem_of_mem_bindings_deleteHost hb') (hservice.trans hid)
  obtain ⟨b, hb, rfl⟩ := mem_map.mp hc
  obtain ⟨hb, hbservice⟩ := mem_bindingsOf.mp hb
  refine ⟨b, hb, hbservice.trans hid.symm, hsource, ?_⟩
  rw [htype]
  exact hled b.base.bindingType

theorem exists_kept
    (hids : ∀ b ∈ s.children.bindings, b.base.serviceId = t.id → b.id ≠ Uuid.nil) {b : Binding}
    (hb : b ∈ s.children.bindings) (hservice : b.base.serviceId = t.id) :
    ∃ b' ∈ s'.children.bindings, b'.base.serviceId = t.id ∧
      ∃ led, LedOver s s' destination.id other.id b.base.bindingType led ∧
        (b'.base.bindingType = led ∨ b'.base.bindingType.covers led = true) := by
  have hled := ledOver_remap hne hchildren habsorbed b.base.bindingType
  rw [hchildren] at ht
  obtain ⟨t₁, ht₁, hid₁, -, -, hmoved⟩ := exists_of_mem_deleteHost ht
  have harrived := arrived_of_moved habsorbed ht₀ hlive hhost ht₁ (hid₁.trans hid) hmoved
  have hnodup : ((s.transfer destination other.id (s.children.hydrate t₀)).base.bindings.map
      (·.id)).Nodup := by
    show (((s.children.bindingsOf t₀.id).map (Binding.remap _ _)).map (·.id)).Nodup
    rw [map_map]
    refine List.Nodup.map_on (fun c hc c' hc' heq => ?_) (s.children.nodup_bindingsOf t₀.id)
    exact s.children.bindings.eq_of_key (mem_bindingsOf.mp hc).1
      (mem_bindingsOf.mp hc').1 heq
  have hmem : b ∈ s.children.bindingsOf t₀.id :=
    mem_bindingsOf.mpr ⟨hb, hservice.trans hid⟩
  have hnamed : ∀ c ∈ (s.transfer destination other.id (s.children.hydrate t₀)).base.bindings,
      c.id ≠ Uuid.nil := by
    intro c hc
    obtain ⟨c₀, hc₀, rfl⟩ := mem_map.mp hc
    obtain ⟨hstored, hcservice⟩ := mem_bindingsOf.mp hc₀
    exact hids c₀ hstored (hcservice.trans hid.symm)
  obtain ⟨b', hb', hservice', hkeeps⟩ := harrived.kept hnodup hnamed _ (mem_map_of_mem hmem)
  refine ⟨b', ?_, hservice'.trans hid.symm, _, hled, hkeeps⟩
  rw [hchildren]
  refine mem_bindings_deleteHost hne hb' (harrived.inside b' hb' hservice') ?_
  -- the service is on the destination by then, not on the host that is deleted
  intro hdeleted
  obtain ⟨t₂, ht₂, hid₂⟩ := mem_map.mp hdeleted
  obtain ⟨ht₂, hother⟩ := mem_filter.mp ht₂
  have hsame : t₂ = t₁ := store.services.eq_of_key ht₂ ht₁
    (hid₂.trans (hservice'.trans (hid₁.trans hid).symm))
  rw [hsame] at hother
  exact hmoved (of_decide_eq_true hother)

end Moved

end Stages

/-- Every port and every address of the two hosts is at the destination, or a row with the MAC that
tells, and a service that has moved has the bindings that it had, led over to the rows there. -/
structure KeepsReferences (s s' : ConsolidationState) (destination other : Uuid) : Prop where
  inside : ∀ t ∈ s'.children.services, t.base.hostId = destination →
    (∀ t₀ ∈ s.children.services, t₀.id = t.id → t₀.base.hostId = destination →
      s.BindsInside destination t.id) → s'.BindsInside destination t.id
  ports : ∀ p ∈ s.children.ports, p.base.hostId = destination ∨ p.base.hostId = other →
    ∃ d ∈ s'.children.hostPorts destination,
      d.base.number = p.base.number ∧ d.base.protocol = p.base.protocol
  addresses : ∀ a, a ∈ s.children.hostAddresses destination ∨ a ∈ s.children.hostAddresses other →
    (∃ d ∈ s'.children.hostAddresses destination, SharePlace a d) ∨
      a ∈ s.children.hostAddresses other ∧ ∃ d ∈ s.children.hostAddresses destination,
        ShareMac (s.children.hostAddresses destination) (s.children.hostAddresses other) a d
  ledOver : ∀ t₀ ∈ s.children.services, t₀.isLive = true → t₀.base.hostId = other →
    ∀ t ∈ s'.children.services, t.id = t₀.id →
      ∀ b' ∈ s'.children.bindings, b'.base.serviceId = t.id →
        ∃ b ∈ s.children.bindings, b.base.serviceId = t.id ∧ (b.id = Uuid.nil ∨ b.id = b'.id) ∧
          LedOver s s' destination other b.base.bindingType b'.base.bindingType
  /-- Where one binding covers another, that one is enough. -/
  kept : ∀ t₀ ∈ s.children.services, t₀.isLive = true → t₀.base.hostId = other →
    ∀ t ∈ s'.children.services, t.id = t₀.id →
      (∀ b ∈ s.children.bindings, b.base.serviceId = t.id → b.id ≠ Uuid.nil) →
      ∀ b ∈ s.children.bindings, b.base.serviceId = t.id →
        ∃ b' ∈ s'.children.bindings, b'.base.serviceId = t.id ∧
          ∃ led, LedOver s s' destination other b.base.bindingType led ∧
            (b'.base.bindingType = led ∨ b'.base.bindingType.covers led = true)

theorem keepsReferences_of_consolidateHosts
    (h : s.consolidateHosts defs draws destination other = .ok s') :
    KeepsReferences s s' destination.id other.id := by
  obtain ⟨hne, store, hchildren, habsorbed⟩ := of_consolidateHosts h
  refine ⟨fun t ht hhost hinside b hb hservice => ?_,
    fun p hp hhost => exists_hostPort hne hchildren habsorbed hp hhost,
    fun a ha => exists_hostAddress hne hchildren habsorbed ha,
    fun t₀ ht₀ hlive hhost t ht hid b' hb' hservice =>
      exists_ledOver hne hchildren habsorbed ht₀ hlive hhost ht hid hb' hservice,
    fun t₀ ht₀ hlive hhost t ht hid hids b hb hservice =>
      exists_kept hne hchildren habsorbed ht₀ hlive hhost ht hid hids hb hservice⟩
  rw [hchildren] at ht hb ⊢
  obtain ⟨t₀, ht₀, hid, hhost₀, -, -⟩ := exists_of_mem_deleteHost ht
  refine ServiceStore.Inside.deleteHost hne ?_
  rw [← hid] at hinside hservice
  exact inside_of_absorbed hne habsorbed ht₀ (hhost₀.trans hhost) hinside
    (mem_of_mem_bindings_deleteHost hb) hservice

section Laptop

/-- A laptop that was given another address while it was away, and is known twice since. -/
def laptop (id : Uuid) : TrackedHost :=
  ⟨id, 0, 0, none, none,
    { name := "laptop"
      nameSource := .manual
      networkId := 1
      hostname := none
      description := none
      source := .discovery
      virtualizationMetadata := none
      virtualizationServiceId := none
      hidden := false
      texts := fun _ => none
      updatedAt := 0
      lastSeenAt := 0
      lastDiscoveryId := none
      firstDiscoveryId := none }⟩

def laptopAddress (id hostId : Uuid) (ip : IpAddr) : IPAddress :=
  ⟨id, 0, 0, none, none,
    { networkId := 1
      hostId
      subnetId := 1
      ipAddress := ip
      macAddress := some 0x001122334455
      name := none
      position := 0
      lastSeenAt := 0 }⟩

def laptops : ConsolidationState where
  hosts := ⟨[laptop 1, laptop 2], by decide⟩
  daemonHosts := []
  children :=
    { services := ⟨[⟨5, 0, 0, none, none,
        { hostId := 2
          networkId := 1
          serviceDefinition := "SSH"
          name := "SSH"
          bindings := []
          virtualizationServiceId := none
          position := 0 }⟩], by decide⟩
      bindings := ⟨[⟨6, 0, 0, none, none, ⟨5, 1, .port 4 (some 3)⟩⟩], by decide⟩
      ports := ⟨[⟨4, 0, 0, none, none, ⟨2, 1, 22, .tcp⟩⟩], by decide⟩
      ipAddresses := ⟨[laptopAddress 2 1 (.v4 0x0A000005), laptopAddress 3 2 (.v4 0x0A000009)],
        by decide⟩ }
  hostCredentials := .empty

def noDefinitions : ServiceDefinitions := ⟨fun _ => false, fun _ => false, fun _ => false⟩

def consolidatedLaptops : Except ConsolidateError ConsolidationState :=
  laptops.consolidateHosts noDefinitions (fun _ _ => 9) (laptop 1) (laptop 2)

theorem bindsInside_laptops : ∀ t ∈ laptops.children.services, t.base.hostId = 1 →
    laptops.BindsInside 1 t.id := by
  intro t ht hhost
  rw [mem_singleton.mp ht] at hhost
  exact absurd hhost (by decide)

theorem consolidatedLaptops_ok : ∃ s', consolidatedLaptops = .ok s' ∧
    s'.children.bindings.rows.map (·.base.bindingType) = [.port 4 (some 2)] ∧
    (s'.children.hostAddresses 1).map (·.base.ipAddress) = [.v4 0x0A000005] := by
  have hrows : consolidatedLaptops.toOption.map (fun s =>
      (s.children.bindings.rows.map (·.base.bindingType),
        (s.children.hostAddresses 1).map (·.base.ipAddress))) =
      some ([.port 4 (some 2)], [.v4 0x0A000005]) := by decide +kernel
  cases hresult : consolidatedLaptops with
  | error e =>
    rw [hresult] at hrows
    cases hrows
  | ok s =>
    rw [hresult] at hrows
    exact ⟨s, rfl, Prod.mk_inj.mp (Option.some.inj hrows)⟩

theorem keepsReferences_laptops : ∃ s', consolidatedLaptops = .ok s' ∧
    KeepsReferences laptops s' 1 2 ∧
    s'.children.bindings.rows.map (·.base.bindingType) = [.port 4 (some 2)] := by
  obtain ⟨s', hconsolidated, hbindings, -⟩ := consolidatedLaptops_ok
  exact ⟨s', hconsolidated, keepsReferences_of_consolidateHosts hconsolidated, hbindings⟩

theorem not_allAddresses_laptops : ¬ ∀ (s s' : ConsolidationState) (destination other : TrackedHost),
    (∀ t ∈ s.children.services, t.base.hostId = destination.id →
      s.BindsInside destination.id t.id) →
    s.consolidateHosts noDefinitions (fun _ _ => 9) destination other = .ok s' →
    ∀ a ∈ s.children.hostAddresses other.id,
      ∃ d ∈ s'.children.hostAddresses destination.id, SharePlace a d := by
  intro h
  obtain ⟨s', hconsolidated, -, haddresses⟩ := consolidatedLaptops_ok
  obtain ⟨d, hd, -, hip⟩ := h laptops s' (laptop 1) (laptop 2) bindsInside_laptops hconsolidated
    (laptopAddress 3 2 (.v4 0x0A000009)) (by decide)
  have hmem : d.base.ipAddress ∈ (s'.children.hostAddresses 1).map (·.base.ipAddress) :=
    mem_map_of_mem hd
  rw [haddresses, mem_singleton, hip] at hmem
  exact absurd hmem (by decide)

end Laptop

end ConsolidationState

end Scanopy
