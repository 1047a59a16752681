import Scanopy.Graph.Keys
import Scanopy.Graph.Links

/-! The views of applications and of ports. The elements of an application are in a box that is made
with them; the ports of a host are drawn even where the host itself is not known. -/

namespace Scanopy.Graph

open List Inventory

section Lists
variable {A B K : Type*} {l : List A}

theorem nodup_flatMap_of_sublist {f f' : A → List B} (h : (l.flatMap f).Nodup)
    (hsub : ∀ a ∈ l, (f' a).Sublist (f a)) : (l.flatMap f').Nodup := by
  obtain ⟨hnodup, hdisjoint⟩ := nodup_flatMap.mp h
  refine nodup_flatMap.mpr ⟨fun a ha => (hnodup a ha).sublist (hsub a ha), ?_⟩
  refine hdisjoint.imp_of_mem fun {a b} ha hb hab => ?_
  exact disjoint_of_subset_left (hsub a ha).subset
    (disjoint_of_subset_right (hsub b hb).subset hab)

theorem nodup_boxes {groups : List (K × List A)} (box : K → B) (elem : A → B)
    (hbox : (groups.map fun g => box g.1).Nodup)
    (helem : ((groups.flatMap Prod.snd).map elem).Nodup)
    (hne : ∀ g ∈ groups, ∀ g' ∈ groups, ∀ a ∈ g'.2, box g.1 ≠ elem a) :
    (groups.flatMap fun g => box g.1 :: g.2.map elem).Nodup := by
  have hperm := flatMap_append_perm groups (fun g => [box g.1]) fun g => g.2.map elem
  refine (hperm.nodup_iff (α := B)).mp ?_
  rw [map_flatMap] at helem
  rw [← map_eq_flatMap, nodup_append]
  refine ⟨hbox, helem, fun b hb b' hb' heq => ?_⟩
  obtain ⟨g, hg, rfl⟩ := mem_map.mp hb
  obtain ⟨g', hg', hb'⟩ := mem_flatMap.mp hb'
  obtain ⟨a, ha, rfl⟩ := mem_map.mp hb'
  exact hne g hg g' hg' a ha heq

theorem map_filterMap_sublist {C : Type*} {f : A → Option B} {g : B → C} (key : A → C)
    (h : ∀ a ∈ l, ∀ b, f a = some b → g b = key a) :
    ((l.filterMap f).map g).Sublist (l.map key) := by
  induction l with
  | nil => exact .slnil
  | cons a l ih =>
    have ih := ih fun a ha => h a (mem_cons_of_mem _ ha)
    cases hf : f a with
    | none =>
      rw [filterMap_cons_none hf]
      exact ih.cons (key a)
    | some b =>
      rw [filterMap_cons_some hf, map_cons, h a mem_cons_self b hf]
      exact ih.cons_cons (key a)

end Lists

variable {inv : Inventory} {options : TopologyRequestOptions} {env : BuildEnv}
  {kind : Uuid → EntityDiscriminants}

section Applications

variable {n : Node} {s : Service} {tag : Tag}

theorem Inventory.appTag_eq_some {tagId : Uuid} (h : inv.appTag tagId = some tag) :
    tag ∈ inv.tags ∧ tag.id = tagId := by
  obtain ⟨hmem, hid⟩ := Lookup.mem_of_find?_key h
  exact ⟨(mem_filter.mp hmem).1, hid⟩

theorem Inventory.findAppTag_eq_some (h : inv.findAppTag s = some tag) :
    tag ∈ inv.tags ∧ inv.appTag tag.id = some tag := by
  have hfound : ∃ tagId, inv.appTag tagId = some tag := by
    obtain h | ⟨-, h⟩ := Option.or_eq_some_iff.mp h
    · obtain ⟨tagId, -, htag⟩ := exists_of_findSome?_eq_some h
      exact ⟨tagId, htag⟩
    · obtain ⟨host, -, h⟩ := Option.bind_eq_some_iff.mp h
      obtain ⟨tagId, -, htag⟩ := exists_of_findSome?_eq_some h
      exact ⟨tagId, htag⟩
  obtain ⟨tagId, htag⟩ := hfound
  obtain ⟨hmem, rfl⟩ := appTag_eq_some htag
  exact ⟨hmem, htag⟩

theorem Inventory.mem_servicesByTag {services : List Service}
    (h : (tag, services) ∈ inv.servicesByTag) :
    inv.appTag tag.id = some tag ∧ tag ∈ inv.tags ∧
      ∀ s ∈ services, s ∈ inv.eligibleServices ∧ inv.findAppTag s = some tag := by
  obtain ⟨hne, hmem⟩ := Groups.collect_spec h
  have hservices : ∀ s ∈ services, s ∈ inv.eligibleServices ∧ inv.findAppTag s = some tag := by
    intro s hs
    obtain ⟨s', hs', heq⟩ := mem_filterMap.mp (hmem s hs)
    obtain ⟨tag', htag, heq⟩ := Option.map_eq_some_iff.mp heq
    obtain ⟨rfl, rfl⟩ := Prod.mk.inj heq
    exact ⟨hs', htag⟩
  obtain ⟨s, hs⟩ := exists_mem_of_ne_nil _ hne
  obtain ⟨htag, hfind⟩ := findAppTag_eq_some (hservices s hs).2
  exact ⟨hfind, htag, hservices⟩

theorem mem_services_of_eligible (h : s ∈ inv.eligibleServices) : s ∈ inv.services :=
  (mem_filter.mp h).1

theorem mem_applicationInput (hn : n ∈ (inv.applicationInput env).nodes) :
    (∃ tag services, (tag, services) ∈ inv.servicesByTag ∧ n ∈ Inventory.applicationNodes env tag services) ∨
      n ∈ inv.ungroupedNodes := by
  obtain hn | hn := mem_append.mp hn
  · obtain ⟨⟨tag, services⟩, hmem, hn⟩ := mem_flatMap.mp hn
    exact .inl ⟨tag, services, (HashOrder.mem_visit _).mp hmem, hn⟩
  · exact .inr hn

theorem applicationNodes_cases (hn : n ∈ (inv.applicationInput env).nodes) :
    (n.isContainer ∧ n.parentId = none ∧
        (n.id = ungroupedContainerId ∨ ∃ tag ∈ inv.tags, n.id = env.newV5 (.applicationTag tag.id))) ∨
      ∃ s ∈ inv.eligibleServices, n.id = s.id ∧ n.isContainer = false ∧
        ∃ m ∈ (inv.applicationInput env).nodes, n.containerId = some m.id ∧ m.isContainer ∧
          inv.IsBox env m.id := by
  obtain ⟨tag, services, hmem, hn⟩ | hn' := mem_applicationInput hn
  · obtain ⟨-, htag, hservices⟩ := mem_servicesByTag hmem
    obtain rfl | hn := mem_cons.mp hn
    · exact .inl ⟨rfl, rfl, .inr ⟨tag, htag, rfl⟩⟩
    · obtain ⟨s, hs, rfl⟩ := mem_map.mp hn
      refine .inr ⟨s, (hservices s hs).1, rfl, rfl, ⟨env.newV5 (.applicationTag tag.id), .container
        { containerType := .application, entityId := some tag.id }, some tag.name⟩, ?_, rfl, rfl,
        .inr (.inr ⟨_, .applicationTag htag, rfl⟩)⟩
      refine mem_append_left _ (mem_flatMap.mpr ⟨(tag, services), ?_, mem_cons_self⟩)
      exact (HashOrder.mem_visit _).mpr hmem
  · rw [ungroupedNodes] at hn'
    split at hn'
    · exact absurd hn' not_mem_nil
    · rename_i hne
      obtain rfl | hn' := mem_cons.mp hn'
      · exact .inl ⟨rfl, rfl, .inl rfl⟩
      · obtain ⟨s, hs, rfl⟩ := mem_map.mp hn'
        refine .inr ⟨s, (mem_filter.mp hs).1, rfl, rfl, ⟨ungroupedContainerId, .container
          { containerType := .applicationUngrouped }, some "Ungrouped"⟩, ?_, rfl, rfl, .inr (.inl rfl)⟩
        refine mem_append_right _ ?_
        rw [ungroupedNodes, if_neg hne]
        exact mem_cons_self

theorem nodup_applicationInput (h : Request inv options env kind) :
    ((inv.applicationInput env).nodes.map (·.id)).Nodup := by
  have hservices : (inv.eligibleServices.map (·.id)).Nodup :=
    h.keyed.services.sublist (filter_sublist.map _)
  have hboxes : ((env.order.visit .applicationTags inv.servicesByTag).map
      fun g => env.newV5 (.applicationTag g.1.id)).Nodup := by
    have hkeys := ((env.order.visit_perm .applicationTags inv.servicesByTag).map Prod.fst).nodup_iff.mpr
      (Groups.nodup_keys_collect _)
    refine (List.Nodup.of_map _ hkeys).map_on fun g hg g' hg' heq => ?_
    obtain ⟨htag, hmem, -⟩ := mem_servicesByTag ((HashOrder.mem_visit _).mp hg)
    obtain ⟨htag', hmem', -⟩ := mem_servicesByTag ((HashOrder.mem_visit _).mp hg')
    have hname := h.names (.inl (.applicationTag hmem)) (.inl (.applicationTag hmem')) heq
    rw [IdName.applicationTag.inj hname, htag', Option.some.injEq] at htag
    exact inj_on_of_nodup_map hkeys hg hg' htag.symm
  have helems : (((env.order.visit .applicationTags inv.servicesByTag).flatMap Prod.snd).map
      (·.id)).Nodup := by
    have hperm := ((env.order.visit_perm .applicationTags inv.servicesByTag).flatMap_right Prod.snd).trans
      (Groups.collect_perm _)
    refine (hperm.map _).nodup_iff.mpr (hservices.sublist ?_)
    rw [map_map]
    refine map_filterMap_sublist _ fun s _ e he => ?_
    obtain ⟨tag, -, rfl⟩ := Option.map_eq_some_iff.mp he
    rfl
  rw [applicationInput, map_append, map_flatMap, nodup_append]
  refine ⟨?_, ?_, ?_⟩
  · have hnodup : ((env.order.visit .applicationTags inv.servicesByTag).flatMap fun g =>
        env.newV5 (.applicationTag g.1.id) :: g.2.map Service.id).Nodup := by
      refine nodup_boxes (fun tag => env.newV5 (.applicationTag tag.id)) _ hboxes helems ?_
      intro g _ g' hg' s hs heq
      have hs := (mem_servicesByTag ((HashOrder.mem_visit _).mp hg')).2.2 s hs
      have hkind := h.keyed.service_kind s (mem_services_of_eligible hs.1)
      rw [← heq, h.keyed.newV5_kind] at hkind
      exact nomatch hkind
    convert hnodup using 3 with g
    simp [applicationNodes, Node.element]
  · rw [ungroupedNodes]
    split
    · exact nodup_nil
    · rw [map_cons, nodup_cons, map_map]
      refine ⟨fun hmem => ?_, hservices.sublist (filter_sublist.map _)⟩
      obtain ⟨s, hs, heq⟩ := mem_map.mp hmem
      have hkind := h.keyed.service_kind s (mem_services_of_eligible (mem_filter.mp hs).1)
      have heq : s.id = ungroupedContainerId := heq
      rw [heq, h.keyed.ungrouped_kind] at hkind
      exact nomatch hkind
  · intro id hid id' hid' heq
    subst heq
    obtain ⟨⟨tag, services⟩, hg, hid⟩ := mem_flatMap.mp hid
    have hgroup := (mem_servicesByTag ((HashOrder.mem_visit _).mp hg)).2.2
    have hid : id = env.newV5 (.applicationTag tag.id) ∨ ∃ s ∈ services, s.id = id := by
      simpa [applicationNodes, Node.element] using hid
    have hid' : id = ungroupedContainerId ∨ ∃ s ∈ inv.ungroupedServices, s.id = id := by
      rw [ungroupedNodes] at hid'
      split at hid'
      · exact absurd hid' not_mem_nil
      · simpa [Node.element] using hid'
    obtain rfl | ⟨s, hs, rfl⟩ := hid
    · obtain heq | ⟨s', hs', heq⟩ := hid'
      · have hkind := h.keyed.ungrouped_kind
        rw [← heq, h.keyed.newV5_kind] at hkind
        exact nomatch hkind
      · have hkind := h.keyed.service_kind s' (mem_services_of_eligible (mem_filter.mp hs').1)
        rw [heq, h.keyed.newV5_kind] at hkind
        exact nomatch hkind
    · have hkind := h.keyed.service_kind s (mem_services_of_eligible (hgroup s hs).1)
      obtain heq | ⟨s', hs', heq⟩ := hid'
      · rw [heq, h.keyed.ungrouped_kind] at hkind
        exact nomatch hkind
      · -- a service is either in a group or in none
        obtain ⟨hmem', hnone⟩ := mem_filter.mp hs'
        obtain rfl := inj_on_of_nodup_map hservices hmem' (hgroup s hs).1 heq
        rw [(hgroup s' hs).2] at hnone
        exact nomatch hnone

theorem rooted_applicationInput (h : Request inv options env kind) :
    Rooted (inv.applicationInput env).nodes where
  nodup := nodup_applicationInput h
  container n hn hcont := by
    obtain ⟨-, hroot, -⟩ | ⟨-, -, -, helem, -⟩ := applicationNodes_cases hn
    · exact hroot
    · rw [helem] at hcont
      exact nomatch hcont
  element n hn containerId hcontainer := by
    obtain ⟨hcont, -⟩ | ⟨-, -, -, -, m, hm, hid, hmcont, -⟩ := applicationNodes_cases hn
    · rw [Node.isContainer_of_containerId hcontainer] at hcont
      exact nomatch hcont
    · exact ⟨m, hm, Option.some.inj (hid.symm.trans hcontainer), hmcont⟩

theorem matchData_applicationInput {id : Uuid} {d : ElementMatchData}
    (hd : (inv.applicationInput env).matchData id = some d) :
    d.virtualizerServiceId = none ∧ ∀ project, d.deploymentGroup = some project →
      project ∈ inv.projects := by
  obtain ⟨n, -, hd⟩ := Option.bind_eq_some_iff.mp hd
  obtain ⟨s, hs, rfl⟩ := Option.map_eq_some_iff.mp hd
  refine ⟨rfl, fun project hproject => ?_⟩
  have hmem := mem_services_of_eligible (mem_of_find?_eq_some hs)
  exact mem_filterMap.mpr ⟨s, hmem, hproject⟩

theorem madeNames_applicationInput :
    (inv.applicationInput env).MadeNames
        (GroupingConfig.fromRequestOptions options .application).elementRules ⊆
      inv.names env options.elementRules := by
  refine madeNames_subset (fun id d parentId hd hin => ?_) fun id d rule k hd hk => ?_
  · obtain ⟨n, hn, hparent, -⟩ := hin
    obtain ⟨hcont, -⟩ | ⟨-, -, -, -, m, -, hid, -, hbox⟩ := applicationNodes_cases hn
    · rw [Node.isContainer_of_containerId hparent] at hcont
      exact nomatch hcont
    · rw [hid, Option.some.injEq] at hparent
      exact hparent ▸ hbox
  · obtain ⟨hvirtualizer, hproject⟩ := matchData_applicationInput hd
    refine knowsKey_of_key (fun serviceId hs => ?_) hproject hk
    rw [hvirtualizer] at hs
    exact nomatch hs

theorem layered_application (h : Request inv options env kind) :
    Layered (inv.buildApplication env (.fromRequestOptions options .application)).1 := by
  refine Layered.of_shape (shape_applyStackRuntimeLogos _ _) ?_
  have hrooted := rooted_applicationInput h
  refine layered_applyElementRules hrooted (h.viewRules .application)
    (h.names.mono madeNames_applicationInput) ?_
  intro name hname n hn
  refine h.ne_of_madeName madeNames_applicationInput ?_ hname
  obtain ⟨-, -, hid | ⟨tag, htag, hid⟩⟩ | ⟨s, hs, hid, -⟩ := applicationNodes_cases hn
  · rw [hid, h.keyed.ungrouped_kind]
    exact .inl (by decide)
  · exact .inr ⟨_, .applicationTag htag, hid⟩
  · rw [hid, h.keyed.service_kind s (mem_services_of_eligible hs)]
    exact .inl (by decide)

end Applications

section Ports

namespace Inventory

def IsLinked (inv : Inventory) (hostId : Uuid) : Prop :=
  ∃ e ∈ inv.interfaces, ∃ targetId, e.neighbor = some (.interface targetId) ∧
    (e.hostId = hostId ∨ ∃ t ∈ inv.interfaces, t.id = targetId ∧ t.hostId = hostId)

def PortsKnown (inv : Inventory) : Prop :=
  ∀ hostId, inv.IsLinked hostId → (∃ host ∈ inv.hosts, host.id = hostId) ∨
    ∀ e ∈ inv.interfaces, e.hostId = hostId → e.ifType ∈ excludedIfTypes

variable {n : Node} {hostId : Uuid}

theorem mem_qualifyingHostIds : hostId ∈ inv.qualifyingHostIds env ↔
    (∃ e ∈ inv.getInterfacesWithNeighbor, e.hostId = hostId) ∨
      (∃ edge ∈ inv.deviceLinks env, ∃ sourceHostId targetHostId protocol,
        edge.edgeType = .neighborLink sourceHostId targetHostId protocol ∧
          (hostId = sourceHostId ∨ hostId = targetHostId)) ∨
      ∃ edge ∈ inv.portLinks, ∃ sourceId targetId protocol,
        edge.edgeType = .physicalLink sourceId targetId protocol ∧
          ∃ t, inv.getInterfaceById targetId = some t ∧ t.hostId = hostId := by
  rw [qualifyingHostIds, mem_dedup, mem_append, mem_append, or_assoc]
  refine or_congr mem_map (or_congr ?_ ?_)
  · rw [mem_flatMap]
    refine exists_congr fun edge => and_congr_right fun _ => ?_
    cases edge.edgeType <;> simp
  · rw [mem_filterMap]
    refine exists_congr fun edge => and_congr_right fun _ => ?_
    cases edge.edgeType <;> simp

theorem mem_qualifyingHostIds_of_isLinked (h : inv.WellKeyed env kind)
    (hlinked : inv.IsLinked hostId) : hostId ∈ inv.qualifyingHostIds env := by
  obtain ⟨e, he, targetId, hneighbor, rfl | ⟨t, ht, rfl, rfl⟩⟩ := hlinked
  · exact mem_qualifyingHostIds.mpr
      (.inl ⟨e, mem_getInterfacesWithNeighbor.mpr ⟨he, targetId, hneighbor⟩, rfl⟩)
  by_cases hsame : e.hostId = t.hostId
  · rw [← hsame]
    exact mem_qualifyingHostIds.mpr
      (.inl ⟨e, mem_getInterfacesWithNeighbor.mpr ⟨he, t.id, hneighbor⟩, rfl⟩)
  -- the pair is decided from one end or the other
  have hfind : inv.getInterfaceById t.id = some t := Lookup.find?_key_of_nodup h.interfaces ht
  obtain ⟨e', he', out, hlink', hmem⟩ := Once.exists_first
    (mem_getInterfacesWithNeighbor.mpr ⟨he, t.id, hneighbor⟩)
    (portLink_eq_some.mpr ⟨t.id, hneighbor, rfl, rfl⟩) not_mem_nil
  have hmem' := (mem_getInterfacesWithNeighbor.mp he').1
  obtain ⟨targetId, hneighbor', hkey, hout⟩ := portLink_eq_some.mp hlink'
  obtain ⟨hid, htarget⟩ | ⟨-, hid⟩ := pairKey_eq hkey
  · obtain rfl := inj_on_of_nodup_map h.interfaces he hmem' hid
    rw [← htarget, hfind, Option.bind_some, if_neg hsame] at hout
    exact mem_qualifyingHostIds.mpr (.inr (.inr ⟨_, hmem _ hout, _, _, _, rfl, t, hfind, rfl⟩))
  · obtain rfl := inj_on_of_nodup_map h.interfaces ht hmem' hid
    exact mem_qualifyingHostIds.mpr (.inl ⟨t, he', rfl⟩)

theorem isLinked_or_known_of_mem (h : hostId ∈ inv.qualifyingHostIds env) :
    inv.IsLinked hostId ∨ ∃ host ∈ inv.hosts, host.id = hostId := by
  obtain ⟨e, he, rfl⟩ | ⟨edge, hedge, sourceHostId, targetHostId, protocol, htype, hid⟩ |
    ⟨edge, hedge, sourceId, targetId, protocol, htype, t, ht, rfl⟩ := mem_qualifyingHostIds.mp h
  · obtain ⟨he, targetId, hneighbor⟩ := mem_getInterfacesWithNeighbor.mp he
    exact .inl ⟨e, he, targetId, hneighbor, .inl rfl⟩
  · right
    obtain ⟨e, -, k, -, hlink⟩ := Once.exists_of_mem_onceBy hedge
    obtain ⟨targetHostId', source, target, -, -, hsource, htarget, -, -, hout⟩ :=
      neighborLink_eq_some.mp hlink
    obtain rfl := Option.some.inj hout
    obtain ⟨rfl, rfl, -⟩ := EdgeType.neighborLink.inj htype
    obtain rfl | rfl := hid
    · exact ⟨source, Lookup.mem_of_find?_key hsource⟩
    · exact ⟨target, Lookup.mem_of_find?_key htarget⟩
  · left
    obtain ⟨e, he, k, -, hlink⟩ := Once.exists_of_mem_onceBy hedge
    have hmem := (mem_getInterfacesWithNeighbor.mp he).1
    obtain ⟨targetId', hneighbor, -, hout⟩ := portLink_eq_some.mp hlink
    obtain ⟨t', ht', hout⟩ := Option.bind_eq_some_iff.mp hout.symm
    split at hout
    · exact nomatch hout
    · obtain rfl := Option.some.inj hout
      obtain ⟨rfl, rfl, -⟩ := EdgeType.physicalLink.inj htype
      obtain ⟨htmem, rfl⟩ := Lookup.mem_of_find?_key ht'
      obtain ⟨htmem', hid⟩ := Lookup.mem_of_find?_key ht
      exact ⟨e, hmem, t'.id, hneighbor, .inr ⟨t, htmem', hid, rfl⟩⟩

theorem mem_portNodes : n ∈ inv.portNodes env hostId ↔
    ∃ e ∈ inv.interfaces, e.hostId = hostId ∧ e.ifType ∉ excludedIfTypes ∧
      n = .element e.id (env.newV5 (.l2Host hostId)) hostId (.interface e.id) (some e.displayName) := by
  simp only [portNodes, getInterfacesForHost, mem_map, mem_filter, decide_eq_true_eq]
  constructor
  · rintro ⟨e, ⟨⟨he, hhost⟩, htype⟩, rfl⟩
    exact ⟨e, he, hhost, htype, rfl⟩
  · rintro ⟨e, he, hhost, htype, rfl⟩
    exact ⟨e, ⟨⟨he, hhost⟩, htype⟩, rfl⟩

theorem mem_l2Nodes : n ∈ inv.l2Nodes env ↔
    (∃ host, inv.getHostById host.id = some host ∧ host.id ∈ inv.qualifyingHostIds env ∧
      n = l2HostNode env host) ∨
    ∃ hostId ∈ inv.qualifyingHostIds env, n ∈ inv.portNodes env hostId := by
  simp only [l2Nodes, mem_append, mem_filterMap, mem_flatMap, HashOrder.mem_visit,
    Option.map_eq_some_iff]
  refine or_congr ⟨?_, ?_⟩ Iff.rfl
  · rintro ⟨id, hid, host, hhost, rfl⟩
    obtain ⟨-, rfl⟩ := Lookup.mem_of_find?_key hhost
    exact ⟨host, hhost, hid, rfl⟩
  · rintro ⟨host, hhost, hid, rfl⟩
    exact ⟨host.id, hid, host, hhost, rfl⟩

theorem mem_hostIds_of_qualifying (h : hostId ∈ inv.qualifyingHostIds env) :
    hostId ∈ inv.hostIds := by
  rw [hostIds, append_assoc]
  obtain ⟨e, he, targetId, -, rfl | ⟨t, ht, -, rfl⟩⟩ | ⟨host, hhost, rfl⟩ :=
    isLinked_or_known_of_mem h
  · exact mem_append_right _ (mem_append_right _ (mem_map_of_mem he))
  · exact mem_append_right _ (mem_append_right _ (mem_map_of_mem ht))
  · exact mem_append_left _ (mem_map_of_mem hhost)

theorem nodup_l2Nodes (h : Request inv options env kind) :
    ((inv.l2Nodes env).map (·.id)).Nodup := by
  have hids : (env.order.visit .qualifyingHosts (inv.qualifyingHostIds env)).Nodup :=
    (env.order.visit_perm _ _).nodup_iff.mpr (nodup_dedup _)
  have hmem : ∀ hostId ∈ env.order.visit .qualifyingHosts (inv.qualifyingHostIds env),
      inv.IsBoxName (.l2Host hostId) :=
    fun hostId hid => .l2Host (mem_hostIds_of_qualifying ((HashOrder.mem_visit _).mp hid))
  rw [l2Nodes, map_append, nodup_append]
  refine ⟨?_, ?_, ?_⟩
  · have hboxes : ((env.order.visit .qualifyingHosts (inv.qualifyingHostIds env)).map
        fun hostId => env.newV5 (.l2Host hostId)).Nodup := by
      refine hids.map_on fun a ha b hb heq => ?_
      exact IdName.l2Host.inj (h.names (.inl (hmem a ha)) (.inl (hmem b hb)) heq)
    refine hboxes.sublist (map_filterMap_sublist _ fun hostId _ n hn => ?_)
    obtain ⟨host, hhost, rfl⟩ := Option.map_eq_some_iff.mp hn
    obtain ⟨-, rfl⟩ := Lookup.mem_of_find?_key hhost
    rfl
  · rw [map_flatMap, nodup_flatMap]
    constructor
    · intro hostId _
      rw [portNodes, map_map]
      exact h.keyed.interfaces.sublist
        ((filter_sublist.trans filter_sublist).map Interface.id)
    · refine hids.imp fun {a b} hne id ha hb => hne ?_
      obtain ⟨n, hn, rfl⟩ := mem_map.mp ha
      obtain ⟨n', hn', heq⟩ := mem_map.mp hb
      obtain ⟨e, he, rfl, -, rfl⟩ := mem_portNodes.mp hn
      obtain ⟨e', he', rfl, -, rfl⟩ := mem_portNodes.mp hn'
      rw [inj_on_of_nodup_map h.keyed.interfaces he' he heq]
  · intro id hid id' hid' heq
    obtain ⟨n, hn, rfl⟩ := mem_map.mp hid
    obtain ⟨n', hn', rfl⟩ := mem_map.mp hid'
    obtain ⟨hostId, -, hn⟩ := mem_filterMap.mp hn
    obtain ⟨host, -, rfl⟩ := Option.map_eq_some_iff.mp hn
    obtain ⟨hostId', -, hn'⟩ := mem_flatMap.mp hn'
    obtain ⟨e, he, -, -, rfl⟩ := mem_portNodes.mp hn'
    have hkind := h.keyed.interface_kind e he
    have heq : env.newV5 (.l2Host host.id) = e.id := heq
    rw [← heq, h.keyed.newV5_kind] at hkind
    exact nomatch hkind

theorem rooted_l2Nodes (h : Request inv options env kind) (hports : inv.PortsKnown) :
    Rooted (inv.l2Nodes env) where
  nodup := nodup_l2Nodes h
  container n hn hcont := by
    obtain ⟨host, -, -, rfl⟩ | ⟨hostId, -, hn⟩ := mem_l2Nodes.mp hn
    · rfl
    · obtain ⟨e, -, -, -, rfl⟩ := mem_portNodes.mp hn
      exact nomatch hcont
  element n hn containerId hcontainer := by
    obtain ⟨host, -, -, rfl⟩ | ⟨hostId, hid, hn⟩ := mem_l2Nodes.mp hn
    · exact nomatch hcontainer
    · obtain ⟨e, he, hhost, htype, rfl⟩ := mem_portNodes.mp hn
      obtain rfl := Option.some.inj hcontainer
      have hknown : ∃ host ∈ inv.hosts, host.id = hostId := by
        obtain hlinked | hknown := isLinked_or_known_of_mem hid
        · exact (hports hostId hlinked).resolve_right fun hall => htype (hall e he hhost)
        · exact hknown
      obtain ⟨host, hmem, rfl⟩ := hknown
      have hfind : inv.getHostById host.id = some host :=
        Lookup.find?_key_of_nodup h.keyed.hosts hmem
      exact ⟨_, mem_l2Nodes.mpr (.inl ⟨host, hfind, hid, rfl⟩), rfl, rfl⟩

theorem madeNames_l2Input :
    (inv.l2Input env).MadeNames (GroupingConfig.fromRequestOptions options .l2Physical).elementRules ⊆
      inv.names env options.elementRules := by
  refine madeNames_subset (fun id d parentId hd hin => ?_) fun id d rule k hd hk => ?_
  · obtain ⟨n, hn, hparent, -⟩ := hin
    obtain ⟨host, -, -, rfl⟩ | ⟨hostId, hid, hn⟩ := mem_l2Nodes.mp hn
    · exact nomatch hparent
    · obtain ⟨e, -, -, -, rfl⟩ := mem_portNodes.mp hn
      exact .inr (.inr ⟨_, .l2Host (mem_hostIds_of_qualifying hid), (Option.some.inj hparent).symm⟩)
  · obtain ⟨n, -, hd⟩ := Option.bind_eq_some_iff.mp hd
    obtain ⟨nid, nodeType, header⟩ := n
    cases nodeType with
    | container data => exact nomatch hd
    | element data =>
      obtain rfl := Option.some.inj hd
      refine knowsKey_of_key ?_ ?_ hk
      · exact fun _ h => nomatch h
      · exact fun _ h => nomatch h

theorem l2Nodes_ne_madeName (h : Request inv options env kind) {name : IdName}
    (hname : name ∈ (inv.l2Input env).MadeNames
      (GroupingConfig.fromRequestOptions options .l2Physical).elementRules)
    (hn : n ∈ inv.l2Nodes env) : n.id ≠ env.newV5 name := by
  refine h.ne_of_madeName madeNames_l2Input ?_ hname
  obtain ⟨host, -, hid, rfl⟩ | ⟨hostId, -, hn⟩ := mem_l2Nodes.mp hn
  · exact .inr ⟨_, .l2Host (mem_hostIds_of_qualifying hid), rfl⟩
  · obtain ⟨e, he, -, -, rfl⟩ := mem_portNodes.mp hn
    left
    show kind e.id ≠ _
    rw [h.keyed.interface_kind e he]
    decide

theorem layered_l2 (h : Request inv options env kind) (hports : inv.PortsKnown) :
    Layered (inv.buildL2 env (.fromRequestOptions options .l2Physical)).1 :=
  layered_applyElementRules (rooted_l2Nodes h hports) (h.viewRules .l2Physical)
    (h.names.mono madeNames_l2Input) fun _ hname _ hn => l2Nodes_ne_madeName h hname hn

theorem portsKnown_of_isForest (h : Request inv options env kind)
    (hforest : (buildGraph env inv options .l2Physical).IsForest) : inv.PortsKnown := by
  intro hostId hlinked
  by_contra hnot
  push Not at hnot
  obtain ⟨hunknown, e, he, rfl, htype⟩ := hnot
  have hid : e.hostId ∈ inv.qualifyingHostIds env := mem_qualifyingHostIds_of_isLinked h.keyed hlinked
  have hport := mem_l2Nodes.mpr (.inr ⟨e.hostId, hid, mem_portNodes.mpr ⟨e, he, rfl, htype, rfl⟩⟩)
  have hunique : ∀ parentId, (inv.l2Input env).IsIn e.id parentId →
      parentId = env.newV5 (.l2Host e.hostId) := by
    rintro parentId ⟨n, hn, hparent, hnid⟩
    obtain ⟨host, -, -, rfl⟩ | ⟨hostId, -, hn⟩ := mem_l2Nodes.mp hn
    · exact nomatch hparent
    · obtain ⟨e', he', rfl, -, rfl⟩ := mem_portNodes.mp hn
      rw [← Option.some.inj hparent, inj_on_of_nodup_map h.keyed.interfaces he' he hnid]
  obtain ⟨m, hm, hmid, hmcont⟩ :
      ∃ m ∈ (inv.buildL2 env (.fromRequestOptions options .l2Physical)).1,
        m.id = env.newV5 (.l2Host e.hostId) ∧ m.isContainer :=
    exists_container_of_parents hforest.parent_container hport rfl hunique
  obtain ⟨m, hbox, rfl⟩ | hm := mem_applyElementRules.mp hm
  · rw [Node.reassign_id] at hmid
    rw [Node.reassign_isContainer] at hmcont
    obtain ⟨host, hhost, hid', rfl⟩ | ⟨hostId, -, hm⟩ := mem_l2Nodes.mp hbox
    · have hname := h.names (.inl (.l2Host (mem_hostIds_of_qualifying hid')))
        (.inl (.l2Host (mem_hostIds_of_qualifying hid))) hmid
      exact hunknown host (Lookup.mem_of_find?_key hhost).1 (IdName.l2Host.inj hname)
    · obtain ⟨e', -, -, -, rfl⟩ := mem_portNodes.mp hm
      exact nomatch hmcont
  · obtain ⟨-, r, hr, g, hg, hgid, -⟩ := RuleInput.exists_group_of_mem_newContainers hm
    exact h.ne_of_madeName madeNames_l2Input
      (.inr ⟨_, .l2Host (mem_hostIds_of_qualifying hid), hmid⟩) ⟨r, hr, g, hg, rfl⟩ hgid

end Inventory

end Ports

end Scanopy.Graph
