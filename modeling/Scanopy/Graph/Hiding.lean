import Scanopy.Graph.KeptBoxes
import Scanopy.Graph.SubnetForest

/-! What a view hides from the others. The view of the ports alone filters them by their links on
the server; the links are drawn in other views too, and go from there with the ports. -/

namespace Scanopy.Graph

open List Option Inventory

variable {inv : Inventory} {options : TopologyRequestOptions} {env : BuildEnv}
  {kind : Uuid → EntityDiscriminants}

section Filters

def TopologyRequestOptions.hideIn (options : TopologyRequestOptions) (view : TopologyView)
    (values : EntityDiscriminants → MetadataFilterType → Option (List String)) :
    TopologyRequestOptions :=
  { options with hideMetadataValues := Function.update options.hideMetadataValues view values }

def TopologyRequestOptions.HidesPorts (options : TopologyRequestOptions)
    (state : InterfaceLinkState) : Prop :=
  state.id ∈ (options.hideMetadataValues .l2Physical .interface .linkState).getD []

instance (state : InterfaceLinkState) : Decidable (options.HidesPorts state) :=
  inferInstanceAs (Decidable (_ ∈ _))

def Inventory.withInterfaces (inv : Inventory) (interfaces : List Interface) : Inventory :=
  { inv with interfaces }

def Inventory.visiblePorts (inv : Inventory) (options : TopologyRequestOptions) : List Interface :=
  inv.interfaces.filter fun e =>
    ¬options.HidesPorts (e.linkState (referencedNeighbourInterfaces inv.interfaces))

theorem hides_serverHideSet_interface (state : InterfaceLinkState) :
    (serverHideSet options .interface).hides [(.linkState, state.id)] =
      decide (options.HidesPorts state) := by
  have hviews : (serverHideSet options .interface).renderingViews = 1 := rfl
  have hhidden : (serverHideSet options .interface).hidden =
      ((options.hideMetadataValues .l2Physical .interface .linkState).getD []).map
        ((MetadataFilterType.linkState, ·)) := by
    simp [serverHideSet, TopologyView.all, TopologyView.serverFilters, TopologyView.metadataFilters]
  rw [ServerHideSet.hides, hviews, hhidden, Bool.eq_iff_iff, decide_eq_true_eq,
    TopologyRequestOptions.HidesPorts]
  simp [one_le_count_iff]

theorem applyServerMetadataFilters_eq :
    applyServerMetadataFilters inv options = inv.withInterfaces (inv.visiblePorts options) := by
  have hhosts : retainVisible inv.hosts (serverHideSet options .host) Host.filterValues = inv.hosts :=
    filter_eq_self.mpr fun _ _ => rfl
  have hservices : retainVisible inv.services (serverHideSet options .service) Service.filterValues =
      inv.services := filter_eq_self.mpr fun _ _ => rfl
  rw [applyServerMetadataFilters, hhosts, hservices, withInterfaces, visiblePorts]
  simp only [retainVisible, Interface.filterValues, hides_serverHideSet_interface, decide_not]

end Filters

section Linked

theorem linkState_eq_linked {referenced : List Uuid} {e : Interface} :
    e.linkState referenced = .linked ↔ e.neighbor.isSome ∨ e.id ∈ referenced := by
  rw [Interface.linkState, InterfaceLinkState.classify]
  split
  · rename_i hlinked
    simpa using hlinked
  · rename_i hlinked
    simpa using hlinked

theorem mem_referencedNeighbourInterfaces {interfaces : List Interface} {id : Uuid} :
    id ∈ referencedNeighbourInterfaces interfaces ↔
      ∃ e ∈ interfaces, e.neighbor = some (.interface id) := by
  rw [referencedNeighbourInterfaces, mem_filterMap]
  refine exists_congr fun e => and_congr_right fun _ => ?_
  cases e.neighbor with
  | none => simp
  | some neighbor => cases neighbor <;> simp

theorem getInterfaceById_visiblePorts (hshown : ¬options.HidesPorts .linked) {id : Uuid}
    (hlinked : ∀ e ∈ inv.interfaces, e.id = id →
      e.linkState (referencedNeighbourInterfaces inv.interfaces) = .linked) :
    (inv.withInterfaces (inv.visiblePorts options)).getInterfaceById id = inv.getInterfaceById id := by
  show (inv.interfaces.filter _).find? _ = inv.interfaces.find? _
  rw [← head?_filter, ← head?_filter, List.filter_filter]
  refine congrArg List.head? (filter_congr fun e he => ?_)
  rw [Bool.and_eq_left_iff_imp, decide_eq_true_eq]
  intro hid
  rw [hlinked e he hid]
  exact decide_eq_true hshown

theorem getInterfaceById_neighbor (hshown : ¬options.HidesPorts .linked) {e : Interface}
    {targetId : Uuid} (he : e ∈ inv.interfaces) (hneighbor : e.neighbor = some (.interface targetId)) :
    (inv.withInterfaces (inv.visiblePorts options)).getInterfaceById targetId =
      inv.getInterfaceById targetId := by
  refine getInterfaceById_visiblePorts hshown fun t _ ht => linkState_eq_linked.mpr (.inr ?_)
  exact mem_referencedNeighbourInterfaces.mpr ⟨e, he, ht ▸ hneighbor⟩

theorem filter_visiblePorts (hshown : ¬options.HidesPorts .linked) {p : Interface → Bool}
    (hp : ∀ e, p e → e.neighbor.isSome) :
    (inv.visiblePorts options).filter p = inv.interfaces.filter p := by
  rw [visiblePorts, List.filter_filter]
  refine congrArg (fun p => inv.interfaces.filter p) (funext fun e => ?_)
  rw [Bool.and_eq_left_iff_imp]
  intro he
  rw [linkState_eq_linked.mpr (.inl (hp e he))]
  exact decide_eq_true hshown

theorem filter_visiblePorts_eq_nil (hhidden : options.HidesPorts .linked) {p : Interface → Bool}
    (hp : ∀ e, p e → e.neighbor.isSome) : (inv.visiblePorts options).filter p = [] := by
  refine filter_eq_nil_iff.mpr fun e he hpe => ?_
  have hvisible := (mem_filter.mp he).2
  rw [linkState_eq_linked.mpr (.inl (hp e hpe))] at hvisible
  exact of_decide_eq_true hvisible hhidden

end Linked

section Views

def Inventory.linkEdges (inv : Inventory) (env : BuildEnv) (grouping : GroupingConfig) :
    TopologyView → List Edge
  | .l3Logical => inv.createPhysicalLinkEdges
  | .workloads => inv.boxLinks env (inv.workloadsRemoved env grouping) ++
      inv.boxNeighborLinks env (inv.workloadsRemoved env grouping)
  | .application | .l2Physical => []

def Inventory.edgesWith (inv : Inventory) (env : BuildEnv) (grouping : GroupingConfig) :
    TopologyView → List Edge → List Edge
  | .l3Logical, links => inv.createInterfaceEdges ++ inv.createDependencyEdges ++
      inv.createVmHostEdges ++ inv.createContainerizedServiceEdges grouping ++
      inv.createSameContainerEdges ++ links
  | .workloads, links => links ++ inv.workloadDependencyEdges
      (inv.serviceToNode (inv.workloadsPlacements env grouping)
        (((inv.workloadsNodes env grouping).filter fun n => !n.isContainer).map (·.id)))
  | .application, links => (inv.buildApplication env grouping).2 ++ links
  | .l2Physical, links => links

def drawnWith (env : BuildEnv) (inv : Inventory) (options : TopologyRequestOptions)
    (view : TopologyView) (links : List Edge) : TopologyGraph :=
  let grouping := .fromRequestOptions options view
  let nodes := (buildView env inv grouping view).1
  ⟨nodes, addEdgesToGraph nodes ((inv.edgesWith env grouping view links).map (stampEdge view))⟩

theorem buildGraph_withInterfaces {interfaces : List Interface} {view : TopologyView}
    (hview : view ≠ .l2Physical) :
    buildGraph env (inv.withInterfaces interfaces) options view = drawnWith env inv options view
      ((inv.withInterfaces interfaces).linkEdges env (.fromRequestOptions options view) view) := by
  cases view with
  | l2Physical => exact absurd rfl hview
  | l3Logical => rfl
  | workloads => rfl
  | application =>
    rw [drawnWith, edgesWith, linkEdges, append_nil]
    rfl

theorem linkEdges_of_hidden (hhidden : options.HidesPorts .linked) (grouping : GroupingConfig)
    (view : TopologyView) :
    (inv.withInterfaces (inv.visiblePorts options)).linkEdges env grouping view = [] := by
  obtain ⟨hports, hdevices⟩ :
      (inv.withInterfaces (inv.visiblePorts options)).getInterfacesWithNeighbor = [] ∧
        (inv.withInterfaces (inv.visiblePorts options)).getInterfacesWithHostNeighbor = [] := by
    constructor
    all_goals
      refine filter_visiblePorts_eq_nil hhidden fun e he => ?_
      split at he
      · rename_i hneighbor
        rw [hneighbor, isSome_some]
      · exact nomatch he
  cases view with
  | l2Physical | application => rfl
  | l3Logical =>
    rw [linkEdges, createPhysicalLinkEdges, hports]
    rfl
  | workloads =>
    rw [linkEdges, boxLinks, boxNeighborLinks,
      createNeighborLinkEdges, hports, hdevices]
    rfl

theorem linkEdges_of_shown (h : inv.WellKeyed env kind) (hshown : ¬options.HidesPorts .linked)
    (grouping : GroupingConfig) (view : TopologyView) :
    (inv.withInterfaces (inv.visiblePorts options)).linkEdges env grouping view =
      inv.linkEdges env grouping view := by
  obtain ⟨hports, hdevices⟩ :
      (inv.withInterfaces (inv.visiblePorts options)).getInterfacesWithNeighbor =
          inv.getInterfacesWithNeighbor ∧
        (inv.withInterfaces (inv.visiblePorts options)).getInterfacesWithHostNeighbor =
          inv.getInterfacesWithHostNeighbor := by
    constructor
    all_goals
      refine filter_visiblePorts hshown fun e he => ?_
      split at he
      · rename_i hneighbor
        rw [hneighbor, isSome_some]
      · exact nomatch he
  cases view with
  | l2Physical | application => rfl
  | l3Logical =>
    rw [linkEdges, linkEdges, createPhysicalLinkEdges,
      createPhysicalLinkEdges, hports]
    refine Once.onceBy_congr fun e he => ?_
    obtain ⟨he, targetId, hneighbor⟩ := mem_getInterfacesWithNeighbor.mp he
    simp only [addressLink, hneighbor, getInterfaceById_neighbor hshown he hneighbor]
    rfl
  | workloads =>
    have hboxLinks : (inv.withInterfaces (inv.visiblePorts options)).boxLinks env
        (inv.workloadsRemoved env grouping) = inv.boxLinks env (inv.workloadsRemoved env grouping) := by
      rw [boxLinks, boxLinks, hports]
      refine Once.onceBy_congr fun e he => ?_
      obtain ⟨he, targetId, hneighbor⟩ := mem_getInterfacesWithNeighbor.mp he
      simp only [boxLink, hneighbor, getInterfaceById_neighbor hshown he hneighbor]
    have hpairs : (inv.withInterfaces (inv.visiblePorts options)).physicalLinkHostPairs
        (inv.boxLinks env (inv.workloadsRemoved env grouping)) =
          inv.physicalLinkHostPairs (inv.boxLinks env (inv.workloadsRemoved env grouping)) := by
      refine filterMap_congr fun edge hedge => ?_
      obtain ⟨e, he, k, -, hlink⟩ := Once.exists_of_mem_onceBy hedge
      obtain ⟨he, -⟩ := mem_getInterfacesWithNeighbor.mp he
      obtain ⟨targetId, t, hneighbor, ht, -, -, -, -, hout⟩ := boxLink_eq_some.mp hlink
      obtain rfl := some.inj hout
      obtain ⟨-, rfl⟩ := Lookup.mem_of_find?_key ht
      have hself : (inv.withInterfaces (inv.visiblePorts options)).getInterfaceById e.id =
          inv.getInterfaceById e.id := by
        refine getInterfaceById_visiblePorts hshown fun e' he' hid => linkState_eq_linked.mpr (.inl ?_)
        rw [inj_on_of_nodup_map h.interfaces he' he hid, hneighbor, isSome_some]
      dsimp only
      rw [hself, getInterfaceById_neighbor hshown he hneighbor]
    show (inv.withInterfaces (inv.visiblePorts options)).boxLinks env
        (inv.workloadsRemoved env grouping) ++ _ = _
    rw [linkEdges, hboxLinks]
    congr 1
    show List.filter _ (Once.onceBy (inv.neighborLink _
      ((inv.withInterfaces (inv.visiblePorts options)).physicalLinkHostPairs
        ((inv.withInterfaces (inv.visiblePorts options)).boxLinks env
          (inv.workloadsRemoved env grouping)))) [] _) = _
    rw [hboxLinks, hpairs, hdevices]
    rfl

theorem topologyRenderData_eq (h : inv.WellKeyed env kind) {view : TopologyView}
    (hview : view ≠ .l2Physical) :
    topologyRenderData env inv options view = drawnWith env inv options view
      (if options.HidesPorts .linked then []
        else inv.linkEdges env (.fromRequestOptions options view) view) := by
  rw [topologyRenderData, applyServerMetadataFilters_eq, buildGraph_withInterfaces hview]
  split
  · rename_i hhidden
    rw [linkEdges_of_hidden hhidden]
  · rename_i hshown
    rw [linkEdges_of_shown h hshown]

end Views

section Drawn

def Edge.IsDrawn (nodes : List Node) (edge : Edge) : Prop :=
  (∃ n ∈ nodes, n.id = edge.source) ∧ ∃ n ∈ nodes, n.id = edge.target

theorem addEdgesToGraph_eq_nil {nodes : List Node} {view : TopologyView} {edges : List Edge} :
    addEdgesToGraph nodes (edges.map (stampEdge view)) = [] ↔
      ∀ edge ∈ edges, ¬edge.IsDrawn nodes := by
  simp [addEdgesToGraph, filter_eq_nil_iff, Edge.IsDrawn, stampEdge]

theorem exists_edgesWith_eq (inv : Inventory) (env : BuildEnv) (grouping : GroupingConfig)
    (view : TopologyView) :
    ∃ before after, ∀ links, inv.edgesWith env grouping view links = before ++ (links ++ after) := by
  cases view with
  | l2Physical => exact ⟨[], [], fun _ => (append_nil _).symm⟩
  | l3Logical => exact ⟨_, [], fun links => by rw [append_nil]; rfl⟩
  | workloads => exact ⟨[], _, fun _ => rfl⟩
  | application => exact ⟨_, [], fun links => by rw [append_nil]; rfl⟩

theorem drawnWith_eq_nil_iff {view : TopologyView} {links : List Edge} :
    drawnWith env inv options view links = drawnWith env inv options view [] ↔ ∀ edge ∈ links,
        ¬edge.IsDrawn (buildView env inv (.fromRequestOptions options view) view).1 := by
  obtain ⟨before, after, hedges⟩ :=
    exists_edgesWith_eq inv env (.fromRequestOptions options view) view
  simp only [drawnWith, TopologyGraph.mk.injEq, true_and, hedges]
  rw [← @addEdgesToGraph_eq_nil _ view, addEdgesToGraph, addEdgesToGraph, addEdgesToGraph]
  simp only [map_append, filter_append, nil_append]
  rw [append_cancel_left_eq, append_left_eq_self]

end Drawn

namespace Inventory

section Addresses

def DrawsAddress (inv : Inventory) (id : Uuid) : Prop :=
  ∃ i ∈ inv.ipAddresses, i.id = id ∧ (inv.drawnHost i).isSome

def DrawsPort (inv : Inventory) (e : Interface) : Prop :=
  ∃ id, inv.resolveIpAddressForInterface e = some id ∧ inv.DrawsAddress id

def LinksAddresses (inv : Inventory) : Prop :=
  ∃ e ∈ inv.interfaces, ∃ t ∈ inv.interfaces, e.neighbor = some (.interface t.id) ∧
    inv.DrawsPort e ∧ inv.DrawsPort t

theorem kind_of_resolveIpAddress (h : inv.WellKeyed env kind) {e : Interface}
    (he : e ∈ inv.interfaces) {id : Uuid} (hid : inv.resolveIpAddressForInterface e = some id) :
    kind id = .ipAddress := by
  rw [resolveIpAddressForInterface] at hid
  split at hid
  · rename_i hown
    exact some.inj hid ▸ h.port_address_kind e he _ hown
  · split at hid
    · rename_i i hsingle
      have hi : i ∈ inv.getIpAddressesForHost e.hostId := hsingle ▸ mem_singleton_self i
      exact some.inj hid ▸ h.ipAddress_kind i (mem_filter.mp hi).1
    · exact nomatch hid

theorem drawnSubnet_isSome {grouping : GroupingConfig} {i : IPAddress} (hi : i ∈ inv.ipAddresses)
    {host : Host} (hhost : inv.getHostById i.hostId = some host) :
    (inv.drawnSubnet grouping i host).isSome := by
  rw [drawnSubnet]
  split
  · rename_i hbridge
    rw [Bool.and_eq_true, subnetTypeOf] at hbridge
    cases hs : inv.getSubnetById i.subnetId with
    | none =>
      rw [hs] at hbridge
      exact absurd hbridge.2 (by decide)
    | some s =>
      rw [hs, map_some, getD_some] at hbridge
      rw [bridgeGroup, isSome_map, find?_isSome]
      refine ⟨((i.hostId, s.subnetType), s.id), mem_filterMap.mpr ⟨i, hi, ?_⟩, ?_⟩
      · rw [hs, bind_some, if_pos hbridge.2]
      · simp [subnetTypeOf, hs, (Lookup.mem_of_find?_key hhost).2]
  · rfl

theorem exists_node_address_iff (h : Request inv options env kind) {id : Uuid}
    (hkind : kind id = .ipAddress) : inv.DrawsAddress id ↔
      ∃ n ∈ (inv.buildL3 env (.fromRequestOptions options .l3Logical)).1, n.id = id := by
  have hnodes := subnetNodes_createSubnetChildNodes h
  constructor
  · rintro ⟨i, hi, rfl, hdrawn⟩
    obtain ⟨host, hhost⟩ := isSome_iff_exists.mp hdrawn
    have hhost' : inv.getHostById i.hostId = some host := by
      rw [drawnHost] at hhost
      split at hhost
      · exact nomatch hhost
      · exact hhost
    obtain ⟨subnetId, hsubnet⟩ := isSome_iff_exists.mp
      (@drawnSubnet_isSome inv (.fromRequestOptions options .l3Logical) i hi host hhost')
    obtain ⟨child, hchild⟩ : ∃ child, inv.subnetChild (.fromRequestOptions options .l3Logical) i =
        some (subnetId, child) := by
      rw [subnetChild, hhost, bind_some, hsubnet]
      exact ⟨_, rfl⟩
    obtain ⟨children, hgroup, hmem⟩ :=
      Groups.exists_mem_collect (mem_filterMap.mpr ⟨i, hi, hchild⟩)
    obtain ⟨n, hn, hnid⟩ :=
      hnodes.child (subnetId, children) ((HashOrder.mem_visit _).mpr hgroup) child hmem
    exact ⟨n, mem_append_right _ hn, hnid.trans (subnetChild_eq_some hchild).1⟩
  · rintro ⟨n, hn, rfl⟩
    obtain hn | hn := mem_append.mp hn
    · obtain ⟨subnetId, hsubnetId, rfl⟩ := mem_createSubnetNodes.mp hn
      obtain ⟨⟨_, children⟩, hmem, rfl⟩ := List.mem_map.mp hsubnetId
      have hsubnet := h.keyed.subnetId_kind (mem_subnetIds_of_children hmem)
      exact nomatch hsubnet.symm.trans hkind
    · obtain ⟨-, r, -, g, -, -, hid, -⟩ | ⟨-, ⟨⟨subnetId, children⟩, hgroup, child, hchild, hid⟩, -⟩ :=
        hnodes.node n hn
      · rw [hid, h.keyed.newV5_kind] at hkind
        exact nomatch hkind
      · obtain ⟨i, hi, hdrawn⟩ :=
          mem_groupChildrenBySubnet ((HashOrder.mem_visit _).mp hgroup) hchild
        refine ⟨i, hi, ((subnetChild_eq_some hdrawn).1.symm.trans hid.symm), ?_⟩
        obtain ⟨host, hhost, -⟩ := bind_eq_some_iff.mp hdrawn
        rw [hhost, isSome_some]

theorem linksAddresses_iff (h : Request inv options env kind) : inv.LinksAddresses ↔
    ∃ edge ∈ inv.createPhysicalLinkEdges,
      edge.IsDrawn (inv.buildL3 env (.fromRequestOptions options .l3Logical)).1 := by
  have hport : ∀ {e id}, e ∈ inv.interfaces → inv.resolveIpAddressForInterface e = some id →
      (inv.DrawsPort e ↔
        ∃ n ∈ (inv.buildL3 env (.fromRequestOptions options .l3Logical)).1, n.id = id) := by
    intro e id he hid
    rw [← exists_node_address_iff h (kind_of_resolveIpAddress h.keyed he hid), DrawsPort, hid]
    simp
  -- what a link gives, for the port and the other one
  have hlink : ∀ {e targetId out k}, e ∈ inv.interfaces → inv.addressLink e = some (k, out) →
      e.neighbor = some (.interface targetId) →
      ((∃ edge ∈ out, edge.IsDrawn (inv.buildL3 env (.fromRequestOptions options .l3Logical)).1) ↔
        ∃ t ∈ inv.interfaces, t.id = targetId ∧ inv.DrawsPort e ∧ inv.DrawsPort t) := by
    intro e targetId out k he heq hneighbor
    obtain ⟨targetId', hneighbor', -, rfl⟩ := addressLink_eq_some.mp heq
    obtain rfl := Neighbor.interface.inj (some.inj (hneighbor.symm.trans hneighbor'))
    constructor
    · rintro ⟨edge, hedge, hsource, htarget⟩
      obtain ⟨source, hsourceId, hedge⟩ := bind_eq_some_iff.mp hedge
      obtain ⟨t, ht, hedge⟩ := bind_eq_some_iff.mp hedge
      obtain ⟨target, htargetId, rfl⟩ := map_eq_some_iff.mp hedge
      obtain ⟨htmem, hid⟩ := Lookup.mem_of_find?_key ht
      exact ⟨t, htmem, hid, (hport he hsourceId).mpr hsource, (hport htmem htargetId).mpr htarget⟩
    · rintro ⟨t, htmem, rfl, hsource, htarget⟩
      have ht : inv.getInterfaceById t.id = some t :=
        Lookup.find?_key_of_nodup h.keyed.interfaces htmem
      obtain ⟨source, hsourceId, -⟩ := id hsource
      obtain ⟨target, htargetId, -⟩ := id htarget
      refine ⟨_, bind_eq_some_iff.mpr ⟨source, hsourceId, bind_eq_some_iff.mpr
        ⟨t, ht, map_eq_some_iff.mpr ⟨target, htargetId, rfl⟩⟩⟩, ?_, ?_⟩
      · exact (hport he hsourceId).mp hsource
      · exact (hport htmem htargetId).mp htarget
  constructor
  · rintro ⟨e, he, t, ht, hneighbor, hsource, htarget⟩
    refine Once.exists_mem_onceBy (fun a ha a' ha' k out out' hfa hfa' hout => ?_)
      (mem_getInterfacesWithNeighbor.mpr ⟨he, t.id, hneighbor⟩)
      (addressLink_eq_some.mpr ⟨t.id, hneighbor, rfl, rfl⟩) not_mem_nil
      ((hlink he (addressLink_eq_some.mpr ⟨t.id, hneighbor, rfl, rfl⟩) hneighbor).mpr
        ⟨t, ht, rfl, hsource, htarget⟩)
    -- ports that name each other have one link, and it is drawn from either side
    obtain ⟨ha, b, hab⟩ := mem_getInterfacesWithNeighbor.mp ha
    obtain ⟨ha', b', hab'⟩ := mem_getInterfacesWithNeighbor.mp ha'
    obtain ⟨t, ht, rfl, hsource, htarget⟩ := (hlink ha hfa hab).mp hout
    refine (hlink ha' hfa' hab').mpr ?_
    obtain ⟨_, hneighbor₁, rfl, -⟩ := addressLink_eq_some.mp hfa
    obtain ⟨_, hneighbor₂, hkey, -⟩ := addressLink_eq_some.mp hfa'
    obtain rfl := Neighbor.interface.inj (some.inj (hab.symm.trans hneighbor₁))
    obtain rfl := Neighbor.interface.inj (some.inj (hab'.symm.trans hneighbor₂))
    obtain ⟨hid, rfl⟩ | ⟨hid, hid'⟩ := pairKey_eq hkey
    · obtain rfl := inj_on_of_nodup_map h.keyed.interfaces ha ha' hid
      exact ⟨t, ht, rfl, hsource, htarget⟩
    · obtain rfl := inj_on_of_nodup_map h.keyed.interfaces ht ha' hid'
      exact ⟨a, ha, hid, htarget, hsource⟩
  · rintro ⟨edge, hedge, hdrawn⟩
    obtain ⟨e, he, k, -, heq⟩ := Once.exists_of_mem_onceBy hedge
    obtain ⟨he, targetId, hneighbor⟩ := mem_getInterfacesWithNeighbor.mp he
    obtain ⟨t, ht, rfl, hsource, htarget⟩ := (hlink he heq hneighbor).mp ⟨edge, rfl, hdrawn⟩
    exact ⟨e, he, t, ht, hneighbor, hsource, htarget⟩

end Addresses

section Boxes

def NamesHost (inv : Inventory) (e : Interface) (hostId : Uuid) : Prop :=
  e.neighbor = some (.host hostId) ∨
    ∃ t ∈ inv.interfaces, e.neighbor = some (.interface t.id) ∧ t.hostId = hostId

def LinksBoxes (inv : Inventory) (rules : List (IdentifiedRule ElementRule)) : Prop :=
  ∃ e ∈ inv.interfaces, ∃ hostId, inv.NamesHost e hostId ∧ e.hostId ≠ hostId ∧
    inv.KeepsBox rules e.hostId ∧ inv.KeepsBox rules hostId

theorem mem_hostIds_of_interface {e : Interface} (he : e ∈ inv.interfaces) :
    e.hostId ∈ inv.hostIds := mem_append_right _ (List.mem_map_of_mem he)

theorem KeepsBox.mem_hostIds {rules : List (IdentifiedRule ElementRule)} {hostId : Uuid}
    (h : inv.KeepsBox rules hostId) : hostId ∈ inv.hostIds := by
  obtain ⟨⟨host, hhost, rfl, -⟩, -⟩ := h
  exact mem_hostIds_of_host hhost

def JoinsBoxes (env : BuildEnv) (a b : Uuid) (edge : Edge) : Prop :=
  (edge.source = hostBoxId env a ∧ edge.target = hostBoxId env b) ∨
    (edge.source = hostBoxId env b ∧ edge.target = hostBoxId env a)

theorem isDrawn_iff_of_joinsBoxes (h : Request inv options env kind) {a b : Uuid}
    (ha : a ∈ inv.hostIds) (hb : b ∈ inv.hostIds) {edge : Edge} (hjoins : JoinsBoxes env a b edge) :
    edge.IsDrawn (inv.workloadsNodes env (.fromRequestOptions options .workloads)) ↔
      inv.KeepsBox options.elementRules a ∧ inv.KeepsBox options.elementRules b := by
  rw [keepsBox_iff h ha, keepsBox_iff h hb, Edge.IsDrawn]
  obtain ⟨hsource, htarget⟩ | ⟨hsource, htarget⟩ := hjoins
  · rw [hsource, htarget]
  · rw [hsource, htarget, and_comm]

theorem not_mem_removed_of_keepsBox (h : Request inv options env kind) {hostId : Uuid}
    (hkept : inv.KeepsBox options.elementRules hostId) :
    hostBoxId env hostId ∉ inv.workloadsRemoved env (.fromRequestOptions options .workloads) := by
  obtain ⟨n, hn, hid⟩ := (keepsBox_iff h hkept.mem_hostIds).mp hkept
  exact hid ▸ of_decide_eq_true (mem_filter.mp hn).2

theorem exists_boxLink (h : Request inv options env kind) {e t : Interface} (he : e ∈ inv.interfaces)
    (ht : t ∈ inv.interfaces) (hneighbor : e.neighbor = some (.interface t.id))
    (hhost : e.hostId ≠ t.hostId) (hsource : inv.KeepsBox options.elementRules e.hostId)
    (htarget : inv.KeepsBox options.elementRules t.hostId) :
    ∃ edge ∈ inv.boxLinks env (inv.workloadsRemoved env (.fromRequestOptions options .workloads)),
      JoinsBoxes env e.hostId t.hostId edge := by
  have hfind : inv.getInterfaceById t.id = some t := Lookup.find?_key_of_nodup h.keyed.interfaces ht
  have hlink := boxLink_eq_some.mpr ⟨t.id, t, hneighbor, hfind, hhost,
    @not_mem_removed_of_keepsBox inv options env kind h _ hsource,
    not_mem_removed_of_keepsBox h htarget, rfl, rfl⟩
  obtain ⟨e', he', out, heq, hmem⟩ := Once.exists_first
    (mem_getInterfacesWithNeighbor.mpr ⟨he, t.id, hneighbor⟩) hlink not_mem_nil
  obtain ⟨he', -⟩ := mem_getInterfacesWithNeighbor.mp he'
  obtain ⟨targetId, t', -, ht', -, -, -, hkey, rfl⟩ := boxLink_eq_some.mp heq
  obtain ⟨htmem', rfl⟩ := Lookup.mem_of_find?_key ht'
  refine ⟨_, hmem _ rfl, ?_⟩
  obtain ⟨hid, hid'⟩ | ⟨hid, hid'⟩ := pairKey_eq hkey
  · obtain rfl := inj_on_of_nodup_map h.keyed.interfaces he he' hid
    obtain rfl := inj_on_of_nodup_map h.keyed.interfaces ht htmem' hid'
    exact .inl ⟨rfl, rfl⟩
  · obtain rfl := inj_on_of_nodup_map h.keyed.interfaces he htmem' hid
    obtain rfl := inj_on_of_nodup_map h.keyed.interfaces ht he' hid'
    exact .inr ⟨rfl, rfl⟩

theorem exists_of_mem_hostPairs (h : Request inv options env kind) {removed : List Uuid}
    {pair : Uuid × Uuid} (hpair : pair ∈ inv.physicalLinkHostPairs (inv.boxLinks env removed)) :
    ∃ a b, pair = pairKey a b ∧ ∃ edge ∈ inv.boxLinks env removed, JoinsBoxes env a b edge := by
  obtain ⟨edge, hedge, hpair⟩ := mem_filterMap.mp hpair
  obtain ⟨e, he, k, -, hlink⟩ := Once.exists_of_mem_onceBy hedge
  obtain ⟨he, -⟩ := mem_getInterfacesWithNeighbor.mp he
  obtain ⟨targetId, t, -, ht, -, -, -, -, hout⟩ := boxLink_eq_some.mp hlink
  obtain rfl := some.inj hout
  obtain ⟨htmem, rfl⟩ := Lookup.mem_of_find?_key ht
  have hself : inv.getInterfaceById e.id = some e := Lookup.find?_key_of_nodup h.keyed.interfaces he
  dsimp only at hpair
  rw [hself, ht, bind_some, map_some] at hpair
  exact ⟨e.hostId, t.hostId, (some.inj hpair).symm, _, hedge, .inl ⟨rfl, rfl⟩⟩

theorem JoinsBoxes.of_pairKey {a b c d : Uuid} {edge : Edge} (h : JoinsBoxes env a b edge)
    (heq : pairKey a b = pairKey c d) : JoinsBoxes env c d edge := by
  obtain ⟨rfl, rfl⟩ | ⟨rfl, rfl⟩ := pairKey_eq heq
  · exact h
  · exact h.symm

theorem exists_boxNeighborLink (h : Request inv options env kind) {e : Interface}
    (he : e ∈ inv.interfaces) {hostId : Uuid} (hneighbor : e.neighbor = some (.host hostId))
    (hhost : e.hostId ≠ hostId) (hsource : inv.KeepsBox options.elementRules e.hostId)
    (htarget : inv.KeepsBox options.elementRules hostId) :
    ∃ edge ∈ inv.linkEdges env (.fromRequestOptions options .workloads) .workloads,
      JoinsBoxes env e.hostId hostId edge := by
  by_cases hpair : pairKey e.hostId hostId ∈ inv.physicalLinkHostPairs
      (inv.boxLinks env (inv.workloadsRemoved env (.fromRequestOptions options .workloads)))
  · obtain ⟨a, b, hkey, edge, hedge, hjoins⟩ := exists_of_mem_hostPairs h hpair
    exact ⟨edge, mem_append_left _ hedge, hjoins.of_pairKey hkey.symm⟩
  · have hknown : ∀ {hostId}, inv.KeepsBox options.elementRules hostId →
        ∃ host, inv.getHostById hostId = some host := by
      rintro hostId ⟨⟨host, hmem, rfl, -⟩, -⟩
      exact ⟨host, Lookup.find?_key_of_nodup h.keyed.hosts hmem⟩
    obtain ⟨source, hsource'⟩ := hknown hsource
    obtain ⟨target, htarget'⟩ := hknown htarget
    obtain ⟨e', -, out, heq, hmem⟩ := Once.exists_first
      (mem_getInterfacesWithHostNeighbor.mpr ⟨he, hostId, hneighbor⟩)
      (@neighborLink_eq_some inv e _ _ (hostBoxId env) _ |>.mpr
        ⟨hostId, source, target, hneighbor, hhost, hsource', htarget', hpair, rfl, rfl⟩)
      (@List.not_mem_nil _ (pairKey e.hostId hostId))
    obtain ⟨edge, hout, hjoins⟩ : ∃ edge, out = some edge ∧ JoinsBoxes env e.hostId hostId edge := by
      obtain ⟨hostId', source', target', -, -, -, -, -, hkey, hout⟩ := neighborLink_eq_some.mp heq
      exact ⟨_, hout, JoinsBoxes.of_pairKey (.inl ⟨rfl, rfl⟩) hkey.symm⟩
    refine ⟨edge, mem_append_right _ (mem_filter.mpr ⟨hmem _ hout, ?_⟩), hjoins⟩
    have hkept := not_mem_removed_of_keepsBox h hsource
    have hkept' := not_mem_removed_of_keepsBox h htarget
    obtain ⟨hs, ht⟩ | ⟨hs, ht⟩ := hjoins
    · simp [hs, ht, hkept, hkept']
    · simp [hs, ht, hkept, hkept']

theorem linksBoxes_iff (h : Request inv options env kind) : inv.LinksBoxes options.elementRules ↔
    ∃ edge ∈ inv.linkEdges env (.fromRequestOptions options .workloads) .workloads,
      edge.IsDrawn (inv.workloadsNodes env (.fromRequestOptions options .workloads)) := by
  constructor
  · rintro ⟨e, he, hostId, hnames, hhost, hsource, htarget⟩
    have hdrawn : ∀ {edge}, JoinsBoxes env e.hostId hostId edge →
        edge.IsDrawn (inv.workloadsNodes env (.fromRequestOptions options .workloads)) := fun hjoins =>
      (isDrawn_iff_of_joinsBoxes h hsource.mem_hostIds htarget.mem_hostIds hjoins).mpr
        ⟨hsource, htarget⟩
    obtain hneighbor | ⟨t, ht, hneighbor, rfl⟩ := hnames
    · obtain ⟨edge, hedge, hjoins⟩ := exists_boxNeighborLink h he hneighbor hhost hsource htarget
      exact ⟨edge, hedge, hdrawn hjoins⟩
    · obtain ⟨edge, hedge, hjoins⟩ := exists_boxLink h he ht hneighbor hhost hsource htarget
      exact ⟨edge, mem_append_left _ hedge, hdrawn hjoins⟩
  · rintro ⟨edge, hedge, hdrawn⟩
    obtain hedge | hedge := mem_append.mp hedge
    · obtain ⟨e, he, k, -, hlink⟩ := Once.exists_of_mem_onceBy hedge
      obtain ⟨he, -⟩ := mem_getInterfacesWithNeighbor.mp he
      obtain ⟨targetId, t, hneighbor, ht, hhost, -, -, -, hout⟩ := boxLink_eq_some.mp hlink
      obtain rfl := some.inj hout
      obtain ⟨htmem, rfl⟩ := Lookup.mem_of_find?_key ht
      have hkept := (isDrawn_iff_of_joinsBoxes h (mem_hostIds_of_interface he)
        (mem_hostIds_of_interface htmem) (.inl ⟨rfl, rfl⟩)).mp hdrawn
      exact ⟨e, he, t.hostId, .inr ⟨t, htmem, hneighbor, rfl⟩, hhost, hkept⟩
    · obtain ⟨e, he, k, -, hlink⟩ := Once.exists_of_mem_onceBy (mem_filter.mp hedge).1
      obtain ⟨he, -⟩ := mem_getInterfacesWithHostNeighbor.mp he
      obtain ⟨hostId, source, target, hneighbor, hhost, -, htarget, -, -, hout⟩ :=
        neighborLink_eq_some.mp hlink
      obtain rfl := some.inj hout
      obtain ⟨htmem, rfl⟩ := Lookup.mem_of_find?_key htarget
      have hkept := (isDrawn_iff_of_joinsBoxes h (mem_hostIds_of_interface he)
        (mem_hostIds_of_host htmem) (.inl ⟨rfl, rfl⟩)).mp hdrawn
      exact ⟨e, he, target.id, .inl hneighbor, hhost, hkept⟩

end Boxes

end Inventory

section Requests
variable {values : EntityDiscriminants → MetadataFilterType → Option (List String)}

theorem drawnWith_linkEdges_iff (h : Request inv options env kind) :
    (∀ view, drawnWith env inv options view
        (inv.linkEdges env (.fromRequestOptions options view) view) =
          drawnWith env inv options view []) ↔
      ¬inv.LinksAddresses ∧ ¬inv.LinksBoxes options.elementRules := by
  rw [linksAddresses_iff h, linksBoxes_iff h]
  push Not
  constructor
  · intro hviews
    exact ⟨drawnWith_eq_nil_iff.mp (hviews .l3Logical), drawnWith_eq_nil_iff.mp (hviews .workloads)⟩
  · rintro ⟨haddresses, hboxes⟩ view
    cases view with
    | l2Physical | application => rfl
    | l3Logical => exact drawnWith_eq_nil_iff.mpr haddresses
    | workloads => exact drawnWith_eq_nil_iff.mpr hboxes

theorem topologyRenderData_hideIn {view : TopologyView}
    (hports : ∀ state, (options.hideIn view values).HidesPorts state ↔ options.HidesPorts state) :
    topologyRenderData env inv (options.hideIn view values) = topologyRenderData env inv options := by
  have hvisible : inv.visiblePorts (options.hideIn view values) = inv.visiblePorts options := by
    refine filter_congr fun e _ => ?_
    rw [decide_eq_decide, hports]
  funext other
  rw [topologyRenderData, topologyRenderData, applyServerMetadataFilters_eq,
    applyServerMetadataFilters_eq, hvisible]
  rfl

/-- What a request hides in one view leaves the other views as they are, unless it hides or shows the
linked ports and one of their links is drawn there. -/
theorem hidesApart_iff (h : Request inv options env kind) (view : TopologyView)
    (values : EntityDiscriminants → MetadataFilterType → Option (List String)) :
    (∀ other, other ≠ view → topologyRenderData env inv (options.hideIn view values) other =
        topologyRenderData env inv options other) ↔
      view ≠ .l2Physical ∨
        ((options.hideIn view values).HidesPorts .linked ↔ options.HidesPorts .linked) ∨
          (¬inv.LinksAddresses ∧ ¬inv.LinksBoxes options.elementRules) := by
  by_cases hview : view = .l2Physical
  swap
  · -- the ports are filtered by what is hidden in their own view
    refine iff_of_true (fun other _ => ?_) (.inl hview)
    refine congrFun (topologyRenderData_hideIn fun state => ?_) other
    have hsame : (options.hideIn view values).hideMetadataValues .l2Physical =
        options.hideMetadataValues .l2Physical := Function.update_of_ne (Ne.symm hview) _ _
    rw [TopologyRequestOptions.HidesPorts, hsame]
    rfl
  subst hview
  rw [← drawnWith_linkEdges_iff h]
  have hgraph : ∀ other, other ≠ .l2Physical →
      topologyRenderData env inv options other = drawnWith env inv options other
        (if options.HidesPorts .linked then []
          else inv.linkEdges env (.fromRequestOptions options other) other) :=
    fun other hother => topologyRenderData_eq h.keyed hother
  have hgraph' : ∀ other, other ≠ .l2Physical →
      topologyRenderData env inv (options.hideIn .l2Physical values) other =
        drawnWith env inv options other
          (if (options.hideIn .l2Physical values).HidesPorts .linked then []
            else inv.linkEdges env (.fromRequestOptions options other) other) :=
    fun other hother => topologyRenderData_eq h.keyed hother
  constructor
  · intro happart
    refine .inr (Classical.or_iff_not_imp_left.mpr fun hdiffer view => ?_)
    by_cases hview : view = .l2Physical
    · subst hview
      rfl
    have heq := happart view hview
    rw [hgraph view hview, hgraph' view hview] at heq
    by_cases hhidden : options.HidesPorts .linked
    · have hshown : ¬(options.hideIn .l2Physical values).HidesPorts .linked :=
        fun hhidden' => hdiffer (iff_of_true hhidden' hhidden)
      rwa [if_pos hhidden, if_neg hshown] at heq
    · have hhidden' : (options.hideIn .l2Physical values).HidesPorts .linked := by
        by_contra hshown
        exact hdiffer (iff_of_false hshown hhidden)
      rw [if_neg hhidden, if_pos hhidden'] at heq
      exact heq.symm
  · rintro (hne | hsame | hnone) other hother
    · exact absurd rfl hne
    · rw [hgraph other hother, hgraph' other hother, if_congr hsame rfl rfl]
    · rw [hgraph other hother, hgraph' other hother]
      have hnone := hnone other
      split_ifs
      · rfl
      · exact hnone.symm
      · exact hnone
      · rfl

end Requests

section Cable

private def coreSwitchId : Uuid := 0x1d6a4f7c93b24e0a8c5d7e21b0f39a64

private def accessSwitchId : Uuid := 0x7e90c3d15b2f48a6913fd8a4c6e20b75

private def uplinkPortId : Uuid := 0x40b8e2a97cd14f63a5e09f1b3d7c8254

private def corePortId : Uuid := 0xc57a19e38f604b2d9e41a0d6b8f37c92

private def switchService (id hostId : Uuid) : Service where
  id
  hostId
  name := "SSH"
  serviceDefinition := ⟨"SSH", .remoteAccess, false⟩

private def cabledSwitches : Inventory where
  hosts := [{ id := coreSwitchId, name := "core" }, { id := accessSwitchId, name := "access" }]
  services := [switchService 0x9b04d7f1a2c84e359d6670bfe13c58a2 coreSwitchId,
    switchService 0x2fe85a6bd0c94713b8a4c1d95e7f3046 accessSwitchId]
  interfaces := [
    { id := uplinkPortId, hostId := accessSwitchId, ifDescr := "ge-0/0/1", ifType := 6,
      neighbor := some (.interface corePortId) },
    { id := corePortId, hostId := coreSwitchId, ifDescr := "ge-1/0/7", ifType := 6 }]

private def cabledEnv : BuildEnv where
  newV5
    | .workloadsHost id => if id = coreSwitchId then 0x8c21f5d07b3e5a46b09d1e6f2a7c4b83
        else 0x05e7a9c4d81f5b62a34c9f0e7d6b1a58
    | .l2Host id => if id = coreSwitchId then 0xf36b08d92ac45e71804f5d1c9e3b7a26
        else 0x61d4c7a80e9b5f238b7a42f6c0d5e913
    | _ => 0x0a68eb57c88a5f349e9d27f85e68af4f
  order := ⟨fun _ l => l, fun _ l => .refl l⟩

private def cabledKind (id : Uuid) : EntityDiscriminants :=
  if id = coreSwitchId ∨ id = accessSwitchId then .host
  else if id = uplinkPortId ∨ id = corePortId then .interface
  else if id ∈ cabledSwitches.services.map (·.id) then .service
  else if id = ungroupedContainerId then .unknown
  else .topology

private theorem request_cabledSwitches : Request cabledSwitches {} cabledEnv cabledKind where
  keyed := by
    refine ⟨by decide, by decide, by decide, by decide, by decide, by decide, nofun, by decide, nofun,
      nofun, by decide, fun name => ?_, by decide⟩
    cases name <;> simp only [cabledEnv] <;> (try split) <;> decide
  rules := nodup_nil
  names := by
    have hids : cabledSwitches.hostIds ⊆ [coreSwitchId, accessSwitchId] := by decide
    exact injOn_names hids rfl (by decide)

private def hideLinkState (state : String) :
    EntityDiscriminants → MetadataFilterType → Option (List String)
  | .interface, .linkState => some [state]
  | _, _ => none

/-- Without the ports that have no link the other views are the same. -/
theorem hidesApart_unlinked : Request cabledSwitches {} cabledEnv cabledKind ∧
    ∀ other, other ≠ .l2Physical → topologyRenderData cabledEnv cabledSwitches
        (TopologyRequestOptions.hideIn {} .l2Physical (hideLinkState "Unlinked")) other =
      topologyRenderData cabledEnv cabledSwitches {} other :=
  ⟨request_cabledSwitches,
    (hidesApart_iff request_cabledSwitches .l2Physical (hideLinkState "Unlinked")).mpr
      (.inr (.inl (by decide)))⟩

/-- Without the linked ports the cable is gone from the view of the workloads. -/
theorem not_hidesApart_linked : Request cabledSwitches {} cabledEnv cabledKind ∧
    ¬∀ other, other ≠ .l2Physical → topologyRenderData cabledEnv cabledSwitches
        (TopologyRequestOptions.hideIn {} .l2Physical (hideLinkState "Linked")) other =
      topologyRenderData cabledEnv cabledSwitches {} other := by
  refine ⟨request_cabledSwitches, fun hsame => ?_⟩
  have hedges : (topologyRenderData cabledEnv cabledSwitches
      (TopologyRequestOptions.hideIn {} .l2Physical (hideLinkState "Linked")) .workloads).edges ≠
        (topologyRenderData cabledEnv cabledSwitches {} .workloads).edges := by decide +kernel
  exact hedges (congrArg TopologyGraph.edges (hsame .workloads (by decide)))

end Cable

end Scanopy.Graph
