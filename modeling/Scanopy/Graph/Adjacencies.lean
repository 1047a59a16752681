import Scanopy.Graph.BoxForests

/-! The links in the view of the ports. Ports that software makes are not drawn, and with them go
their links; a link to a device is left out where two ports of the devices are linked. -/

namespace Scanopy.Graph

open List Option Inventory

section Stored
variable (inv : Inventory)

def Interface.isDrawnPort (e : Interface) : Bool := e.ifType ∉ excludedIfTypes

def LinkedPorts (e t : Interface) : Prop :=
  e.neighbor = some (.interface t.id) ∨ t.neighbor = some (.interface e.id)

def NamesHost (e : Interface) (a b : Uuid) : Prop :=
  (e.hostId = a ∧ e.neighbor = some (.host b)) ∨ (e.hostId = b ∧ e.neighbor = some (.host a))

namespace Inventory

def PortsLinked (a b : Uuid) : Prop :=
  ∃ e ∈ inv.interfaces, ∃ t ∈ inv.interfaces, LinkedPorts e t ∧ e.hostId = a ∧ t.hostId = b

def Adjacent (a b : Uuid) : Prop := inv.PortsLinked a b ∨ ∃ e ∈ inv.interfaces, NamesHost e a b

def DrawnPorts (e t : Interface) : Prop :=
  LinkedPorts e t ∧ e.hostId ≠ t.hostId ∧ e.isDrawnPort ∧ t.isDrawnPort

def DrawnAdjacent (a b : Uuid) : Prop :=
  inv.Adjacent a b ∧ (inv.PortsLinked a b → ∃ e ∈ inv.interfaces, ∃ t ∈ inv.interfaces,
    DrawnPorts e t ∧ e.hostId = a ∧ t.hostId = b)

end Inventory

end Stored

section Graphs

def Node.hostOf (n : Node) : Option Uuid :=
  match n.nodeType with
  | .container data => data.entityId
  | .element data => some data.hostId

def Edge.portPair (edge : Edge) : Option (Uuid × Uuid) :=
  match edge.edgeType with
  | .physicalLink sourceId targetId _ => some (pairKey sourceId targetId)
  | _ => none

def TopologyGraph.JoinsHosts (graph : TopologyGraph) (edge : Edge) (a b : Uuid) : Prop :=
  ∃ n ∈ graph.nodes, ∃ m ∈ graph.nodes, n.id = edge.source ∧ m.id = edge.target ∧
    ((n.hostOf = some a ∧ m.hostOf = some b) ∨ (n.hostOf = some b ∧ m.hostOf = some a))

structure DrawsAdjacencies (inv : Inventory) (graph : TopologyGraph)
    (adjacent : Uuid → Uuid → Prop) (linked : Interface → Interface → Prop) : Prop where
  joined : ∀ h ∈ inv.hosts, ∀ h' ∈ inv.hosts, h.id ≠ h'.id → adjacent h.id h'.id →
    ∃ edge ∈ graph.edges, graph.JoinsHosts edge h.id h'.id
  once : ∀ e ∈ inv.interfaces, ∀ t ∈ inv.interfaces, linked e t →
    (graph.edges.filter fun edge => edge.portPair = some (pairKey e.id t.id)).length = 1
  superseded : ∀ edge ∈ graph.edges, ∀ a b protocol, edge.edgeType = .neighborLink a b protocol →
    ∀ link ∈ graph.edges, ∀ e ∈ inv.interfaces, ∀ t ∈ inv.interfaces,
      link.portPair = some (pairKey e.id t.id) → pairKey e.hostId t.hostId ≠ pairKey a b

end Graphs

section Links
variable {inv : Inventory} {options : TopologyRequestOptions} {env : BuildEnv}
  {kind : Uuid → EntityDiscriminants} {e t : Interface} {edge : Edge} {a b : Uuid}

theorem LinkedPorts.symm (h : LinkedPorts e t) : LinkedPorts t e := Or.symm h

namespace Inventory

variable (inv) in
def IsPortLink (edge : Edge) (e t : Interface) : Prop :=
  e ∈ inv.interfaces ∧ t ∈ inv.interfaces ∧ e.neighbor = some (.interface t.id) ∧
    e.hostId ≠ t.hostId ∧ edge = {
      source := e.id
      target := t.id
      edgeType := .physicalLink e.id t.id .lldp
      label := linkLabel e.displayName t.displayName }

theorem isPortLink_of_portLink {k : Uuid × Uuid} (he : e ∈ inv.interfaces)
    (h : inv.portLink e = some (k, some edge)) :
    ∃ t, inv.IsPortLink edge e t ∧ k = pairKey e.id t.id := by
  obtain ⟨targetId, hneighbor, hkey, hout⟩ := portLink_eq_some.mp h
  obtain ⟨t, ht, hedge⟩ := bind_eq_some_iff.mp hout.symm
  obtain ⟨htmem, rfl⟩ := Lookup.mem_of_find?_key ht
  obtain ⟨hhost, hedge⟩ := ite_none_left_eq_some.mp hedge
  exact ⟨t, ⟨he, htmem, hneighbor, hhost, (some.inj hedge).symm⟩, hkey⟩

theorem exists_of_mem_portLinks (h : edge ∈ inv.portLinks) : ∃ e t, inv.IsPortLink edge e t := by
  obtain ⟨e, he, k, -, hlink⟩ := Once.exists_of_mem_onceBy h
  obtain ⟨t, ht, -⟩ := isPortLink_of_portLink (mem_getInterfacesWithNeighbor.mp he).1 hlink
  exact ⟨e, t, ht⟩

theorem IsPortLink.portPair (h : inv.IsPortLink edge e t) :
    edge.portPair = some (pairKey e.id t.id) := by
  obtain ⟨-, -, -, -, rfl⟩ := h
  rfl

theorem exists_portLink (h : inv.WellKeyed env kind) (he : e ∈ inv.interfaces)
    (ht : t ∈ inv.interfaces) (hlinked : LinkedPorts e t) (hhost : e.hostId ≠ t.hostId) :
    ∃ edge ∈ inv.portLinks, inv.IsPortLink edge e t ∨ inv.IsPortLink edge t e := by
  wlog hneighbor : e.neighbor = some (.interface t.id) generalizing e t
  · obtain ⟨edge, hedge, hlink⟩ :=
      this ht he hlinked.symm hhost.symm (hlinked.resolve_left hneighbor)
    exact ⟨edge, hedge, hlink.symm⟩
  have hfind (t : Interface) (ht : t ∈ inv.interfaces) : inv.getInterfaceById t.id = some t :=
    Lookup.find?_key_of_nodup h.interfaces ht
  obtain ⟨e', he', out, hlink', hmem⟩ := Once.exists_first
    (mem_getInterfacesWithNeighbor.mpr ⟨he, t.id, hneighbor⟩)
    (portLink_eq_some.mpr ⟨t.id, hneighbor, rfl, rfl⟩) not_mem_nil
  have hmem' := (mem_getInterfacesWithNeighbor.mp he').1
  obtain ⟨targetId, hneighbor', hkey, hout⟩ := portLink_eq_some.mp hlink'
  rcases pairKey_eq hkey with ⟨hid, rfl⟩ | ⟨rfl, hid⟩
  · obtain rfl := inj_on_of_nodup_map h.interfaces he hmem' hid
    rw [hfind t ht, bind_some, if_neg hhost] at hout
    exact ⟨_, hmem _ hout, .inl ⟨he, ht, hneighbor, hhost, rfl⟩⟩
  · obtain rfl := inj_on_of_nodup_map h.interfaces ht hmem' hid
    rw [hfind e he, bind_some, if_neg hhost.symm] at hout
    exact ⟨_, hmem _ hout, .inr ⟨ht, he, hneighbor', hhost.symm, rfl⟩⟩

theorem pairwise_portLinks : inv.portLinks.Pairwise fun edge edge' =>
    ∀ k, edge.portPair = some k → edge'.portPair ≠ some k := by
  refine Once.pairwise_onceBy fun e he e' he' k k' edge edge' hlink hlink' hne key hpair hpair' => ?_
  obtain ⟨t, ht, rfl⟩ := isPortLink_of_portLink (mem_getInterfacesWithNeighbor.mp he).1 hlink
  obtain ⟨t', ht', rfl⟩ := isPortLink_of_portLink (mem_getInterfacesWithNeighbor.mp he').1 hlink'
  rw [ht.portPair] at hpair
  rw [ht'.portPair] at hpair'
  exact hne (some.inj (hpair.trans hpair'.symm))

theorem getInterfaceById_of_mem (h : inv.WellKeyed env kind) (he : e ∈ inv.interfaces) :
    inv.getInterfaceById e.id = some e := Lookup.find?_key_of_nodup h.interfaces he

theorem mem_hostPairs_portLinks (h : inv.WellKeyed env kind) {pair : Uuid × Uuid} :
    pair ∈ inv.physicalLinkHostPairs inv.portLinks ↔
      ∃ edge ∈ inv.portLinks, ∃ e t, inv.IsPortLink edge e t ∧ pairKey e.hostId t.hostId = pair := by
  rw [physicalLinkHostPairs, mem_filterMap]
  refine exists_congr fun edge => and_congr_right fun hedge => ?_
  have hnoted {e t : Interface} (hlink : inv.IsPortLink edge e t) :
      (inv.getInterfaceById e.id).bind (fun source => (inv.getInterfaceById t.id).map fun target =>
        pairKey source.hostId target.hostId) = some (pairKey e.hostId t.hostId) := by
    rw [getInterfaceById_of_mem h hlink.1, getInterfaceById_of_mem h hlink.2.1, bind_some,
      map_some]
  constructor
  · intro hpair
    obtain ⟨e, t, hlink⟩ := exists_of_mem_portLinks hedge
    refine ⟨e, t, hlink, some.inj ((hnoted hlink).symm.trans ?_)⟩
    rw [hlink.2.2.2.2] at hpair
    exact hpair
  · rintro ⟨e, t, hlink, rfl⟩
    rw [hlink.2.2.2.2]
    exact hnoted hlink

theorem mem_deviceLinks_of_mem {edge : Edge} (h : edge ∈ inv.deviceLinks env) :
    ∃ a b protocol, edge.edgeType = .neighborLink a b protocol ∧
      pairKey a b ∉ inv.physicalLinkHostPairs inv.portLinks := by
  obtain ⟨e, -, k, -, hlink⟩ := Once.exists_of_mem_onceBy h
  obtain ⟨targetHostId, source, target, -, -, -, -, hpair, -, hout⟩ := neighborLink_eq_some.mp hlink
  obtain rfl := some.inj hout
  exact ⟨_, _, _, rfl, hpair⟩

theorem exists_deviceLink (h : inv.WellKeyed env kind) {host host' : Host} (hmem : host ∈ inv.hosts)
    (hmem' : host' ∈ inv.hosts) (hne : host.id ≠ host'.id) (he : e ∈ inv.interfaces)
    (hnames : NamesHost e host.id host'.id) (hunlinked : ¬inv.PortsLinked host.id host'.id) :
    ∃ edge ∈ inv.deviceLinks env, ∃ a b protocol, edge.edgeType = .neighborLink a b protocol ∧
      edge.source = env.newV5 (.l2Host a) ∧ edge.target = env.newV5 (.l2Host b) ∧
      (a = host.id ∧ b = host'.id ∨ a = host'.id ∧ b = host.id) := by
  wlog hfrom : e.hostId = host.id ∧ e.neighbor = some (.host host'.id) generalizing host host'
  · have hunlinked' : ¬inv.PortsLinked host'.id host.id := by
      rintro ⟨e, he, t, ht, hlinked, ha, hb⟩
      exact hunlinked ⟨t, ht, e, he, hlinked.symm, hb, ha⟩
    obtain ⟨edge, hedge, a, b, protocol, htype, hsource, htarget, hends⟩ := this hmem' hmem hne.symm
      hnames.symm hunlinked' (hnames.resolve_left hfrom)
    exact ⟨edge, hedge, a, b, protocol, htype, hsource, htarget, hends.symm⟩
  have hpair : pairKey e.hostId host'.id ∉ inv.physicalLinkHostPairs inv.portLinks := by
    intro hpair
    obtain ⟨edge, -, e', t, hlink, hkey⟩ := (mem_hostPairs_portLinks h).mp hpair
    rw [hfrom.1] at hkey
    rcases pairKey_eq hkey with ⟨ha, hb⟩ | ⟨ha, hb⟩
    · exact hunlinked ⟨e', hlink.1, t, hlink.2.1, .inl hlink.2.2.1, ha, hb⟩
    · exact hunlinked ⟨t, hlink.2.1, e', hlink.1, .inr hlink.2.2.1, hb, ha⟩
  have hsource : inv.getHostById e.hostId = some host := by
    rw [hfrom.1]
    exact Lookup.find?_key_of_nodup h.hosts hmem
  have htarget : inv.getHostById host'.id = some host' := Lookup.find?_key_of_nodup h.hosts hmem'
  obtain ⟨e', -, out, heq, hout⟩ := Once.exists_first
    (mem_getInterfacesWithHostNeighbor.mpr ⟨he, host'.id, hfrom.2⟩)
    (@neighborLink_eq_some inv e _ _ (fun id => env.newV5 (.l2Host id)) _ |>.mpr
      ⟨host'.id, host, host', hfrom.2, hfrom.1 ▸ hne, hsource, htarget, hpair, rfl, rfl⟩)
    (@List.not_mem_nil _ (pairKey e.hostId host'.id))
  obtain ⟨targetHostId, _, _, -, -, -, -, -, hkey, rfl⟩ := neighborLink_eq_some.mp heq
  refine ⟨_, hout _ rfl, _, _, _, rfl, rfl, rfl, ?_⟩
  rw [hfrom.1] at hkey
  rcases pairKey_eq hkey with ⟨ha, hb⟩ | ⟨ha, hb⟩
  · exact .inl ⟨ha.symm, hb.symm⟩
  · exact .inr ⟨hb.symm, ha.symm⟩

end Inventory

end Links

section Nodes
variable {inv : Inventory} {options : TopologyRequestOptions} {env : BuildEnv}
  {kind : Uuid → EntityDiscriminants} {e t : Interface} {edge : Edge} {a b : Uuid}

@[simp] theorem Node.hostOf_reassign (reassignments : List (Uuid × Uuid)) (n : Node) :
    (n.reassign reassignments).hostOf = n.hostOf := by
  obtain ⟨id, nodeType, header⟩ := n
  unfold Node.reassign Node.hostOf
  cases nodeType with
  | container data => rfl
  | element data => cases Inserts.get reassignments id <;> rfl

theorem exists_node_of_mem_l2Nodes {n : Node} (hn : n ∈ inv.l2Nodes env) :
    ∃ m ∈ (buildGraph env inv options .l2Physical).nodes, m.id = n.id ∧ m.hostOf = n.hostOf :=
  ⟨_, mem_applyElementRules.mpr (.inl ⟨n, hn, rfl⟩), Node.reassign_id, Node.hostOf_reassign _ _⟩

theorem exists_port (options : TopologyRequestOptions) (he : e ∈ inv.interfaces)
    (hdrawn : e.isDrawnPort) (hhost : e.hostId ∈ inv.qualifyingHostIds env) :
    ∃ n ∈ (buildGraph env inv options .l2Physical).nodes, n.id = e.id ∧ n.hostOf = some e.hostId := by
  have hn := mem_l2Nodes.mpr (.inr ⟨e.hostId, hhost,
    mem_portNodes.mpr ⟨e, he, rfl, of_decide_eq_true hdrawn, rfl⟩⟩)
  exact exists_node_of_mem_l2Nodes hn

theorem exists_box (h : inv.WellKeyed env kind) {host : Host} (hmem : host ∈ inv.hosts)
    (hhost : host.id ∈ inv.qualifyingHostIds env) :
    ∃ n ∈ (buildGraph env inv options .l2Physical).nodes,
      n.id = env.newV5 (.l2Host host.id) ∧ n.hostOf = some host.id := by
  have hfind : inv.getHostById host.id = some host := Lookup.find?_key_of_nodup h.hosts hmem
  exact exists_node_of_mem_l2Nodes (mem_l2Nodes.mpr (.inl ⟨host, hfind, hhost, rfl⟩))

theorem mem_l2_edges : edge ∈ (buildGraph env inv options .l2Physical).edges ↔
    ∃ link ∈ inv.portLinks ++ inv.deviceLinks env, stampEdge .l2Physical link = edge ∧
      (∃ n ∈ (buildGraph env inv options .l2Physical).nodes, n.id = link.source) ∧
      ∃ n ∈ (buildGraph env inv options .l2Physical).nodes, n.id = link.target := by
  rw [buildGraph, addEdgesToGraph, mem_filter, List.mem_map]
  simp only [Bool.and_eq_true, List.any_eq_true, decide_eq_true_eq]
  constructor
  · rintro ⟨⟨link, hlink, rfl⟩, hsource, htarget⟩
    exact ⟨link, hlink, rfl, hsource, htarget⟩
  · rintro ⟨link, hlink, rfl, hsource, htarget⟩
    exact ⟨⟨link, hlink, rfl⟩, hsource, htarget⟩

theorem pairKey_comm (a b : Uuid) : pairKey a b = pairKey b a := by
  unfold pairKey
  split_ifs with hab hba hba
  · omega
  · rfl
  · rfl
  · have hrank : rank a = rank b := by omega
    rw [BitVec.eq_of_toNat_eq (x := a) (y := b) hrank]

theorem TopologyGraph.JoinsHosts.symm {graph : TopologyGraph} (h : graph.JoinsHosts edge a b) :
    graph.JoinsHosts edge b a := by
  obtain ⟨n, hn, m, hm, hsource, htarget, hhosts⟩ := h
  exact ⟨n, hn, m, hm, hsource, htarget, hhosts.symm⟩

theorem Inventory.IsPortLink.drawn (hlink : inv.IsPortLink edge e t)
    (options : TopologyRequestOptions) (h : inv.WellKeyed env kind) (hmem : edge ∈ inv.portLinks) (he : e.isDrawnPort) (ht : t.isDrawnPort) :
    ∃ drawn ∈ (buildGraph env inv options .l2Physical).edges,
      drawn.portPair = some (pairKey e.id t.id) ∧
        (buildGraph env inv options .l2Physical).JoinsHosts drawn e.hostId t.hostId := by
  have hportPair := hlink.portPair
  obtain ⟨hemem, htmem, hneighbor, -, rfl⟩ := hlink
  have hsource := mem_qualifyingHostIds_of_isLinked h
    ⟨e, hemem, t.id, hneighbor, .inl rfl⟩
  have htarget := mem_qualifyingHostIds_of_isLinked h
    ⟨e, hemem, t.id, hneighbor, .inr ⟨t, htmem, rfl, rfl⟩⟩
  obtain ⟨n, hn, hnid, hnhost⟩ := exists_port options hemem he hsource
  obtain ⟨m, hm, hmid, hmhost⟩ := exists_port options htmem ht htarget
  refine ⟨_, mem_l2_edges.mpr ⟨_, mem_append_left _ hmem, rfl, ⟨n, hn, hnid⟩, m, hm, hmid⟩,
    hportPair, n, hn, m, hm, hnid, hmid, .inl ⟨hnhost, hmhost⟩⟩

theorem exists_drawn_link (h : inv.WellKeyed env kind) (he : e ∈ inv.interfaces)
    (ht : t ∈ inv.interfaces) (hdrawn : Inventory.DrawnPorts e t) :
    ∃ drawn ∈ (buildGraph env inv options .l2Physical).edges,
      drawn.portPair = some (pairKey e.id t.id) ∧
        (buildGraph env inv options .l2Physical).JoinsHosts drawn e.hostId t.hostId := by
  obtain ⟨hlinked, hhost, hedrawn, htdrawn⟩ := hdrawn
  obtain ⟨edge, hedge, hlink | hlink⟩ := exists_portLink h he ht hlinked hhost
  · exact hlink.drawn options h hedge hedrawn htdrawn
  · obtain ⟨drawn, hmem, hpair, hjoins⟩ := hlink.drawn options h hedge htdrawn hedrawn
    exact ⟨drawn, hmem, pairKey_comm e.id t.id ▸ hpair, hjoins.symm⟩

theorem exists_drawn_deviceLink (h : inv.WellKeyed env kind) {host host' : Host}
    (hmem : host ∈ inv.hosts) (hmem' : host' ∈ inv.hosts) (hne : host.id ≠ host'.id)
    (he : e ∈ inv.interfaces) (hnames : NamesHost e host.id host'.id)
    (hunlinked : ¬inv.PortsLinked host.id host'.id) :
    ∃ drawn ∈ (buildGraph env inv options .l2Physical).edges,
      (buildGraph env inv options .l2Physical).JoinsHosts drawn host.id host'.id := by
  obtain ⟨edge, hedge, a, b, protocol, htype, hsource, htarget, hends⟩ :=
    exists_deviceLink h hmem hmem' hne he hnames hunlinked
  have hqualifies (c : Uuid) (hc : c = a ∨ c = b) : c ∈ inv.qualifyingHostIds env :=
    mem_qualifyingHostIds.mpr (.inr (.inl ⟨edge, hedge, a, b, protocol, htype, hc⟩))
  have hknown (c : Uuid) (hc : c = host.id ∨ c = host'.id) (hends : c = a ∨ c = b) :
      ∃ n ∈ (buildGraph env inv options .l2Physical).nodes,
        n.id = env.newV5 (.l2Host c) ∧ n.hostOf = some c := by
    rcases hc with rfl | rfl
    · exact exists_box h hmem (hqualifies _ hends)
    · exact exists_box h hmem' (hqualifies _ hends)
  obtain ⟨n, hn, hnid, hnhost⟩ := hknown a (by tauto) (.inl rfl)
  obtain ⟨m, hm, hmid, hmhost⟩ := hknown b (by tauto) (.inr rfl)
  rw [← hsource] at hnid
  rw [← htarget] at hmid
  refine ⟨_, mem_l2_edges.mpr ⟨edge, mem_append_right _ hedge, rfl, ⟨n, hn, hnid⟩, m, hm, hmid⟩,
    n, hn, m, hm, hnid, hmid, ?_⟩
  rw [hnhost, hmhost]
  rcases hends with ⟨rfl, rfl⟩ | ⟨rfl, rfl⟩
  · exact .inl ⟨rfl, rfl⟩
  · exact .inr ⟨rfl, rfl⟩

theorem pairwise_l2_edges : (buildGraph env inv options .l2Physical).edges.Pairwise fun edge edge' =>
    ∀ k, edge.portPair = some k → edge'.portPair ≠ some k := by
  have hlinks : (inv.portLinks ++ inv.deviceLinks env).Pairwise fun edge edge' =>
      ∀ k, edge.portPair = some k → edge'.portPair ≠ some k := by
    have hnone {edge : Edge} (h : edge ∈ inv.deviceLinks env) : edge.portPair = none := by
      obtain ⟨a, b, protocol, htype, -⟩ := mem_deviceLinks_of_mem h
      rw [Edge.portPair, htype]
    refine pairwise_append.mpr ⟨pairwise_portLinks, ?_, fun edge _ edge' h k _ => ?_⟩
    · refine pairwise_of_forall_mem_list fun edge h edge' _ k hk => ?_
      rw [hnone h] at hk
      exact nomatch hk
    · rw [hnone h]
      exact nofun
  exact (pairwise_map.mpr hlinks).sublist filter_sublist

theorem length_filter_portPair {edges : List Edge} {k : Uuid × Uuid}
    (hpairs : edges.Pairwise fun edge edge' => ∀ k, edge.portPair = some k → edge'.portPair ≠ some k)
    (hmem : edge ∈ edges) (hpair : edge.portPair = some k) :
    (edges.filter fun edge => edge.portPair = some k).length = 1 := by
  have hfiltered := hpairs.sublist (filter_sublist (p := fun edge => edge.portPair = some k))
  have hedge : edge ∈ edges.filter fun edge => edge.portPair = some k :=
    mem_filter.mpr ⟨hmem, decide_eq_true hpair⟩
  have hall : ∀ edge ∈ edges.filter fun edge => edge.portPair = some k, edge.portPair = some k :=
    fun edge hedge => of_decide_eq_true (mem_filter.mp hedge).2
  match hlist : edges.filter fun edge => edge.portPair = some k with
  | [] => simp [hlist] at hedge
  | [_] => rw [hlist, length_singleton]
  | first :: second :: rest =>
    rw [hlist] at hfiltered hall
    have hne := (pairwise_cons.mp hfiltered).1 second mem_cons_self
    exact absurd (hall second (by simp)) (hne k (hall first (by simp)))

/-- The adjacencies that the view of the ports draws. -/
theorem drawsAdjacencies (h : Request inv options env kind) :
    DrawsAdjacencies inv (buildGraph env inv options .l2Physical) inv.DrawnAdjacent
      Inventory.DrawnPorts where
  joined host hmem host' hmem' hne hadjacent := by
    obtain ⟨hstored, hports⟩ := hadjacent
    by_cases hlinked : inv.PortsLinked host.id host'.id
    · obtain ⟨e, he, t, ht, hdrawn, ha, hb⟩ := hports hlinked
      obtain ⟨drawn, hdrawnmem, -, hjoins⟩ := exists_drawn_link h.keyed he ht hdrawn
      rw [← ha, ← hb]
      exact ⟨drawn, hdrawnmem, hjoins⟩
    · obtain ⟨e, he, hnames⟩ := hstored.resolve_left hlinked
      exact exists_drawn_deviceLink h.keyed hmem hmem' hne he hnames hlinked
  once e he t ht hdrawn := by
    obtain ⟨drawn, hmem, hpair, -⟩ := exists_drawn_link h.keyed he ht hdrawn
    exact length_filter_portPair pairwise_l2_edges hmem hpair
  superseded edge hedge a b protocol htype link hlink e he t ht hpair := by
    obtain ⟨device, hdevice, rfl, -⟩ := mem_l2_edges.mp hedge
    obtain ⟨port, hport, rfl, -⟩ := mem_l2_edges.mp hlink
    have hunnoted : pairKey a b ∉ inv.physicalLinkHostPairs inv.portLinks := by
      rcases mem_append.mp hdevice with hmem | hmem
      · obtain ⟨e', t', -, -, -, -, rfl⟩ := exists_of_mem_portLinks hmem
        exact nomatch htype
      · obtain ⟨a', b', protocol', htype', hunnoted⟩ := mem_deviceLinks_of_mem hmem
        obtain ⟨rfl, rfl, -⟩ := EdgeType.neighborLink.inj (htype.symm.trans htype')
        exact hunnoted
    have hnoted : pairKey e.hostId t.hostId ∈ inv.physicalLinkHostPairs inv.portLinks := by
      rcases mem_append.mp hport with hmem | hmem
      · obtain ⟨e', t', hlink'⟩ := exists_of_mem_portLinks hmem
        have hids : pairKey e.id t.id = pairKey e'.id t'.id :=
          some.inj (hpair.symm.trans hlink'.portPair)
        rcases pairKey_eq hids with ⟨heid, htid⟩ | ⟨heid, htid⟩
        · obtain rfl := inj_on_of_nodup_map h.keyed.interfaces he hlink'.1 heid
          obtain rfl := inj_on_of_nodup_map h.keyed.interfaces ht hlink'.2.1 htid
          exact (mem_hostPairs_portLinks h.keyed).mpr ⟨port, hmem, e, t, hlink', rfl⟩
        · obtain rfl := inj_on_of_nodup_map h.keyed.interfaces he hlink'.2.1 heid
          obtain rfl := inj_on_of_nodup_map h.keyed.interfaces ht hlink'.1 htid
          exact (mem_hostPairs_portLinks h.keyed).mpr
            ⟨port, hmem, t, e, hlink', pairKey_comm _ _⟩
      · obtain ⟨a', b', protocol', htype', -⟩ := mem_deviceLinks_of_mem hmem
        have hnone : port.portPair = none := by rw [Edge.portPair, htype']
        exact nomatch hnone.symm.trans hpair
    intro heq
    exact hunnoted (heq ▸ hnoted)

end Nodes

section Uplink

private def distributionSwitchId : Uuid := 0x7c94e2b8d10f4a63b5e81f2a6c07d359

private def meshPointId : Uuid := 0x20b5f7d94ae346189c3d7ea15b60f82c

private def downlinkPortId : Uuid := 0xe1873d0a5cf24b9e8d264f90b7a3c615

private def radioPortId : Uuid := 0x95a6c0f13b7d4e28a47cd2e8061fb593

private def meshUplink (ifType : ℤ) : Inventory where
  hosts := [{ id := distributionSwitchId, name := "dist-1" }, { id := meshPointId, name := "ap-7" }]
  interfaces := [
    { id := downlinkPortId, hostId := distributionSwitchId, ifDescr := "ge-0/0/12", ifType := 6,
      neighbor := some (.interface radioPortId) },
    { id := radioPortId, hostId := meshPointId, ifDescr := "ra0", ifType }]

private def meshEnv : BuildEnv where
  newV5
    | .workloadsHost id => if id = distributionSwitchId then 0x4b17e09fd2c65a3881f4c7a9e3056d1b
        else 0xd83c6a5e1f905b7ea92b04f7d86e31c2
    | .l2Host id => if id = distributionSwitchId then 0x0f65b9d38e7a5c2491e6a0d74cb3f258
        else 0x8a20d4f71c6b53e9b75fe8c3902d6a14
    | _ => 0x5e91c3a6f0d75842a3b80c7d42f96e1d
  order := ⟨fun _ l => l, fun _ l => .refl l⟩

private def meshKind (id : Uuid) : EntityDiscriminants :=
  if id = distributionSwitchId ∨ id = meshPointId then .host
  else if id = downlinkPortId ∨ id = radioPortId then .interface
  else if id = ungroupedContainerId then .unknown
  else .topology

private theorem request_meshUplink {ifType : ℤ} (h : ifType = 6 ∨ ifType = 71) :
    Request (meshUplink ifType) {} meshEnv meshKind where
  keyed := by
    obtain rfl | rfl := h
    all_goals
      refine ⟨by decide, by decide, by decide, by decide, by decide, nofun, nofun, by decide, nofun,
        nofun, by decide, fun name => ?_, by decide⟩
      cases name <;> simp only [meshEnv] <;> (try split) <;> decide
  rules := nodup_nil
  names := by
    have hids : (meshUplink ifType).hostIds ⊆ [distributionSwitchId, meshPointId] := by
      obtain rfl | rfl := h <;> decide
    exact injOn_names hids rfl (by decide)

theorem drawsAdjacencies_wired : DrawsAdjacencies (meshUplink 6)
    (buildGraph meshEnv (meshUplink 6) {} .l2Physical) (meshUplink 6).DrawnAdjacent
      Inventory.DrawnPorts := drawsAdjacencies (request_meshUplink (.inl rfl))

/-- A radio is not drawn as a port, so the neighbour that names it is not drawn either. -/
theorem not_drawsAdjacencies_radio : Request (meshUplink 71) {} meshEnv meshKind ∧
    ¬DrawsAdjacencies (meshUplink 71) (buildGraph meshEnv (meshUplink 71) {} .l2Physical)
      (meshUplink 71).Adjacent LinkedPorts := by
  refine ⟨request_meshUplink (.inr rfl), fun h => ?_⟩
  have hnone : (buildGraph meshEnv (meshUplink 71) {} .l2Physical).edges = [] := by decide +kernel
  have honce := h.once _ mem_cons_self _ (mem_cons_of_mem _ mem_cons_self) (.inl rfl)
  rw [hnone] at honce
  exact nomatch honce

end Uplink

end Scanopy.Graph
