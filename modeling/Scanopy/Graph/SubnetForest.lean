import Scanopy.Graph.BoxForests

/-! The view of the subnets. The rules run once for every subnet, on the nodes of all subnets so far;
they only group addresses of the subnet itself, so the nodes of the others stay as they are. -/

namespace Scanopy.Graph

open List Inventory

variable {inv : Inventory} {options : TopologyRequestOptions} {env : BuildEnv}
  {kind : Uuid → EntityDiscriminants} {grouping : GroupingConfig}

section Children

variable {children : List SubnetChildData} {child : SubnetChildData} {subnetId : Uuid}

theorem Inventory.bridgeGroup_mem {hostId : Uuid} {t : SubnetType}
    (h : inv.bridgeGroup hostId t = some subnetId) : ∃ s ∈ inv.subnets, s.id = subnetId := by
  obtain ⟨e, he, rfl⟩ := Option.map_eq_some_iff.mp h
  obtain ⟨i, -, he⟩ := mem_filterMap.mp (mem_of_find?_eq_some he)
  obtain ⟨s, hs, he⟩ := Option.bind_eq_some_iff.mp he
  split at he
  · obtain rfl := Option.some.inj he
    exact ⟨s, (Lookup.mem_of_find?_key hs).1, rfl⟩
  · exact nomatch he

theorem Inventory.subnetChild_eq_some {i : IPAddress}
    (h : inv.subnetChild grouping i = some (subnetId, child)) :
    child.id = i.id ∧ (subnetId = i.subnetId ∨ ∃ s ∈ inv.subnets, s.id = subnetId) := by
  obtain ⟨host, -, h⟩ := Option.bind_eq_some_iff.mp h
  obtain ⟨subnetId', hsubnet, heq⟩ := Option.map_eq_some_iff.mp h
  obtain ⟨rfl, rfl⟩ := Prod.mk.inj heq
  refine ⟨rfl, ?_⟩
  rw [drawnSubnet] at hsubnet
  split at hsubnet
  · exact .inr (bridgeGroup_mem hsubnet)
  · exact .inl (Option.some.inj hsubnet).symm

theorem Inventory.mem_groupChildrenBySubnet
    (h : (subnetId, children) ∈ inv.groupChildrenBySubnet grouping)
    (hchild : child ∈ children) :
    ∃ i ∈ inv.ipAddresses, inv.subnetChild grouping i = some (subnetId, child) :=
  mem_filterMap.mp ((Groups.collect_spec h).2 child hchild)

theorem mem_subnetIds_of_children
    (h : (subnetId, children) ∈ inv.groupChildrenBySubnet grouping) :
    subnetId ∈ inv.subnetIds := by
  obtain ⟨child, hchild⟩ := exists_mem_of_ne_nil _ (Groups.collect_spec h).1
  obtain ⟨i, hi, hdrawn⟩ := mem_groupChildrenBySubnet h hchild
  obtain ⟨-, rfl | ⟨s, hs, rfl⟩⟩ := subnetChild_eq_some hdrawn
  · exact mem_append_right _ (mem_map_of_mem hi)
  · exact mem_append_left _ (mem_map_of_mem hs)

theorem Inventory.WellKeyed.subnetId_kind (h : inv.WellKeyed env kind)
    (hid : subnetId ∈ inv.subnetIds) : kind subnetId = .subnet := by
  obtain hid | hid := mem_append.mp hid
  · obtain ⟨s, hs, rfl⟩ := mem_map.mp hid
    exact h.subnet_kind s hs
  · obtain ⟨i, hi, rfl⟩ := mem_map.mp hid
    exact h.address_subnet_kind i hi

theorem Inventory.WellKeyed.child_kind (h : inv.WellKeyed env kind)
    (hgroup : (subnetId, children) ∈ inv.groupChildrenBySubnet grouping)
    (hchild : child ∈ children) : kind child.id = .ipAddress := by
  obtain ⟨i, hi, hdrawn⟩ := mem_groupChildrenBySubnet hgroup hchild
  rw [(subnetChild_eq_some hdrawn).1]
  exact h.ipAddress_kind i hi

theorem nodup_children (h : inv.WellKeyed env kind) :
    (((env.order.visit .subnets (inv.groupChildrenBySubnet grouping)).flatMap Prod.snd).map
      (·.id)).Nodup := by
  have hperm := ((env.order.visit_perm .subnets (inv.groupChildrenBySubnet grouping)).flatMap_right
    Prod.snd).trans (Groups.collect_perm _)
  refine (hperm.map _).nodup_iff.mpr (h.ipAddresses.sublist ?_)
  rw [map_map]
  refine map_filterMap_sublist _ fun i _ e he => ?_
  exact (subnetChild_eq_some he).1

end Children

section Steps

def IsSubnetGroup (inv : Inventory) (env : BuildEnv) (rules : List (IdentifiedRule ElementRule))
    (subnetIds : List Uuid) (n : Node) : Prop :=
  n.isContainer ∧ ∃ r ∈ rules, ∃ g : Group, g.parentId ∈ subnetIds ∧ inv.KnowsKey g.key ∧
    n.id = env.newV5 (g.idName r.id) ∧ n.parentId = some g.parentId

def IsSubnetElement (subnets : List (Uuid × List SubnetChildData)) (nodes : List Node) (n : Node) :
    Prop :=
  n.isContainer = false ∧ (∃ subnet ∈ subnets, ∃ child ∈ subnet.2, n.id = child.id) ∧
    ∃ containerId, n.parentId = some containerId ∧
      (containerId ∈ subnets.map Prod.fst ∨ ∃ m ∈ nodes, m.isContainer ∧ m.id = containerId)

structure SubnetNodes (inv : Inventory) (env : BuildEnv) (rules : List (IdentifiedRule ElementRule))
    (subnets : List (Uuid × List SubnetChildData)) (nodes : List Node) : Prop where
  nodup : (nodes.map (·.id)).Nodup
  node : ∀ n ∈ nodes, IsSubnetGroup inv env rules (subnets.map Prod.fst) n ∨
    IsSubnetElement subnets nodes n
  child : ∀ subnet ∈ subnets, ∀ child ∈ subnet.2, ∃ n ∈ nodes, n.id = child.id

theorem SubnetNodes.of_shape {rules : List (IdentifiedRule ElementRule)}
    {subnets : List (Uuid × List SubnetChildData)} {nodes nodes' : List Node}
    (hshape : nodes'.map Node.shape = nodes.map Node.shape)
    (h : SubnetNodes inv env rules subnets nodes) : SubnetNodes inv env rules subnets nodes' := by
  refine ⟨?_, ?_, ?_⟩
  · rw [map_id_of_shape hshape]
    exact h.nodup
  · intro n' hn'
    obtain ⟨n, hn, hid, hcont, hparent, -⟩ := exists_of_shape hshape.symm hn'
    obtain ⟨hgroup, r, hr, g, hg, hkey, hgid, hgparent⟩ |
      ⟨helem, hchild, containerId, hcontainer, hwhere⟩ := h.node n hn
    · exact .inl ⟨hcont ▸ hgroup, r, hr, g, hg, hkey, hid ▸ hgid, hparent ▸ hgparent⟩
    · refine .inr ⟨hcont ▸ helem, hid ▸ hchild, containerId, hparent ▸ hcontainer, ?_⟩
      obtain hwhere | ⟨m, hm, hmcont, hmid⟩ := hwhere
      · exact .inl hwhere
      · obtain ⟨m', hm', hid', hcont', -⟩ := exists_of_shape hshape hm
        exact .inr ⟨m', hm', hcont'.trans hmcont, hid'.trans hmid⟩
  · intro subnet hsubnet child hchild
    obtain ⟨n, hn, hid⟩ := h.child subnet hsubnet child hchild
    obtain ⟨n', hn', hid', -⟩ := exists_of_shape hshape hn
    exact ⟨n', hn', hid'.trans hid⟩

variable {subnets : List (Uuid × List SubnetChildData)} {subnetId : Uuid}
  {children : List SubnetChildData} {nodes : List Node}

def subnetInput (inv : Inventory) (env : BuildEnv) (nodes : List Node) (subnetId : Uuid)
    (children : List SubnetChildData) : RuleInput where
  env
  nodes := nodes ++ children.map (Inventory.childNode subnetId)
  resolveElement := inv.resolveChild subnetId children

theorem matchData_subnetInput {id : Uuid} {d : ElementMatchData}
    (hd : (subnetInput inv env nodes subnetId children).matchData id = some d) :
    (∃ child ∈ children, child.id = id) ∧ d.virtualizerServiceId = none ∧
      ∀ project, d.deploymentGroup = some project → project ∈ inv.projects := by
  obtain ⟨n, hn, hd⟩ := Option.bind_eq_some_iff.mp hd
  have hnid := find?_some hn
  simp only [Bool.and_eq_true, decide_eq_true_eq] at hnid
  obtain ⟨child, hchild, rfl⟩ := Option.map_eq_some_iff.mp hd
  obtain ⟨hmem, hid⟩ := Lookup.mem_of_find?_key hchild
  refine ⟨⟨child, hmem, hid.trans hnid.2⟩, rfl, fun project hproject => ?_⟩
  dsimp only at hproject
  split at hproject
  · rw [deploymentGroupAt] at hproject
    split at hproject
    · rename_i project' hprojects
      obtain rfl := Option.some.inj hproject
      have hmem : project' ∈ List.eraseDups _ := hprojects ▸ mem_singleton_self project'
      obtain ⟨s, hs, hproject⟩ := mem_filterMap.mp (mem_eraseDups.mp hmem)
      exact mem_filterMap.mpr ⟨s, (mem_filter.mp hs).1, hproject⟩
    · exact nomatch hproject
  · exact nomatch hproject

structure NextSubnet (inv : Inventory) (grouping : GroupingConfig)
    (subnets : List (Uuid × List SubnetChildData)) (subnetId : Uuid)
    (children : List SubnetChildData) : Prop where
  mem : ∀ subnet ∈ subnets ++ [(subnetId, children)], subnet ∈ inv.groupChildrenBySubnet grouping
  fresh : subnetId ∉ subnets.map Prod.fst
  nodup : (((subnets ++ [(subnetId, children)]).flatMap Prod.snd).map (·.id)).Nodup

variable {rules : List (IdentifiedRule ElementRule)}

theorem NextSubnet.mem_self (hnext : NextSubnet inv grouping subnets subnetId children) :
    (subnetId, children) ∈ inv.groupChildrenBySubnet grouping :=
  hnext.mem _ (mem_append_right _ (mem_singleton_self _))

section Next
variable (hnext : NextSubnet inv grouping subnets subnetId children)
  (hnodes : SubnetNodes inv env rules subnets nodes)
variable {child : SubnetChildData}
include hnext hnodes

theorem NextSubnet.ne_child {n : Node} (hn : n ∈ nodes) (hkeyed : inv.WellKeyed env kind)
    (hchild : child ∈ children) : n.id ≠ child.id := by
  intro heq
  obtain ⟨-, r, hr, g, -, -, hid, -⟩ | ⟨-, ⟨subnet, hsubnet, child', hchild', hid⟩, -⟩ :=
    hnodes.node n hn
  · have hkind := hkeyed.child_kind hnext.mem_self hchild
    rw [← heq, hid, hkeyed.newV5_kind] at hkind
    exact nomatch hkind
  · have hnodup := hnext.nodup
    rw [flatMap_append, map_append, nodup_append] at hnodup
    refine hnodup.2.2 child'.id ?_ child.id ?_ (hid.symm.trans heq)
    · exact mem_map_of_mem (mem_flatMap.mpr ⟨subnet, hsubnet, hchild'⟩)
    · exact mem_map_of_mem (by simpa using hchild)

theorem NextSubnet.eq_of_isIn (hkeyed : inv.WellKeyed env kind)
    (hchild : child ∈ children) {parentId : Uuid}
    (hin : (subnetInput inv env nodes subnetId children).IsIn child.id parentId) :
    parentId = subnetId := by
  obtain ⟨n, hn, hparent, hid⟩ := hin
  obtain hn | hn := mem_append.mp hn
  · exact absurd hid (hnext.ne_child hnodes hn hkeyed hchild)
  · obtain ⟨child', -, rfl⟩ := mem_map.mp hn
    exact (Option.some.inj hparent).symm

theorem NextSubnet.makes (hkeyed : inv.WellKeyed env kind) {r : IdentifiedRule ElementRule}
    {g : Group} (hg : (subnetInput inv env nodes subnetId children).Makes r g) :
    g.parentId = subnetId ∧ inv.KnowsKey g.key := by
  obtain ⟨id, d, hin, hd, hkey⟩ := hg
  obtain ⟨⟨child, hchild, rfl⟩, hvirtualizer, hproject⟩ := matchData_subnetInput hd
  refine ⟨hnext.eq_of_isIn hnodes hkeyed hchild hin, ?_⟩
  refine knowsKey_of_key (fun serviceId hs => ?_) hproject hkey
  rw [hvirtualizer] at hs
  exact nomatch hs

theorem NextSubnet.nodup_input (hkeyed : inv.WellKeyed env kind) :
    ((subnetInput inv env nodes subnetId children).nodes.map (·.id)).Nodup := by
  have hnodup := hnext.nodup
  rw [flatMap_append, map_append, nodup_append] at hnodup
  have hids : (children.map (childNode subnetId)).map (·.id) = children.map (·.id) := by
    rw [map_map]
    rfl
  rw [subnetInput, map_append, hids, nodup_append]
  refine ⟨hnodes.nodup, by simpa using hnodup.2.1, ?_⟩
  intro id hid id' hid' heq
  obtain ⟨n, hn, rfl⟩ := mem_map.mp hid
  obtain ⟨child, hchild, rfl⟩ := mem_map.mp hid'
  exact hnext.ne_child hnodes hn hkeyed hchild heq

theorem NextSubnet.madeNames (hkeyed : inv.WellKeyed env kind)
    (hrules : rules = (GroupingConfig.fromRequestOptions options .l3Logical).elementRules) :
    (subnetInput inv env nodes subnetId children).MadeNames rules ⊆
      inv.names env options.elementRules := by
  rintro name ⟨r, hr, g, hg, rfl⟩
  obtain ⟨hparent, hkey⟩ := hnext.makes hnodes hkeyed hg
  rw [hrules] at hr
  exact .inr ⟨g, r, mem_of_mem_viewRules hr,
    .inl (hparent ▸ mem_subnetIds_of_children hnext.mem_self), hkey, rfl⟩

end Next

theorem SubnetNodes.step (h : Request inv options env kind)
    (hrules : rules = (GroupingConfig.fromRequestOptions options .l3Logical).elementRules)
    (hnext : NextSubnet inv grouping subnets subnetId children)
    (hnodes : SubnetNodes inv env rules subnets nodes) :
    SubnetNodes inv env rules (subnets ++ [(subnetId, children)])
      (applyElementRules (subnetInput inv env nodes subnetId children) rules).1 := by
  have hself := hnext.mem_self
  have hmakes : ∀ {r g}, (subnetInput inv env nodes subnetId children).Makes r g →
      g.parentId = subnetId ∧ inv.KnowsKey g.key := hnext.makes hnodes h.keyed
  have hsubnetMem : ∀ id ∈ subnets.map Prod.fst, id ∈ inv.subnetIds := by
    intro id hid
    obtain ⟨subnet, hsubnet, rfl⟩ := mem_map.mp hid
    exact mem_subnetIds_of_children (hnext.mem subnet (mem_append_left _ hsubnet))
  have hmade := hnext.madeNames hnodes h.keyed hrules
  refine ⟨?_, ?_, ?_⟩
  · refine nodup_applyElementRules (hnext.nodup_input hnodes h.keyed) (hrules ▸ h.viewRules .l3Logical)
      (h.names.mono hmade) ?_
    rintro name ⟨r, hr, g, hg, rfl⟩ n hn heq
    have heq : n.id = env.newV5 (g.idName r.id) := heq
    obtain hn | hn := mem_append.mp hn
    · obtain ⟨-, r', hr', g', hg', hkey', hid, -⟩ | ⟨-, ⟨subnet, hsubnet, child, hchild, hid⟩, -⟩ :=
        hnodes.node n hn
      · -- the names of other subnets have another parent
        rw [hrules] at hr'
        have hname' : g'.idName r'.id ∈ inv.names env options.elementRules :=
          .inr ⟨g', r', mem_of_mem_viewRules hr', .inl (hsubnetMem _ hg'), hkey', rfl⟩
        have hname := h.names hname' (hmade ⟨r, hr, g, hg, rfl⟩) (hid.symm.trans heq)
        rw [(Group.idName_eq hname).1, (hmakes hg).1] at hg'
        exact hnext.fresh hg'
      · have hkind := h.keyed.child_kind (hnext.mem subnet (mem_append_left _ hsubnet)) hchild
        rw [← hid, heq, h.keyed.newV5_kind] at hkind
        exact nomatch hkind
    · obtain ⟨child, hchild, rfl⟩ := mem_map.mp hn
      have hkind := h.keyed.child_kind hself hchild
      have hid : child.id = env.newV5 (g.idName r.id) := heq
      rw [hid, h.keyed.newV5_kind] at hkind
      exact nomatch hkind
  · intro n hn
    obtain ⟨m, hm, rfl⟩ | hn := mem_applyElementRules.mp hn
    · cases hcont : m.isContainer with
      | true =>
        left
        obtain hm | hm := mem_append.mp hm
        · obtain ⟨-, r, hr, g, hg, hkey, hid, hparent⟩ | ⟨helem, -⟩ := hnodes.node m hm
          · rw [Node.reassign_of_isContainer hcont]
            exact ⟨hcont, r, hr, g, by simp [hg], hkey, hid, hparent⟩
          · rw [helem] at hcont
            exact nomatch hcont
        · obtain ⟨child, -, rfl⟩ := mem_map.mp hm
          exact nomatch hcont
      | false =>
        right
        refine ⟨by rw [Node.reassign_isContainer, hcont], ?_, ?_⟩
        · rw [Node.reassign_id]
          obtain hm | hm := mem_append.mp hm
          · obtain ⟨hcont', -⟩ | ⟨-, ⟨subnet, hsubnet, hchild⟩, -⟩ := hnodes.node m hm
            · rw [hcont] at hcont'
              exact nomatch hcont'
            · exact ⟨subnet, mem_append_left _ hsubnet, hchild⟩
          · obtain ⟨child, hchild, rfl⟩ := mem_map.mp hm
            exact ⟨_, mem_append_right _ (mem_singleton_self _), child, hchild, rfl⟩
        · obtain ⟨parentId, hparent, hkept | hmoved⟩ := Node.exists_reassign_parentId hcont
          · refine ⟨parentId, hparent, ?_⟩
            obtain hm | hm := mem_append.mp hm
            · obtain ⟨hcont', -⟩ | ⟨-, -, containerId, hcontainer, hwhere⟩ := hnodes.node m hm
              · rw [hcont] at hcont'
                exact nomatch hcont'
              · rw [hkept, Option.some.injEq] at hcontainer
                obtain hwhere | ⟨c, hc, hccont, hcid⟩ := hwhere
                · left
                  simp [hcontainer, hwhere]
                · refine .inr ⟨c, mem_applyElementRules.mpr (.inl ⟨c, mem_append_left _ hc, ?_⟩),
                    hccont, hcid.trans hcontainer.symm⟩
                  exact Node.reassign_of_isContainer hccont
            · obtain ⟨child, -, rfl⟩ := mem_map.mp hm
              obtain rfl := Option.some.inj hkept
              left
              simp
          · obtain ⟨c, hc, hid, -⟩ := RuleInput.exists_container_of_mem_reassignments hmoved
            exact ⟨parentId, hparent, .inr ⟨c, mem_applyElementRules.mpr (.inr hc),
              (RuleInput.exists_group_of_mem_newContainers hc).1, hid⟩⟩
    · left
      obtain ⟨hcont, r, hr, g, hg, hid, hparent⟩ := RuleInput.exists_group_of_mem_newContainers hn
      obtain ⟨hgparent, hkey⟩ := hmakes hg
      exact ⟨hcont, r, hr, g, by simp [hgparent], hkey, hid, hparent⟩
  · intro subnet hsubnet child hchild
    have hfound : ∃ m ∈ (subnetInput inv env nodes subnetId children).nodes, m.id = child.id := by
      obtain hsubnet | hsubnet := mem_append.mp hsubnet
      · obtain ⟨n, hn, hid⟩ := hnodes.child subnet hsubnet child hchild
        exact ⟨n, mem_append_left _ hn, hid⟩
      · obtain rfl := mem_singleton.mp hsubnet
        exact ⟨_, mem_append_right _ (mem_map_of_mem hchild), rfl⟩
    obtain ⟨m, hm, hid⟩ := hfound
    exact ⟨_, mem_applyElementRules.mpr (.inl ⟨m, hm, rfl⟩), by rw [Node.reassign_id, hid]⟩

theorem subnetNodes_run (h : Request inv options env kind) {rest : List (Uuid × List SubnetChildData)}
    (hsplit : env.order.visit .subnets
      (inv.groupChildrenBySubnet (.fromRequestOptions options .l3Logical)) = subnets ++ rest) :
    SubnetNodes inv env (GroupingConfig.fromRequestOptions options .l3Logical).elementRules subnets
      (subnets.foldl (inv.createChildNodes env (.fromRequestOptions options .l3Logical)) []) := by
  have hkeys := ((env.order.visit_perm .subnets (inv.groupChildrenBySubnet
    (.fromRequestOptions options .l3Logical))).map Prod.fst).nodup_iff.mpr (Groups.nodup_keys_collect _)
  have hchildren := @nodup_children inv env kind (.fromRequestOptions options .l3Logical) h.keyed
  induction subnets using List.reverseRecOn generalizing rest with
  | nil => exact ⟨nodup_nil, fun n hn => absurd hn not_mem_nil,
      fun subnet hsubnet => absurd hsubnet not_mem_nil⟩
  | append_singleton subnets subnet ih =>
    obtain ⟨subnetId, children⟩ := subnet
    have ih := ih (hsplit.trans (append_assoc ..))
    rw [hsplit] at hkeys hchildren
    have hnext : NextSubnet inv (.fromRequestOptions options .l3Logical) subnets subnetId children := by
      refine ⟨fun subnet hsubnet => ?_, ?_, ?_⟩
      · exact (HashOrder.mem_visit _).mp (hsplit ▸ mem_append_left rest hsubnet)
      · rw [append_assoc, map_append, nodup_append] at hkeys
        exact fun hmem => hkeys.2.2 _ hmem subnetId (by simp) rfl
      · rw [flatMap_append, map_append, nodup_append] at hchildren
        exact hchildren.1
    rw [foldl_append]
    exact SubnetNodes.of_shape (shape_applyStackRuntimeLogos _ _) (SubnetNodes.step h rfl hnext ih)

end Steps

theorem subnetNodes_createSubnetChildNodes (h : Request inv options env kind) :
    SubnetNodes inv env (GroupingConfig.fromRequestOptions options .l3Logical).elementRules
      (env.order.visit .subnets (inv.groupChildrenBySubnet (.fromRequestOptions options .l3Logical)))
      (inv.createSubnetChildNodes env (.fromRequestOptions options .l3Logical)) :=
  subnetNodes_run h (append_nil _).symm

theorem mem_createSubnetNodes {n : Node} : n ∈ inv.createSubnetNodes env grouping ↔
    ∃ subnetId ∈ (inv.groupChildrenBySubnet grouping).map Prod.fst,
      n = inv.subnetNode (inv.consolidatedContainerBridgeSubnets env grouping) subnetId := by
  simp only [createSubnetNodes, mem_map, HashOrder.mem_visit]
  constructor
  · rintro ⟨subnetId, hid, rfl⟩
    exact ⟨subnetId, hid, rfl⟩
  · rintro ⟨subnetId, hid, rfl⟩
    exact ⟨subnetId, hid, rfl⟩

theorem layered_l3 (h : Request inv options env kind) :
    Layered (inv.buildL3 env (.fromRequestOptions options .l3Logical)).1 := by
  have hnodes := subnetNodes_createSubnetChildNodes h
  -- a subnet that is named as a parent has its node
  have hsubnet : ∀ subnetId ∈ (env.order.visit .subnets (inv.groupChildrenBySubnet
      (.fromRequestOptions options .l3Logical))).map Prod.fst,
      ∃ m ∈ (inv.buildL3 env (.fromRequestOptions options .l3Logical)).1,
        m.id = subnetId ∧ m.isContainer ∧ m.parentId = none := by
    intro subnetId hid
    have hid := (((env.order.visit_perm .subnets _).map Prod.fst).mem_iff).mp hid
    exact ⟨_, mem_append_left _ (mem_createSubnetNodes.mpr ⟨subnetId, hid, rfl⟩), rfl, rfl, rfl⟩
  refine ⟨?_, ?_, ?_⟩
  · rw [buildL3, map_append, nodup_append]
    refine ⟨?_, hnodes.nodup, ?_⟩
    · rw [createSubnetNodes, map_map]
      have hkeys := (env.order.visit_perm .subnetNodes ((inv.groupChildrenBySubnet
        (.fromRequestOptions options .l3Logical)).map Prod.fst)).nodup_iff.mpr
          (Groups.nodup_keys_collect _)
      exact hkeys.map fun _ _ heq => heq
    · intro id hid id' hid' heq
      obtain ⟨n, hn, rfl⟩ := mem_map.mp hid
      obtain ⟨n', hn', rfl⟩ := mem_map.mp hid'
      obtain ⟨subnetId, hsubnetId, rfl⟩ := mem_createSubnetNodes.mp hn
      obtain ⟨⟨_, children⟩, hmem, rfl⟩ := mem_map.mp hsubnetId
      have hkind := h.keyed.subnetId_kind (mem_subnetIds_of_children hmem)
      obtain ⟨-, r, -, g, -, -, hid, -⟩ | ⟨-, ⟨subnet, hsubnet, child, hchild, hid⟩, -⟩ :=
        hnodes.node n' hn'
      · have hnew := h.keyed.newV5_kind (g.idName r.id)
        rw [← hid, ← heq] at hnew
        exact nomatch hnew.symm.trans hkind
      · have hchild := h.keyed.child_kind ((HashOrder.mem_visit _).mp hsubnet) hchild
        rw [← hid, ← heq] at hchild
        exact nomatch hchild.symm.trans hkind
  · intro n hn hcont parentId hparent
    obtain hn | hn := mem_append.mp hn
    · obtain ⟨subnetId, -, rfl⟩ := mem_createSubnetNodes.mp hn
      exact nomatch hparent
    · obtain ⟨-, r, -, g, hg, -, -, hgparent⟩ | ⟨helem, -⟩ := hnodes.node n hn
      · rw [hparent, Option.some.injEq] at hgparent
        exact hgparent ▸ hsubnet g.parentId hg
      · rw [helem] at hcont
        exact nomatch hcont
  · intro n hn helem parentId hparent
    obtain hn | hn := mem_append.mp hn
    · obtain ⟨subnetId, -, rfl⟩ := mem_createSubnetNodes.mp hn
      exact nomatch helem
    · obtain ⟨hcont, -⟩ | ⟨-, -, containerId, hcontainer, hwhere⟩ := hnodes.node n hn
      · rw [helem] at hcont
        exact nomatch hcont
      · rw [hparent, Option.some.injEq] at hcontainer
        subst hcontainer
        obtain hwhere | ⟨m, hm, hmcont, hmid⟩ := hwhere
        · obtain ⟨m, hm, hid, hmcont, -⟩ := hsubnet parentId hwhere
          exact ⟨m, hm, hid, hmcont⟩
        · exact ⟨m, mem_append_right _ hm, hmid, hmcont⟩

end Scanopy.Graph
