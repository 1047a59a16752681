import Scanopy.Graph.ElementRules

/-! What one rule does, and what all rules together do. The elements of a container with one key are
a group, and a rule puts each of its groups into a subcontainer of its own. -/

namespace Scanopy.Graph

open List Option Bool PlacementContext

def ElementRule.key : ElementRule → ElementMatchData → Option GroupKey
  | .byHypervisor => PlacementContext.virtualizerKey .host
  | .byContainerRuntime => PlacementContext.virtualizerKey .service
  | .byStack => PlacementContext.stackKey
  | .byServiceCategory categories _ => PlacementContext.serviceCategoryKey categories
  | .byTag tagIds _ => PlacementContext.tagKey tagIds
  | .byTrunkPort => PlacementContext.trunkKey
  | .byVLAN => PlacementContext.vlanKey
  | .byPortOpStatus => PlacementContext.statusKey

inductive InlineContext.Inlines (inline : InlineContext) :
    ElementRule → Uuid → Uuid → Option InlineGroup → Prop
  | machine {svc : Service} {host : Host} (hsvc : svc ∈ inline.services) (hhost : host ∈ inline.hosts)
      (hmachine : host.virtualizationServiceId.isSome) (hon : svc.hostId = host.id)
      (hplain : svc.virtualizationServiceId = none) : inline.Inlines .byHypervisor svc.id host.id none
  | header {virtSvcId : Uuid} {svcIds : List Uuid} {virtSvc : Service}
      (hmem : (virtSvcId, svcIds) ∈ inline.virtToContainerSvcs)
      (hvirtSvc : inline.getService virtSvcId = some virtSvc)
      (hmachine : inline.runsOnMachine virtSvcId) :
      inline.Inlines .byContainerRuntime virtSvcId virtSvc.hostId
        (some ⟨virtSvcId, virtSvcId, .header⟩)
  | member {virtSvcId svcId : Uuid} {svcIds : List Uuid} {virtSvc : Service}
      (hmem : (virtSvcId, svcIds) ∈ inline.virtToContainerSvcs)
      (hvirtSvc : inline.getService virtSvcId = some virtSvc)
      (hmachine : inline.runsOnMachine virtSvcId) (hsvcId : svcId ∈ svcIds) :
      inline.Inlines .byContainerRuntime svcId virtSvc.hostId (some ⟨svcId, virtSvcId, .member⟩)

namespace PlacementContext
variable (ctx : PlacementContext) {key : ElementMatchData → Option GroupKey} {g g' : Group}

section Groups

structure Has (key : ElementMatchData → Option GroupKey) (parentId : Uuid) (k : GroupKey)
    (id : Uuid) : Prop where
  isIn : ∃ ids, (parentId, ids) ∈ ctx.elementsByContainer ∧ id ∈ ids
  unclaimed : id ∉ ctx.claimed
  hasKey : (ctx.matchData id).bind key = some k

def keyed (key : ElementMatchData → Option GroupKey) (elementIds : List Uuid) :
    List (GroupKey × Uuid) :=
  (elementIds.filter fun id => id ∉ ctx.claimed).filterMap fun id =>
    ((ctx.matchData id).bind key).map (·, id)

variable {k : GroupKey} {id : Uuid}

theorem mem_keyed {elementIds : List Uuid} :
    (k, id) ∈ ctx.keyed key elementIds ↔
      id ∈ elementIds ∧ id ∉ ctx.claimed ∧ (ctx.matchData id).bind key = some k := by
  simp only [keyed, mem_filterMap, mem_filter, map_eq_some_iff, Prod.mk.injEq,
    decide_eq_true_eq]
  constructor
  · rintro ⟨id', ⟨hmem, hclaimed⟩, k', hk, rfl, rfl⟩
    exact ⟨hmem, hclaimed, hk⟩
  · rintro ⟨hmem, hclaimed, hk⟩
    exact ⟨id, ⟨hmem, hclaimed⟩, k, hk, rfl, rfl⟩

theorem mem_groupsBy : g ∈ ctx.groupsBy key ↔ ∃ ids, (g.parentId, ids) ∈ ctx.elementsByContainer ∧
      (g.key, g.elementIds) ∈ Groups.collect (ctx.keyed key ids) := by
  simp only [groupsBy, mem_flatMap, List.mem_map, HashOrder.mem_visit]
  constructor
  · rintro ⟨⟨parentId, ids⟩, hmem, ⟨k, members⟩, hmembers, rfl⟩
    exact ⟨ids, hmem, hmembers⟩
  · rintro ⟨ids, hmem, hmembers⟩
    exact ⟨(g.parentId, ids), hmem, (g.key, g.elementIds), hmembers, rfl⟩

theorem elementIds_ne_nil (h : g ∈ ctx.groupsBy key) : g.elementIds ≠ [] := by
  obtain ⟨ids, -, hmembers⟩ := ctx.mem_groupsBy.mp h
  exact (Groups.collect_spec hmembers).1

theorem has_of_mem_group (h : g ∈ ctx.groupsBy key) (hid : id ∈ g.elementIds) :
    ctx.Has key g.parentId g.key id := by
  obtain ⟨ids, hmem, hmembers⟩ := ctx.mem_groupsBy.mp h
  obtain ⟨hids, hclaimed, hkey⟩ := ctx.mem_keyed.mp ((Groups.collect_spec hmembers).2 id hid)
  exact ⟨⟨ids, hmem, hids⟩, hclaimed, hkey⟩

theorem exists_group {parentId : Uuid}
    (h : ctx.Has key parentId k id) :
    ∃ g ∈ ctx.groupsBy key, g.parentId = parentId ∧ g.key = k ∧ id ∈ g.elementIds := by
  obtain ⟨⟨ids, hmem, hids⟩, hclaimed, hkey⟩ := h
  obtain ⟨members, hmembers, hid⟩ :=
    Groups.exists_mem_collect (ctx.mem_keyed.mpr ⟨hids, hclaimed, hkey⟩)
  exact ⟨⟨parentId, k, members⟩, ctx.mem_groupsBy.mpr ⟨ids, hmem, hmembers⟩, rfl, rfl, hid⟩

theorem nodup_groupsBy (h : (ctx.elementsByContainer.map Prod.fst).Nodup) :
    ((ctx.groupsBy key).map fun g => (g.parentId, g.key)).Nodup := by
  rw [groupsBy, map_flatMap]
  rw [nodup_flatMap]
  constructor
  · rintro ⟨parentId, ids⟩ -
    rw [List.map_map]
    have hkeys := Groups.nodup_keys_collect (ctx.keyed key ids)
    have hperm := (ctx.env.order.visit_perm (.groups ctx.ruleId parentId)
      (Groups.collect (ctx.keyed key ids))).map Prod.fst
    have hnodup := (hperm.nodup_iff.mpr hkeys).map (f := fun k => (parentId, k))
      fun _ _ heq => (Prod.mk.inj heq).2
    rw [List.map_map] at hnodup
    exact hnodup
  · have hperm := (ctx.env.order.visit_perm (.parents ctx.ruleId) ctx.elementsByContainer).map Prod.fst
    have hnodup := hperm.nodup_iff.mpr h
    refine (pairwise_map.mp hnodup).imp fun {a b} hne => ?_
    intro x hx hy
    obtain ⟨g, hg, rfl⟩ := List.mem_map.mp hx
    obtain ⟨g', hg', heq⟩ := List.mem_map.mp hy
    obtain ⟨_, -, rfl⟩ := List.mem_map.mp hg
    obtain ⟨_, -, rfl⟩ := List.mem_map.mp hg'
    exact hne (Prod.mk.inj heq).1.symm

end Groups

section Rules

def ruleGroups (rule : ElementRule) : List Group := (ctx.groupsBy rule.key).filter ctx.isGrouped

theorem nodup_ruleGroups (rule : ElementRule) (h : (ctx.elementsByContainer.map Prod.fst).Nodup) :
    ((ctx.ruleGroups rule).map fun g => (g.parentId, g.key)).Nodup :=
  (ctx.nodup_groupsBy h).sublist (filter_sublist.map _)

def ruleContainer : ElementRule → Group → Node
  | .byHypervisor, g => ctx.virtualizerSubcontainer .hypervisor g
  | .byContainerRuntime, g => ctx.virtualizerSubcontainer .containerRuntime g
  | .byStack, g => ctx.subcontainer g .stack (match g.key with
      | .stack project => some project
      | _ => none) true
  | .byServiceCategory _ title, g => ctx.subcontainer g .nestedServiceCategory title false
  | .byTag _ title, g => ctx.subcontainer g .nestedTag title false
  | .byTrunkPort, g => ctx.subcontainer g .trunkPort (some "Trunk Ports") false
  | .byVLAN, g => ctx.subcontainer g .vlan (ctx.vlanHeader g) false
  | .byPortOpStatus, g => ctx.subcontainer g .portOpStatus (statusHeader g) false

def ruleInline (rule : ElementRule) : Placements :=
  match rule, ctx.inlineCtx with
  | .byHypervisor, some inline =>
    ctx.inlineMachineServices inline ((ctx.ruleGroups rule).flatMap ctx.groupPlacements)
  | .byContainerRuntime, some inline => ctx.inlineRuntimes inline
  | _, _ => []

theorem filter_isGrouped (hkey : ∀ d serviceId, key d ≠ some (.virtualizer serviceId)) :
    (ctx.groupsBy key).filter ctx.isGrouped = ctx.groupsBy key := by
  refine filter_eq_self.mpr fun g hg => ?_
  obtain ⟨id, hid⟩ := exists_mem_of_ne_nil _ (ctx.elementIds_ne_nil hg)
  obtain ⟨d, -, hd⟩ := bind_eq_some_iff.mp (ctx.has_of_mem_group hg hid).hasKey
  rw [isGrouped]
  split
  · rename_i serviceId inline hg _
    exact absurd (hg ▸ hd) (hkey d serviceId)
  · rfl

theorem computePlacements_eq (rule : ElementRule) : ctx.computePlacements rule =
    { containers := (ctx.ruleGroups rule).map (ctx.ruleContainer rule)
      placements := (ctx.ruleGroups rule).flatMap ctx.groupPlacements ++ ctx.ruleInline rule
      claimed := (ctx.ruleGroups rule).flatMap (·.elementIds) } := by
  cases rule with
  | byHypervisor =>
    simp only [computePlacements, computeHypervisorPlacements, ruleInline]
    cases hinline : ctx.inlineCtx with
    | none =>
      simp only [append_nil]
      rfl
    | some inline => rfl
  | byContainerRuntime =>
    simp only [computePlacements, computeContainerRuntimePlacements, ruleInline]
    cases hinline : ctx.inlineCtx with
    | none =>
      simp only [append_nil]
      rfl
    | some inline => rfl
  | byStack | byServiceCategory categories title | byTag tagIds title | byTrunkPort | byVLAN
  | byPortOpStatus =>
    simp only [computePlacements, ruleInline, ruleGroups, append_nil]
    rw [filter_isGrouped]
    · rfl
    · intro d serviceId
      simp [ElementRule.key, stackKey, serviceCategoryKey, tagKey, trunkKey, vlanKey, statusKey]

@[simp] theorem ruleContainer_id (rule : ElementRule) (g : Group) :
    (ctx.ruleContainer rule g).id = ctx.groupId g := by cases rule <;> rfl

@[simp] theorem ruleContainer_isContainer (rule : ElementRule) (g : Group) :
    (ctx.ruleContainer rule g).isContainer = true := by cases rule <;> rfl

@[simp] theorem ruleContainer_parentId (rule : ElementRule) (g : Group) :
    (ctx.ruleContainer rule g).parentId = some g.parentId := by cases rule <;> rfl

variable {rule : ElementRule} {decision : PlacementDecision} {id : Uuid}

theorem mem_groupPlacements
    (h : (id, decision) ∈ ctx.groupPlacements g) :
    (g.key = .virtualizer id ∧ decision = .becomeSubcontainer (ctx.groupId g)) ∨
      (id ∈ g.elementIds ∧ decision = .placeInContainer (ctx.groupId g)) := by
  obtain h | h := mem_append.mp h
  · left
    split at h
    · rename_i serviceId hkey
      obtain ⟨rfl, rfl⟩ := Prod.mk.inj (mem_singleton.mp h)
      exact ⟨hkey, rfl⟩
    · exact absurd h not_mem_nil
  · right
    obtain ⟨id', hid, heq⟩ := List.mem_map.mp h
    obtain ⟨rfl, rfl⟩ := Prod.mk.inj heq
    exact ⟨hid, rfl⟩

theorem inlines_of_mem_ruleInline
    (h : (id, decision) ∈ ctx.ruleInline rule) :
    ∃ inline nodeId group, ctx.inlineCtx = some inline ∧ decision = .inlineOn nodeId group ∧
      inline.Inlines rule id nodeId group := by
  unfold ruleInline at h
  split at h
  · rename_i inline hinline
    obtain ⟨host, hhost, h⟩ := mem_flatMap.mp h
    split at h
    · exact absurd h not_mem_nil
    · rename_i hvirt
      obtain ⟨svc, hsvc, h⟩ := mem_filterMap.mp h
      split at h
      · rename_i hcond
        simp only [and_eq_true, decide_eq_true_eq, isNone_iff_eq_none] at hcond
        obtain ⟨rfl, rfl⟩ := Prod.mk.inj (some.inj h)
        refine ⟨inline, host.id, none, hinline, rfl, .machine ((HashOrder.mem_visit _).mp hsvc)
          ((HashOrder.mem_visit _).mp hhost) ?_ hcond.1.1 hcond.1.2⟩
        exact isSome_iff_ne_none.mpr fun hnone => hvirt (by rw [hnone, isNone_none])
      · exact nomatch h
  · rename_i inline hinline
    obtain ⟨⟨virtSvcId, svcIds⟩, hmem, h⟩ := mem_flatMap.mp h
    rw [HashOrder.mem_visit] at hmem
    dsimp only at h
    split at h
    · exact absurd h not_mem_nil
    · rename_i virtSvc hvirtSvc
      split at h
      · rename_i hmachine
        obtain heq | h := mem_cons.mp h
        · obtain ⟨rfl, rfl⟩ := Prod.mk.inj heq
          exact ⟨inline, _, _, hinline, rfl, .header hmem hvirtSvc hmachine⟩
        · obtain ⟨svcId, hsvcId, heq⟩ := List.mem_map.mp h
          obtain ⟨rfl, rfl⟩ := Prod.mk.inj heq
          exact ⟨inline, _, _, hinline, rfl, .member hmem hvirtSvc hmachine hsvcId⟩
      · exact absurd h not_mem_nil
  · exact absurd h not_mem_nil

theorem inlines_of_mem_placements {nodeId : Uuid}
    {group : Option InlineGroup}
    (h : (id, .inlineOn nodeId group) ∈ (ctx.computePlacements rule).placements) :
    ∃ inline, ctx.inlineCtx = some inline ∧ inline.Inlines rule id nodeId group := by
  rw [computePlacements_eq] at h
  obtain h | h := mem_append.mp h
  · obtain ⟨g, -, h⟩ := mem_flatMap.mp h
    obtain ⟨-, hdecision⟩ | ⟨-, hdecision⟩ := ctx.mem_groupPlacements h
    · exact nomatch hdecision
    · exact nomatch hdecision
  · obtain ⟨inline, nodeId', group', hinline, hdecision, hinlines⟩ :=
      ctx.inlines_of_mem_ruleInline h
    obtain ⟨rfl, rfl⟩ := PlacementDecision.inlineOn.inj hdecision
    exact ⟨inline, hinline, hinlines⟩

theorem mem_placements_place {containerId : Uuid}
    (h : (id, .placeInContainer containerId) ∈ (ctx.computePlacements rule).placements) :
    ∃ g ∈ ctx.ruleGroups rule, id ∈ g.elementIds ∧ containerId = ctx.groupId g := by
  rw [computePlacements_eq] at h
  obtain h | h := mem_append.mp h
  · obtain ⟨g, hg, h⟩ := mem_flatMap.mp h
    obtain ⟨-, hdecision⟩ | ⟨hid, hdecision⟩ := ctx.mem_groupPlacements h
    · exact nomatch hdecision
    · exact ⟨g, hg, hid, PlacementDecision.placeInContainer.inj hdecision⟩
  · obtain ⟨_, _, _, -, hdecision, -⟩ := ctx.inlines_of_mem_ruleInline h
    exact nomatch hdecision

@[simp] theorem ruleContainer_isHostBox (rule : ElementRule) (g : Group) :
    (ctx.ruleContainer rule g).isHostBox = false := by cases rule <;> rfl

end Rules

end PlacementContext

section Names

theorem Group.idName_eq {g g' : Group} {ruleId ruleId' : Uuid}
    (h : g.idName ruleId = g'.idName ruleId') :
    g.parentId = g'.parentId ∧ g.key = g'.key ∧
      (ruleId = ruleId' ∨ ∃ project, g.key = .stack project) := by
  obtain ⟨parentId, key, elementIds⟩ := g
  obtain ⟨parentId', key', elementIds'⟩ := g'
  cases key <;> cases key' <;> simp_all [Group.idName]

variable {d : ElementMatchData} {rule : ElementRule}

theorem ElementRule.key_eq_stack {project : String}
    (h : rule.key d = some (.stack project)) :
    rule = .byStack ∧ d.deploymentGroup = some project := by
  cases rule <;>
    simp_all [ElementRule.key, virtualizerKey, stackKey,
      serviceCategoryKey, tagKey, trunkKey,
      vlanKey, statusKey]

theorem ElementRule.key_eq_virtualizer {serviceId : Uuid}
    (h : rule.key d = some (.virtualizer serviceId)) : d.virtualizerServiceId = some serviceId := by
  cases rule <;>
    simp_all [ElementRule.key, virtualizerKey, stackKey,
      serviceCategoryKey, tagKey, trunkKey,
      vlanKey, statusKey]

end Names

namespace RuleInput
variable (input : RuleInput)

section Elements

def IsIn (id parentId : Uuid) : Prop := ∃ n ∈ input.nodes, n.containerId = some parentId ∧ n.id = id

theorem exists_mem_elementsByContainer {id parentId : Uuid} :
    (∃ ids, (parentId, ids) ∈ input.elementsByContainer ∧ id ∈ ids) ↔ input.IsIn id parentId := by
  have hmem : ∀ parentId id, (parentId, id) ∈ (input.nodes.filterMap fun n =>
      n.containerId.map fun c => (c, n.id)) ↔ input.IsIn id parentId := by
    intro parentId id
    simp only [mem_filterMap, map_eq_some_iff, Prod.mk.injEq, IsIn]
    constructor
    · rintro ⟨n, hn, c, hc, rfl, rfl⟩
      exact ⟨n, hn, hc, rfl⟩
    · rintro ⟨n, hn, hc, rfl⟩
      exact ⟨n, hn, parentId, hc, rfl, rfl⟩
  constructor
  · rintro ⟨ids, hids, hid⟩
    exact (hmem parentId id).mp ((Groups.collect_spec hids).2 id hid)
  · exact fun h => Groups.exists_mem_collect ((hmem parentId id).mpr h)

theorem isIn_of_matchData {id : Uuid} {d : ElementMatchData} (h : input.matchData id = some d) :
    ∃ parentId, input.IsIn id parentId := by
  obtain ⟨n, hn, -⟩ := bind_eq_some_iff.mp h
  have hn' := find?_some hn
  simp only [and_eq_true, not_eq_true', decide_eq_true_eq] at hn'
  obtain ⟨hcont, rfl⟩ := hn'
  obtain ⟨id, nodeType, header⟩ := n
  cases nodeType with
  | container data => exact nomatch hcont
  | element data => exact ⟨data.containerId, _, mem_of_find?_eq_some hn, rfl, rfl⟩

end Elements

section Runs

def Makes (r : IdentifiedRule ElementRule) (g : Group) : Prop :=
  ∃ id d, input.IsIn id g.parentId ∧ input.matchData id = some d ∧ r.rule.key d = some g.key

variable {input} {st : RuleState} {r : IdentifiedRule ElementRule} {g : Group}

variable {claimed : List Uuid} {c : Node} {containerId id : Uuid}

theorem makes_of_mem_ruleGroups
    (h : g ∈ (input.context claimed r.id).ruleGroups r.rule) : input.Makes r g := by
  have hg := (mem_filter.mp h).1
  obtain ⟨id, hid⟩ := exists_mem_of_ne_nil _ (elementIds_ne_nil _ hg)
  have hhas := has_of_mem_group _ hg hid
  obtain ⟨d, hd, hkey⟩ := bind_eq_some_iff.mp hhas.hasKey
  exact ⟨id, d, input.exists_mem_elementsByContainer.mp hhas.isIn, hd, hkey⟩

theorem isIn_of_mem_ruleGroups
    (h : g ∈ (input.context claimed r.id).ruleGroups r.rule) (hid : id ∈ g.elementIds) :
    input.IsIn id g.parentId ∧ id ∉ claimed := by
  have hhas := has_of_mem_group _ (mem_filter.mp h).1 hid
  exact ⟨input.exists_mem_elementsByContainer.mp hhas.isIn, hhas.unclaimed⟩

theorem applyRule_newContainers : (input.applyRule st r).newContainers = st.newContainers ++
    ((input.context st.claimed r.id).ruleGroups r.rule).map
      ((input.context st.claimed r.id).ruleContainer r.rule) := by
  rw [applyRule, computePlacements_eq]

theorem applyRule_claimed : (input.applyRule st r).claimed = st.claimed ++
    ((input.context st.claimed r.id).ruleGroups r.rule).flatMap (·.elementIds) := by
  rw [applyRule, computePlacements_eq]

theorem mem_applyRule_reassignments
    (h : (id, containerId) ∈ (input.applyRule st r).reassignments) :
    (id, containerId) ∈ st.reassignments ∨
      ∃ g ∈ (input.context st.claimed r.id).ruleGroups r.rule, id ∈ g.elementIds ∧
        containerId = (input.context st.claimed r.id).groupId g := by
  obtain h | h := mem_append.mp h
  · exact .inl h
  · obtain ⟨⟨id', decision⟩, hmem, h⟩ := mem_filterMap.mp h
    dsimp only at h
    split at h
    · obtain ⟨rfl, rfl⟩ := Prod.mk.inj (some.inj h)
      have hget := Inserts.mem_of_get (Inserts.mem_entries.mp hmem)
      exact .inr (mem_placements_place _ hget)
    · exact nomatch h

theorem runRules_append (rules : List (IdentifiedRule ElementRule)) :
    input.runRules (rules ++ [r]) = input.applyRule (input.runRules rules) r := by
  rw [runRules, foldl_append]
  rfl

variable {rules : List (IdentifiedRule ElementRule)}

theorem exists_group_of_mem_newContainers
    (h : c ∈ (input.runRules rules).newContainers) :
    c.isContainer ∧ ∃ r ∈ rules, ∃ g, input.Makes r g ∧
      c.id = input.env.newV5 (g.idName r.id) ∧ c.parentId = some g.parentId := by
  induction rules using List.reverseRecOn with
  | nil => exact absurd h not_mem_nil
  | append_singleton rules r ih =>
    rw [runRules_append, applyRule_newContainers] at h
    obtain h | h := mem_append.mp h
    · obtain ⟨hcont, r', hr', hg⟩ := ih h
      exact ⟨hcont, r', mem_append_left _ hr', hg⟩
    · obtain ⟨g, hg, rfl⟩ := List.mem_map.mp h
      refine ⟨by simp, r, by simp, g, makes_of_mem_ruleGroups hg, ?_, by simp⟩
      rw [ruleContainer_id]
      rfl

theorem exists_container_of_mem_reassignments
    (h : (id, containerId) ∈ (input.runRules rules).reassignments) :
    ∃ c ∈ (input.runRules rules).newContainers, c.id = containerId ∧
      ∃ parentId, c.parentId = some parentId ∧ input.IsIn id parentId := by
  induction rules using List.reverseRecOn with
  | nil => exact absurd h not_mem_nil
  | append_singleton rules r ih =>
    rw [runRules_append] at h ⊢
    rw [applyRule_newContainers]
    obtain h | ⟨g, hg, hid, rfl⟩ := mem_applyRule_reassignments h
    · obtain ⟨c, hc, hc'⟩ := ih h
      exact ⟨c, mem_append_left _ hc, hc'⟩
    · refine ⟨_, mem_append_right _ (List.mem_map_of_mem hg), by simp, g.parentId, by simp, ?_⟩
      exact (isIn_of_mem_ruleGroups hg hid).1

theorem isHostBox_of_mem_newContainers
    (h : c ∈ (input.runRules rules).newContainers) : c.isHostBox = false := by
  induction rules using List.reverseRecOn with
  | nil => exact absurd h not_mem_nil
  | append_singleton rules r ih =>
    rw [runRules_append, applyRule_newContainers] at h
    obtain h | h := mem_append.mp h
    · exact ih h
    · obtain ⟨g, -, rfl⟩ := List.mem_map.mp h
      simp

theorem exists_container_of_mem_claimed (h : id ∈ (input.runRules rules).claimed) :
    ∃ c ∈ (input.runRules rules).newContainers, ∃ parentId, c.parentId = some parentId ∧
      input.IsIn id parentId := by
  induction rules using List.reverseRecOn with
  | nil => exact absurd h not_mem_nil
  | append_singleton rules r ih =>
    rw [runRules_append, applyRule_newContainers]
    rw [runRules_append, applyRule_claimed] at h
    obtain h | h := mem_append.mp h
    · obtain ⟨c, hc, hc'⟩ := ih h
      exact ⟨c, mem_append_left _ hc, hc'⟩
    · obtain ⟨g, hg, hid⟩ := mem_flatMap.mp h
      refine ⟨_, mem_append_right _ (List.mem_map_of_mem hg), g.parentId, by simp, ?_⟩
      exact (isIn_of_mem_ruleGroups hg hid).1

def GroupsKey (input : RuleInput) (k : GroupKey) : Prop :=
  ∀ serviceId inline, k = .virtualizer serviceId → input.inlineCtx = some inline →
    inline.runsOnMachine serviceId = false

theorem isGrouped_iff {ruleId : Uuid} :
    (input.context claimed ruleId).isGrouped g = true ↔ input.GroupsKey g.key := by
  unfold isGrouped
  split
  · rename_i serviceId inline hkey hinline
    have hinline : input.inlineCtx = some inline := hinline
    rw [not_eq_true']
    constructor
    · intro h serviceId' inline' hkey' hinline'
      rw [hkey] at hkey'
      rw [hinline] at hinline'
      rw [← GroupKey.virtualizer.inj hkey', ← some.inj hinline']
      exact h
    · exact fun h => h serviceId inline hkey hinline
  · rename_i hnot
    refine iff_of_true rfl fun serviceId inline hkey hinline => ?_
    exact absurd hinline (hnot serviceId inline hkey)

def Places (input : RuleInput) (r : IdentifiedRule ElementRule) (id : Uuid) (k : GroupKey) : Prop :=
  (input.matchData id).bind r.rule.key = some k ∧ input.GroupsKey k

theorem mem_claimed_of_places {k : GroupKey} (hr : r ∈ rules)
    (hplaces : input.Places r id k) : id ∈ (input.runRules rules).claimed := by
  induction rules using List.reverseRecOn with
  | nil => exact absurd hr not_mem_nil
  | append_singleton rules r' ih =>
    rw [runRules_append, applyRule_claimed]
    by_cases hclaimed : id ∈ (input.runRules rules).claimed
    · exact mem_append_left _ hclaimed
    obtain hr | hr := mem_append.mp hr
    · exact absurd (ih hr) hclaimed
    obtain rfl := mem_singleton.mp hr
    obtain ⟨d, hd, -⟩ := bind_eq_some_iff.mp hplaces.1
    obtain ⟨parentId, hin⟩ := input.isIn_of_matchData hd
    have hhas : (input.context (input.runRules rules).claimed r.id).Has r.rule.key parentId k id :=
      ⟨input.exists_mem_elementsByContainer.mpr hin, hclaimed, hplaces.1⟩
    obtain ⟨g, hg, -, rfl, hid⟩ := exists_group _ hhas
    refine mem_append_right _ (mem_flatMap.mpr ⟨g, mem_filter.mpr ⟨hg, ?_⟩, hid⟩)
    exact isGrouped_iff.mpr hplaces.2

def MadeNames (input : RuleInput) (rules : List (IdentifiedRule ElementRule)) : Set IdName :=
  {name | ∃ r ∈ rules, ∃ g, input.Makes r g ∧ name = g.idName r.id}

theorem nodup_newContainers (hrules : (rules.map (·.id)).Nodup)
    (hnames : Set.InjOn input.env.newV5 (input.MadeNames rules)) :
    ((input.runRules rules).newContainers.map (·.id)).Nodup := by
  induction rules using List.reverseRecOn with
  | nil => exact nodup_nil
  | append_singleton rules r ih =>
    rw [map_append, nodup_append] at hrules
    obtain ⟨hrules, -, hfresh⟩ := hrules
    have hsub : input.MadeNames rules ⊆ input.MadeNames (rules ++ [r]) := by
      rintro name ⟨r', hr', hg⟩
      exact ⟨r', mem_append_left _ hr', hg⟩
    have hlast : ∀ g, input.Makes r g → g.idName r.id ∈ input.MadeNames (rules ++ [r]) :=
      fun g hg => ⟨r, by simp, g, hg, rfl⟩
    rw [runRules_append, applyRule_newContainers, map_append, nodup_append]
    refine ⟨ih hrules (hnames.mono hsub), ?_, ?_⟩
    · -- the groups of one rule differ in their containers or keys
      rw [List.map_map]
      have hgroups := (input.context (input.runRules rules).claimed r.id).nodup_ruleGroups r.rule
        (Groups.nodup_keys_collect _)
      refine (List.Nodup.of_map _ hgroups).map_on fun g hg g' hg' heq => ?_
      simp only [Function.comp_apply, ruleContainer_id] at heq
      have hname := hnames (hlast g (makes_of_mem_ruleGroups hg))
        (hlast g' (makes_of_mem_ruleGroups hg')) heq
      obtain ⟨hparent, hkey, -⟩ := Group.idName_eq hname
      exact inj_on_of_nodup_map hgroups hg hg' (Prod.ext hparent hkey)
    · -- a name without the rule is that of a stack, whose elements are claimed by now
      intro id hid id' hid' heq
      obtain ⟨c, hc, rfl⟩ := List.mem_map.mp hid
      obtain ⟨_, hc', rfl⟩ := List.mem_map.mp hid'
      obtain ⟨g', hg', rfl⟩ := List.mem_map.mp hc'
      obtain ⟨-, r', hr', g, hg, hcid, -⟩ := exists_group_of_mem_newContainers hc
      rw [hcid, ruleContainer_id] at heq
      have hname := hnames (hsub ⟨r', hr', g, hg, rfl⟩) (hlast g' (makes_of_mem_ruleGroups hg')) heq
      obtain ⟨-, hkey, hruleId | ⟨project, hproject⟩⟩ := Group.idName_eq hname
      · exact hfresh r'.id (List.mem_map_of_mem hr') r.id (by simp) hruleId
      · obtain ⟨e, d, -, -, hed⟩ := hg
        rw [hproject] at hed
        obtain ⟨id, hid⟩ := exists_mem_of_ne_nil _
          (elementIds_ne_nil _ (mem_filter.mp hg').1)
        have hhas := has_of_mem_group _ (mem_filter.mp hg').1 hid
        obtain ⟨d', hd', hkey'⟩ := bind_eq_some_iff.mp hhas.hasKey
        rw [← hkey, hproject] at hkey'
        have hstack : r'.rule.key d' = some (.stack project) := by
          rw [(ElementRule.key_eq_stack hed).1, ElementRule.key, stackKey,
            (ElementRule.key_eq_stack hkey').2, map_some]
        refine hhas.unclaimed (mem_claimed_of_places (k := .stack project) hr' ⟨?_, ?_⟩)
        · exact bind_eq_some_iff.mpr ⟨d', hd', hstack⟩
        · exact fun _ _ hk => nomatch hk

theorem exists_rule_of_get {decision : PlacementDecision}
    (h : Inserts.get (input.runRules rules).allPlacements id = some decision) :
    ∃ r ∈ rules, ∃ claimed,
      (id, decision) ∈ ((input.context claimed r.id).computePlacements r.rule).placements := by
  have hmem := Inserts.mem_of_get h
  clear h
  induction rules using List.reverseRecOn with
  | nil => exact absurd hmem not_mem_nil
  | append_singleton rules r ih =>
    rw [runRules_append] at hmem
    obtain hmem | hmem := mem_append.mp hmem
    · obtain ⟨r', hr', hclaimed⟩ := ih hmem
      exact ⟨r', mem_append_left _ hr', hclaimed⟩
    · exact ⟨r, by simp, _, Inserts.mem_of_get (Inserts.mem_entries.mp hmem)⟩

theorem exists_inlines_of_get {nodeId : Uuid} {group : Option InlineGroup}
    (h : Inserts.get (input.runRules rules).allPlacements id = some (.inlineOn nodeId group)) :
    ∃ r ∈ rules, ∃ inline, input.inlineCtx = some inline ∧
      inline.Inlines r.rule id nodeId group := by
  obtain ⟨r, hr, claimed, hmem⟩ := exists_rule_of_get h
  obtain ⟨inline, hinline, hinlines⟩ := inlines_of_mem_placements _ hmem
  exact ⟨r, hr, inline, hinline, hinlines⟩

end Runs

end RuleInput

end Scanopy.Graph
