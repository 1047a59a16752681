import Scanopy.Graph.KeptBoxes

/-! Whether the first rule wins. A rule leaves alone what one before it has put into a subcontainer,
but it shows inline what it shows inline anyway, and what has been shown inline is not claimed. -/

namespace Scanopy.Graph

open List Option PlacementContext Inserts

/-- Where an element is. With which group it is shown inline is `RuleState.inlineGroup`. -/
inductive ElementPlacement
  | inlined (nodeId : Uuid)
  | inSubcontainer (containerId : Uuid)
  | inParent
  deriving DecidableEq

def RuleState.placement (st : RuleState) (id : Uuid) : ElementPlacement :=
  match Inserts.get st.allPlacements id, Inserts.get st.reassignments id with
  | some (.inlineOn nodeId _), _ => .inlined nodeId
  | _, some containerId => .inSubcontainer containerId
  | _, none => .inParent

def RuleState.inlineGroup (st : RuleState) (id : Uuid) : Option InlineGroup :=
  match Inserts.get st.allPlacements id with
  | some (.inlineOn _ group) => group
  | _ => none

/-- The group in which a runtime with its containers shows a service: the containers come last. -/
def InlineContext.groupIn (entry : Uuid × List Uuid) (id : Uuid) : Option InlineGroup :=
  if id ∈ entry.2 then some ⟨id, entry.1, .member⟩
  else if id = entry.1 then some ⟨id, id, .header⟩
  else none

namespace RuleInput

def withOrder (input : RuleInput) (order : HashOrder) : RuleInput :=
  { input with env := { input.env with order } }

def Inlines (input : RuleInput) (r : IdentifiedRule ElementRule) (id nodeId : Uuid) : Prop :=
  ∃ inline group, input.inlineCtx = some inline ∧ inline.Inlines r.rule id nodeId group

def Shows (input : RuleInput) (r : IdentifiedRule ElementRule) (id : Uuid) : Prop :=
  ∃ nodeId, input.Inlines r id nodeId

/-- Some runtime on a machine shows the service in the group. -/
def Joins (input : RuleInput) (id : Uuid) (group : InlineGroup) : Prop :=
  ∃ inline, input.inlineCtx = some inline ∧ ∃ entry ∈ inline.virtToContainerSvcs,
    inline.runsOnMachine entry.1 ∧ InlineContext.groupIn entry id = some group

inductive Decides (input : RuleInput) (r : IdentifiedRule ElementRule) (id : Uuid) :
    ElementPlacement → Prop
  | inline {nodeId : Uuid} (h : input.Inlines r id nodeId) : input.Decides r id (.inlined nodeId)
  | place {parentId : Uuid} {k : GroupKey} (hin : input.IsIn id parentId)
      (hplaces : input.Places r id k) (hshown : ¬input.Shows r id) :
      input.Decides r id
        (.inSubcontainer (input.env.newV5 ((⟨parentId, k, []⟩ : Group).idName r.id)))

inductive FirstDecides (input : RuleInput) (id : Uuid) :
    List (IdentifiedRule ElementRule) → ElementPlacement → Prop
  | untouched : input.FirstDecides id [] .inParent
  | acts {r : IdentifiedRule ElementRule} {rules : List (IdentifiedRule ElementRule)}
      {p : ElementPlacement} (h : input.Decides r id p) : input.FirstDecides id (r :: rules) p
  | skips {r : IdentifiedRule ElementRule} {rules : List (IdentifiedRule ElementRule)}
      {p : ElementPlacement} (hskips : ∀ p, ¬input.Decides r id p)
      (h : input.FirstDecides id rules p) : input.FirstDecides id (r :: rules) p

structure FirstRuleWins (input : RuleInput) (rules : List (IdentifiedRule ElementRule)) : Prop where
  /-- An element is where the first rule has put it, and no rule after it moves it. -/
  stays : ∀ order before after, rules = before ++ after → ∀ id parentId, input.IsIn id parentId →
    ∀ p, input.FirstDecides id before p → ((input.withOrder order).runRules before).placement id = p
  /-- Every new container has an element. -/
  filled : ∀ order, ∀ c ∈ ((input.withOrder order).runRules rules).newContainers,
    ∃ id parentId, input.IsIn id parentId ∧
      ((input.withOrder order).runRules rules).placement id = .inSubcontainer c.id
  /-- The order of the hash maps does not matter, but for the order of the new containers. -/
  sameResult : ∀ order order',
    (∀ id parentId, input.IsIn id parentId →
      ((input.withOrder order).runRules rules).placement id =
        ((input.withOrder order').runRules rules).placement id ∧
      ((input.withOrder order).runRules rules).inlineGroup id =
        ((input.withOrder order').runRules rules).inlineGroup id) ∧
    ((input.withOrder order).runRules rules).newContainers.Perm
      ((input.withOrder order').runRules rules).newContainers

structure Takes (input : RuleInput) (before : List (IdentifiedRule ElementRule))
    (r : IdentifiedRule ElementRule) (id parentId : Uuid) (k : GroupKey) : Prop where
  isIn : input.IsIn id parentId
  places : input.Places r id k
  first : ∀ q ∈ before, ∀ k', ¬input.Places q id k'

def Leads (input : RuleInput) (before : List (IdentifiedRule ElementRule))
    (r : IdentifiedRule ElementRule) (id parentId : Uuid) : Prop :=
  ∃ member, input.Takes before r member parentId (.virtualizer id)

structure Settled (input : RuleInput) (rules : List (IdentifiedRule ElementRule)) : Prop where
  /-- No rule shows an element inline on two nodes. -/
  oneNode : ∀ r ∈ rules, ∀ id parentId, input.IsIn id parentId →
    ∀ nodeId nodeId', input.Inlines r id nodeId → input.Inlines r id nodeId' → nodeId = nodeId'
  /-- What some rule shows inline is shown inline by the first rule that groups it. -/
  shown : ∀ before r after, rules = before ++ r :: after →
    ∀ id parentId k, input.Takes before r id parentId k → ∀ q ∈ rules, input.Shows q id →
      input.Shows r id
  /-- What is shown inline leads no subcontainer of a later rule that does not show it so. -/
  notLed : ∀ before r after, rules = before ++ r :: after →
    ∀ id parentId, input.IsIn id parentId → (∃ q ∈ before, input.Shows q id) →
      ∀ ledParentId, input.Leads before r id ledParentId → input.Shows r id
  /-- What a rule puts into a subcontainer leads no other subcontainer of it. -/
  notSplit : ∀ before r after, rules = before ++ r :: after →
    ∀ id parentId k, input.Takes before r id parentId k →
      ∀ ledParentId, input.Leads before r id ledParentId →
        (ledParentId = parentId ∧ k = .virtualizer id) ∨ input.Shows r id
  /-- A rule does not show inline all that it groups. -/
  kept : ∀ before r after, rules = before ++ r :: after →
    ∀ id parentId k, input.Takes before r id parentId k →
      ∃ id', input.Takes before r id' parentId k ∧ ¬input.Shows r id'
  /-- Where the rule of the runtimes is used, no element is shown in two groups. -/
  oneGroup : (∃ r ∈ rules, r.rule = .byContainerRuntime) → ∀ id parentId, input.IsIn id parentId →
    ∀ group group', input.Joins id group → input.Joins id group' → group = group'

end RuleInput

section OneRule
variable (ctx : PlacementContext) {groups : List Group} {id : Uuid}
variable {g : Group} {after before : List Group}

theorem PlacementContext.get_groups_eq_none
    (h : ∀ g ∈ groups, id ∉ g.elementIds ∧ g.key ≠ .virtualizer id) :
    Inserts.get (groups.flatMap ctx.groupPlacements) id = none := by
  refine get_eq_none.mpr fun decision hmem => ?_
  obtain ⟨g, hg, hmem⟩ := mem_flatMap.mp hmem
  obtain ⟨hkey, -⟩ | ⟨hid, -⟩ := ctx.mem_groupPlacements hmem
  · exact (h g hg).2 hkey
  · exact (h g hg).1 hid

theorem PlacementContext.get_groupPlacements (hid : id ∈ g.elementIds) :
    Inserts.get (ctx.groupPlacements g) id = some (.placeInContainer (ctx.groupId g)) := by
  have hplaced : get (g.elementIds.map fun id =>
      (id, PlacementDecision.placeInContainer (ctx.groupId g))) id =
        some (.placeInContainer (ctx.groupId g)) := by
    refine get_of_agree (List.mem_map.mpr ⟨id, hid, rfl⟩) fun decision hmem => ?_
    obtain ⟨_, -, heq⟩ := List.mem_map.mp hmem
    exact (Prod.mk.inj heq).2.symm
  rw [groupPlacements, get_append, hplaced, some_or]

theorem PlacementContext.get_groups_of_last
    (hid : id ∈ g.elementIds)
    (hafter : ∀ g' ∈ after, id ∉ g'.elementIds ∧ g'.key ≠ .virtualizer id) :
    Inserts.get ((before ++ g :: after).flatMap ctx.groupPlacements) id =
      some (.placeInContainer (ctx.groupId g)) := by
  rw [flatMap_append, flatMap_cons, get_append, get_append,
    ctx.get_groups_eq_none hafter, ctx.get_groupPlacements hid, none_or, some_or]

theorem PlacementContext.get_groups_of_led
    (hled : ∃ g ∈ after, g.key = .virtualizer id) (hafter : ∀ g' ∈ after, id ∉ g'.elementIds) :
    ∃ containerId, Inserts.get ((before ++ after).flatMap ctx.groupPlacements) id =
      some (.becomeSubcontainer containerId) := by
  rw [flatMap_append, get_append]
  obtain ⟨g, hg, hkey⟩ := hled
  have hlisted : (id, .becomeSubcontainer (ctx.groupId g)) ∈ after.flatMap ctx.groupPlacements := by
    refine mem_flatMap.mpr ⟨g, hg, ?_⟩
    rw [groupPlacements, hkey]
    exact mem_append_left _ (mem_singleton_self _)
  obtain ⟨decision, hget⟩ := isSome_iff_exists.mp (isSome_get.mpr ⟨_, hlisted⟩)
  obtain ⟨g', hg', hmem⟩ := mem_flatMap.mp (mem_of_get hget)
  obtain ⟨-, rfl⟩ | ⟨hid, -⟩ := ctx.mem_groupPlacements hmem
  · exact ⟨_, by rw [hget, some_or]⟩
  · exact absurd hid (hafter g' hg')

end OneRule

structure InlineContext.Keyed (inline : InlineContext) : Prop where
  hosts : (inline.hosts.map (·.id)).Nodup
  services : (inline.services.map (·.id)).Nodup
  runtimes : ∀ virtSvcId svcIds, (virtSvcId, svcIds) ∈ inline.virtToContainerSvcs → ∀ id ∈ svcIds,
    ∃ svc ∈ inline.services, svc.id = id ∧ svc.virtualizationServiceId = some virtSvcId

namespace RuleInput
variable {input : RuleInput} {rules : List (IdentifiedRule ElementRule)}
  {r : IdentifiedRule ElementRule} {id nodeId : Uuid}

structure Sound (input : RuleInput) (rules : List (IdentifiedRule ElementRule)) : Prop where
  nodes : (input.nodes.map (·.id)).Nodup
  inline : ∀ inline, input.inlineCtx = some inline → inline.Keyed
  host_ne_service : ∀ id d, input.matchData id = some d → d.elementEntity = .host →
    ∀ inline, input.inlineCtx = some inline → ∀ svc ∈ inline.services, svc.id ≠ id
  ruleIds : (rules.map (·.id)).Nodup
  names : Set.InjOn input.env.newV5 (input.MadeNames rules)

theorem Sound.withOrder (h : input.Sound rules) (order : HashOrder) :
    (input.withOrder order).Sound rules :=
  ⟨h.nodes, h.inline, h.host_ne_service, h.ruleIds, h.names⟩

theorem Sound.eq_of_isIn (h : input.Sound rules) {parentId parentId' : Uuid}
    (hin : input.IsIn id parentId) (hin' : input.IsIn id parentId') : parentId = parentId' := by
  obtain ⟨n, hn, hparent, rfl⟩ := hin
  obtain ⟨n', hn', hparent', hid⟩ := hin'
  obtain rfl := inj_on_of_nodup_map h.nodes hn' hn hid
  exact some.inj (hparent.symm.trans hparent')

theorem runsOnMachine_of_machine {inline : InlineContext} (h : inline.Keyed) {svc : Service}
    (hsvc : svc ∈ inline.services) {host : Host} (hhost : host ∈ inline.hosts)
    (hmachine : host.virtualizationServiceId.isSome) (hon : svc.hostId = host.id) :
    inline.runsOnMachine svc.id := by
  have hfind : inline.getService svc.id = some svc := Lookup.find?_key_of_nodup h.services hsvc
  have hfind' : inline.getHost svc.hostId = some host :=
    hon ▸ Lookup.find?_key_of_nodup h.hosts hhost
  rw [InlineContext.runsOnMachine, hfind, any_some, hfind', any_some]
  exact hmachine

theorem Sound.exists_mem_ruleInline (h : input.Sound rules) {claimed : List Uuid}
    (hinlines : input.Inlines r id nodeId) :
    ∃ decision, (id, decision) ∈ (input.context claimed r.id).ruleInline r.rule := by
  obtain ⟨inline, group, hinline, hinlines⟩ := hinlines
  have hkeyed := h.inline inline hinline
  have hinline' : (input.context claimed r.id).inlineCtx = some inline := hinline
  unfold ruleInline
  rw [hinline']
  generalize hrule : r.rule = rule at hinlines
  cases hinlines with
  | @machine svc host hsvc hhost hmachine hon hplain =>
    refine ⟨.inlineOn host.id none, mem_flatMap.mpr
      ⟨host, (HashOrder.mem_visit _).mpr hhost, ?_⟩⟩
    rw [if_neg (by simp [isSome_iff_ne_none.mp hmachine])]
    refine mem_filterMap.mpr ⟨svc, (HashOrder.mem_visit _).mpr hsvc, ?_⟩
    -- nothing that the rule has put anywhere is a service of a machine
    have hfree : ((input.context claimed r.id).ruleGroups .byHypervisor |>.flatMap
        (input.context claimed r.id).groupPlacements).any (fun p => p.1 = svc.id) = false := by
      rw [List.any_eq_false]
      rintro ⟨id, decision⟩ hmem hid
      obtain rfl : id = svc.id := by simpa using hid
      obtain ⟨g, hg, hmem⟩ := mem_flatMap.mp hmem
      obtain ⟨hg, hgrouped⟩ := mem_filter.mp hg
      obtain ⟨hkey, -⟩ | ⟨hid, -⟩ := mem_groupPlacements _ hmem
      · have hoff := isGrouped_iff.mp hgrouped svc.id inline hkey hinline
        rw [runsOnMachine_of_machine hkeyed hsvc hhost hmachine hon] at hoff
        cases hoff
      · obtain ⟨d, hd, hkey⟩ :=
          bind_eq_some_iff.mp (has_of_mem_group _ hg hid).hasKey
        rw [ElementRule.key, virtualizerKey] at hkey
        split at hkey
        · rename_i hentity
          exact h.host_ne_service svc.id d hd hentity inline hinline svc hsvc rfl
        · cases hkey
    rw [if_pos (by simp [hon, hplain, hfree])]
  | @header _ svcIds virtSvc hmem hvirtSvc hmachine =>
    refine ⟨.inlineOn virtSvc.hostId (some ⟨id, id, .header⟩),
      mem_flatMap.mpr ⟨(id, svcIds), (HashOrder.mem_visit _).mpr hmem, ?_⟩⟩
    simp only [hvirtSvc, hmachine, if_true]
    exact mem_cons_self
  | @member virtSvcId _ svcIds virtSvc hmem hvirtSvc hmachine hsvcId =>
    refine ⟨.inlineOn virtSvc.hostId (some ⟨id, virtSvcId, .member⟩),
      mem_flatMap.mpr ⟨(virtSvcId, svcIds), (HashOrder.mem_visit _).mpr hmem, ?_⟩⟩
    simp only [hvirtSvc, hmachine, if_true]
    exact mem_cons_of_mem _ (List.mem_map.mpr ⟨id, hsvcId, rfl⟩)

section Turn
variable {before : List (IdentifiedRule ElementRule)} {parentId : Uuid} {k : GroupKey} {g : Group}

def turn (input : RuleInput) (before : List (IdentifiedRule ElementRule))
    (r : IdentifiedRule ElementRule) : PlacementContext :=
  input.context (input.runRules before).claimed r.id

def decision (input : RuleInput) (before : List (IdentifiedRule ElementRule))
    (r : IdentifiedRule ElementRule) (id : Uuid) : Option PlacementDecision :=
  Inserts.get ((input.turn before r).computePlacements r.rule).placements id

theorem mem_claimed_iff :
    id ∈ (input.runRules before).claimed ↔ ∃ q ∈ before, ∃ k, input.Places q id k := by
  refine ⟨fun h => ?_, fun ⟨q, hq, k, hplaces⟩ => mem_claimed_of_places hq hplaces⟩
  induction before using List.reverseRecOn with
  | nil => exact absurd h not_mem_nil
  | append_singleton before q ih =>
    rw [runRules_append, applyRule_claimed] at h
    obtain h | h := mem_append.mp h
    · obtain ⟨q', hq', hplaces⟩ := ih h
      exact ⟨q', mem_append_left _ hq', hplaces⟩
    · obtain ⟨g, hg, hid⟩ := mem_flatMap.mp h
      obtain ⟨hg, hgrouped⟩ := mem_filter.mp hg
      have hhas := has_of_mem_group _ hg hid
      exact ⟨q, by simp, g.key, hhas.hasKey, isGrouped_iff.mp hgrouped⟩

theorem takes_of_mem_group (hg : g ∈ (input.turn before r).ruleGroups r.rule)
    (hid : id ∈ g.elementIds) : input.Takes before r id g.parentId g.key := by
  obtain ⟨hin, hclaimed⟩ := isIn_of_mem_ruleGroups hg hid
  obtain ⟨hg, hgrouped⟩ := mem_filter.mp hg
  have hhas := has_of_mem_group _ hg hid
  refine ⟨hin, ⟨hhas.hasKey, isGrouped_iff.mp hgrouped⟩, fun q hq k hplaces => ?_⟩
  exact hclaimed (mem_claimed_iff.mpr ⟨q, hq, k, hplaces⟩)

theorem Takes.exists_group (h : input.Takes before r id parentId k) :
    ∃ g ∈ (input.turn before r).ruleGroups r.rule,
      g.parentId = parentId ∧ g.key = k ∧ id ∈ g.elementIds := by
  have hclaimed : id ∉ (input.runRules before).claimed := by
    rw [mem_claimed_iff]
    rintro ⟨q, hq, k, hplaces⟩
    exact h.first q hq k hplaces
  have hhas : (input.turn before r).Has r.rule.key parentId k id :=
    ⟨input.exists_mem_elementsByContainer.mpr h.isIn, hclaimed, h.places.1⟩
  obtain ⟨g, hg, rfl, rfl, hid⟩ := PlacementContext.exists_group _ hhas
  exact ⟨g, mem_filter.mpr ⟨hg, isGrouped_iff.mpr h.places.2⟩, rfl, rfl, hid⟩

theorem leads_of_mem_group (hg : g ∈ (input.turn before r).ruleGroups r.rule)
    (hkey : g.key = .virtualizer id) : input.Leads before r id g.parentId := by
  obtain ⟨member, hmember⟩ := exists_mem_of_ne_nil _
    (elementIds_ne_nil _ (mem_filter.mp hg).1)
  exact ⟨member, hkey ▸ takes_of_mem_group hg hmember⟩

theorem Places.key_unique {k' : GroupKey} (h : input.Places r id k) (h' : input.Places r id k') :
    k = k' := some.inj (h.1.symm.trans h'.1)

theorem decision_eq : input.decision before r id =
    (Inserts.get ((input.turn before r).ruleInline r.rule) id).or
      (Inserts.get (((input.turn before r).ruleGroups r.rule).flatMap
        (input.turn before r).groupPlacements) id) := by
  rw [decision, computePlacements_eq]
  dsimp only
  rw [get_append]

theorem inlines_of_decision {group : Option InlineGroup}
    (h : input.decision before r id = some (.inlineOn nodeId group)) :
    ∃ inline, input.inlineCtx = some inline ∧ inline.Inlines r.rule id nodeId group :=
  (input.turn before r).inlines_of_mem_placements (mem_of_get h)

theorem Sound.decision_of_shows (h : input.Sound rules)
    (before : List (IdentifiedRule ElementRule)) (hshows : input.Shows r id) :
    ∃ nodeId group, input.decision before r id = some (.inlineOn nodeId group) ∧
      input.Inlines r id nodeId := by
  obtain ⟨nodeId, hinlines⟩ := hshows
  obtain ⟨_, hmem⟩ : ∃ decision, (id, decision) ∈ (input.turn before r).ruleInline r.rule :=
    h.exists_mem_ruleInline hinlines
  obtain ⟨decision, hget⟩ := isSome_iff_exists.mp (isSome_get.mpr ⟨_, hmem⟩)
  obtain ⟨inline, nodeId', group, hinline, rfl, hinlines'⟩ :=
    inlines_of_mem_ruleInline _ (mem_of_get hget)
  refine ⟨nodeId', group, ?_, inline, group, hinline, hinlines'⟩
  rw [decision_eq, hget, some_or]

theorem decision_of_not_shows (hshows : ¬input.Shows r id) : input.decision before r id =
    Inserts.get (((input.turn before r).ruleGroups r.rule).flatMap
      (input.turn before r).groupPlacements) id := by
  have hnone : get ((input.turn before r).ruleInline r.rule) id = none := by
    refine get_eq_none.mpr fun decision hmem => hshows ?_
    obtain ⟨inline, nodeId, group, hinline, -, hinlines⟩ :=
      inlines_of_mem_ruleInline _ hmem
    exact ⟨nodeId, inline, group, hinline, hinlines⟩
  rw [decision_eq, hnone, none_or]

theorem not_same_of_append {groups groups' : List Group}
    (heq : (input.turn before r).ruleGroups r.rule = groups ++ g :: groups') {g' : Group}
    (hg' : g' ∈ groups') : ¬(g'.parentId = g.parentId ∧ g'.key = g.key) := by
  rintro ⟨hparent, hkey⟩
  have hnodup := (input.turn before r).nodup_ruleGroups r.rule (Groups.nodup_keys_collect _)
  rw [heq, map_append, map_cons] at hnodup
  have hfresh := (nodup_cons.mp (nodup_append.mp hnodup).2.1).1
  exact hfresh (List.mem_map.mpr ⟨g', hg', Prod.ext hparent hkey⟩)

theorem Sound.decision_of_takes (h : input.Sound rules) (hshows : ¬input.Shows r id)
    (htakes : input.Takes before r id parentId k)
    (hled : ∀ ledParentId, input.Leads before r id ledParentId →
      ledParentId = parentId ∧ k = .virtualizer id) :
    input.decision before r id =
      some (.placeInContainer (input.env.newV5 ((⟨parentId, k, []⟩ : Group).idName r.id))) := by
  rw [decision_of_not_shows hshows]
  obtain ⟨g, hg, rfl, rfl, hid⟩ := htakes.exists_group
  obtain ⟨groups, groups', heq⟩ := append_of_mem hg
  have hlater : ∀ g' ∈ groups', g' ∈ (input.turn before r).ruleGroups r.rule := by
    intro g' hg'
    rw [heq]
    exact mem_append_right _ (mem_cons_of_mem _ hg')
  have hrest : ∀ g' ∈ groups', id ∉ g'.elementIds ∧ g'.key ≠ .virtualizer id := by
    intro g' hg'
    have hne := not_same_of_append heq hg'
    constructor
    · intro hid'
      have htakes' := takes_of_mem_group (hlater g' hg') hid'
      exact hne ⟨h.eq_of_isIn htakes'.isIn htakes.isIn, htakes'.places.key_unique htakes.places⟩
    · intro hkey
      obtain ⟨hparent, hkey'⟩ := hled _ (leads_of_mem_group (hlater g' hg') hkey)
      exact hne ⟨hparent, hkey.trans hkey'.symm⟩
  rw [heq, get_groups_of_last _ hid hrest]
  rfl

theorem decision_eq_none (hshows : ¬input.Shows r id)
    (htakes : ∀ parentId k, ¬input.Takes before r id parentId k)
    (hled : ∀ ledParentId, ¬input.Leads before r id ledParentId) :
    input.decision before r id = none := by
  rw [decision_of_not_shows hshows]
  refine (input.turn before r).get_groups_eq_none fun g hg => ⟨fun hid => ?_, fun hkey => ?_⟩
  · exact htakes _ _ (takes_of_mem_group hg hid)
  · exact hled _ (leads_of_mem_group hg hkey)

theorem decision_of_leads (hshows : ¬input.Shows r id)
    (htakes : ∀ parentId k, ¬input.Takes before r id parentId k) {ledParentId : Uuid}
    (hled : input.Leads before r id ledParentId) :
    ∃ containerId, input.decision before r id = some (.becomeSubcontainer containerId) := by
  rw [decision_of_not_shows hshows]
  obtain ⟨member, hmember⟩ := hled
  obtain ⟨g, hg, -, hkey, -⟩ := hmember.exists_group
  have hgroups : ∀ g' ∈ (input.turn before r).ruleGroups r.rule, id ∉ g'.elementIds :=
    fun g' hg' hid => htakes _ _ (takes_of_mem_group hg' hid)
  rw [← nil_append ((input.turn before r).ruleGroups r.rule)]
  exact get_groups_of_led _ ⟨g, hg, hkey⟩ hgroups

theorem exists_decision (hshows : ¬input.Shows r id)
    (hacts : (∃ parentId k, input.Takes before r id parentId k) ∨
      ∃ ledParentId, input.Leads before r id ledParentId) :
    ∃ decision, input.decision before r id = some decision ∧
      ∀ nodeId group, decision ≠ .inlineOn nodeId group := by
  rw [decision_of_not_shows hshows]
  have hlisted : ∃ decision, (id, decision) ∈ ((input.turn before r).ruleGroups r.rule).flatMap
      (input.turn before r).groupPlacements := by
    obtain ⟨parentId, k, htakes⟩ | ⟨ledParentId, member, hmember⟩ := hacts
    · obtain ⟨g, hg, -, -, hid⟩ := htakes.exists_group
      exact ⟨_, mem_flatMap.mpr ⟨g, hg, mem_append_right _ (List.mem_map.mpr ⟨id, hid, rfl⟩)⟩⟩
    · obtain ⟨g, hg, -, hkey, -⟩ := hmember.exists_group
      refine ⟨.becomeSubcontainer ((input.turn before r).groupId g),
        mem_flatMap.mpr ⟨g, hg, mem_append_left _ ?_⟩⟩
      rw [hkey]
      exact mem_singleton_self _
  obtain ⟨decision, hget⟩ := isSome_iff_exists.mp (isSome_get.mpr hlisted)
  refine ⟨decision, hget, fun nodeId group heq => ?_⟩
  obtain ⟨g, -, hmem⟩ := mem_flatMap.mp (mem_of_get hget)
  obtain ⟨-, hdecision⟩ | ⟨-, hdecision⟩ := mem_groupPlacements _ hmem
  · exact nomatch heq.symm.trans hdecision
  · exact nomatch heq.symm.trans hdecision

end Turn

section Orders
variable {before : List (IdentifiedRule ElementRule)} {order order' : HashOrder}

theorem mem_claimed_withOrder : id ∈ ((input.withOrder order).runRules before).claimed ↔
    id ∈ (input.runRules before).claimed := by
  rw [mem_claimed_iff, mem_claimed_iff]
  rfl

theorem keyed_withOrder (key : ElementMatchData → Option GroupKey) (elementIds : List Uuid) :
    ((input.withOrder order).turn before r).keyed key elementIds =
      (input.turn before r).keyed key elementIds := by
  have hfilter : (elementIds.filter fun id =>
      id ∉ ((input.withOrder order).runRules before).claimed) =
        elementIds.filter fun id => id ∉ (input.runRules before).claimed := by
    refine filter_congr fun id _ => ?_
    simp only [mem_claimed_withOrder]
  exact congrArg (List.filterMap fun id => ((input.matchData id).bind key).map (·, id)) hfilter

def groupsOf (order : HashOrder) (input : RuleInput) (before : List (IdentifiedRule ElementRule))
    (r : IdentifiedRule ElementRule) (entry : Uuid × List Uuid) : List Group :=
  (order.visit (.groups r.id entry.1)
    (Groups.collect ((input.turn before r).keyed r.rule.key entry.2))).map
      fun (key, members) => ⟨entry.1, key, members⟩

theorem ruleGroups_withOrder : ((input.withOrder order).turn before r).ruleGroups r.rule =
    ((order.visit (.parents r.id) input.elementsByContainer).flatMap
      (input.groupsOf order before r)).filter (input.turn before r).isGrouped := by
  have hgroups : ∀ entry : Uuid × List Uuid, (order.visit (.groups r.id entry.1) (Groups.collect
        (((input.withOrder order).turn before r).keyed r.rule.key entry.2))).map
          (fun (key, members) => (⟨entry.1, key, members⟩ : Group)) =
        input.groupsOf order before r entry := by
    intro entry
    rw [keyed_withOrder, groupsOf]
  exact congrArg (fun f : Uuid × List Uuid → List Group =>
    ((order.visit (.parents r.id) input.elementsByContainer).flatMap f).filter
      (input.turn before r).isGrouped) (funext hgroups)

theorem ruleGroups_perm : (((input.withOrder order).turn before r).ruleGroups r.rule).Perm
    (((input.withOrder order').turn before r).ruleGroups r.rule) := by
  rw [ruleGroups_withOrder, ruleGroups_withOrder]
  refine Perm.filter _ (Perm.flatMap ?_ fun entry _ => Perm.map _ ?_)
  · exact (order.visit_perm _ _).trans (order'.visit_perm _ _).symm
  · exact (order.visit_perm _ _).trans (order'.visit_perm _ _).symm

def reversed (order : HashOrder) : HashOrder where
  visit site l := (order.visit site l).reverse
  visit_perm site l := (List.reverse_perm _).trans (order.visit_perm site l)

theorem ruleGroups_reversed :
    ((input.withOrder (reversed order)).turn before r).ruleGroups r.rule =
      (((input.withOrder order).turn before r).ruleGroups r.rule).reverse := by
  rw [ruleGroups_withOrder, ruleGroups_withOrder, ← filter_reverse, reverse_flatMap]
  congr 2
  funext entry
  exact map_reverse

theorem newContainers_perm : ((input.withOrder order).runRules rules).newContainers.Perm
    ((input.withOrder order').runRules rules).newContainers := by
  induction rules using List.reverseRecOn with
  | nil => exact Perm.refl _
  | append_singleton before r ih =>
    rw [runRules_append, runRules_append, applyRule_newContainers, applyRule_newContainers]
    have hcontainer : ((input.withOrder order).turn before r).ruleContainer r.rule =
        ((input.withOrder order').turn before r).ruleContainer r.rule := by
      funext g
      cases r.rule <;> rfl
    have hperm := (@ruleGroups_perm input r before order order').map
      (((input.withOrder order).turn before r).ruleContainer r.rule)
    rw [hcontainer] at hperm
    exact ih.append (hcontainer ▸ hperm)

theorem Sound.decision_of_led_later (h : input.Sound rules) (hshows : ¬input.Shows r id)
    {groups groups' : List Group} {g g' : Group}
    (heq : (input.turn before r).ruleGroups r.rule = groups ++ g :: groups')
    (hid : id ∈ g.elementIds) (hg' : g' ∈ groups') (hkey : g'.key = .virtualizer id) :
    ∃ containerId, input.decision before r id = some (.becomeSubcontainer containerId) := by
  have hmem : ∀ g'' ∈ g :: groups', g'' ∈ (input.turn before r).ruleGroups r.rule := by
    intro g'' hg''
    rw [heq]
    exact mem_append_right _ hg''
  have htakes := takes_of_mem_group (hmem g mem_cons_self) hid
  have hrest : ∀ g'' ∈ groups', id ∉ g''.elementIds := by
    intro g'' hg'' hid'
    have htakes' := takes_of_mem_group (hmem g'' (mem_cons_of_mem _ hg'')) hid'
    exact not_same_of_append heq hg''
      ⟨h.eq_of_isIn htakes'.isIn htakes.isIn, htakes'.places.key_unique htakes.places⟩
  have heq' : (input.turn before r).ruleGroups r.rule = (groups ++ [g]) ++ groups' := by
    rw [heq, append_assoc, singleton_append]
  rw [decision_of_not_shows hshows, heq']
  exact get_groups_of_led _ ⟨g', hg', hkey⟩ hrest

theorem Sound.exists_order (h : input.Sound rules) (hshows : ¬input.Shows r id)
    {parentId ledParentId : Uuid} {k : GroupKey} (htakes : input.Takes before r id parentId k)
    (hled : input.Leads before r id ledParentId)
    (hother : ¬(ledParentId = parentId ∧ k = .virtualizer id)) :
    ∃ order containerId,
      (input.withOrder order).decision before r id = some (.becomeSubcontainer containerId) := by
  obtain ⟨g, hg, rfl, rfl, hid⟩ := htakes.exists_group
  obtain ⟨member, hmember⟩ := hled
  obtain ⟨g', hg', rfl, hkey, -⟩ := hmember.exists_group
  obtain ⟨groups, groups', heq⟩ := append_of_mem hg
  rw [heq] at hg'
  obtain hg' | hg' := mem_append.mp hg'
  · have hreversed : ((input.withOrder (reversed input.env.order)).turn before r).ruleGroups r.rule =
        groups'.reverse ++ g :: groups.reverse := by
      rw [ruleGroups_reversed]
      refine (congrArg List.reverse heq).trans ?_
      rw [reverse_append, reverse_cons, append_assoc, singleton_append]
    exact ⟨reversed input.env.order, (h.withOrder (reversed input.env.order)).decision_of_led_later
      hshows hreversed hid (mem_reverse.mpr hg') hkey⟩
  · obtain rfl | hg' := mem_cons.mp hg'
    · exact absurd ⟨rfl, hkey⟩ hother
    · exact ⟨input.env.order, h.decision_of_led_later hshows heq hid hg' hkey⟩

end Orders

section Step
variable {before : List (IdentifiedRule ElementRule)}
variable {group : Option InlineGroup} {decision : PlacementDecision} {containerId : Uuid}

theorem get_allPlacements_append : Inserts.get (input.runRules (before ++ [r])).allPlacements id =
    (input.decision before r id).or (Inserts.get (input.runRules before).allPlacements id) := by
  rw [runRules_append]
  refine get_append.trans ?_
  rw [get_entries]
  rfl

def containerOf : PlacementDecision → Option Uuid
  | .placeInContainer containerId => some containerId
  | _ => none

theorem get_reassignments_append : Inserts.get (input.runRules (before ++ [r])).reassignments id =
    ((input.decision before r id).bind containerOf).or
      (Inserts.get (input.runRules before).reassignments id) := by
  rw [runRules_append]
  refine get_append.trans ?_
  refine congrArg (Option.or · _) (get_filterMap_entries fun id decision => ?_)
  cases decision <;> rfl

theorem placement_of_inlineOn
    (h : input.decision before r id = some (.inlineOn nodeId group)) :
    (input.runRules (before ++ [r])).placement id = .inlined nodeId := by
  rw [RuleState.placement, get_allPlacements_append, h, some_or]

theorem placement_of_placeInContainer
    (h : input.decision before r id = some (.placeInContainer containerId)) :
    (input.runRules (before ++ [r])).placement id = .inSubcontainer containerId := by
  rw [RuleState.placement, get_allPlacements_append, get_reassignments_append, h, some_or,
    bind_some, containerOf, some_or]

theorem placement_of_none (h : input.decision before r id = none) :
    (input.runRules (before ++ [r])).placement id = (input.runRules before).placement id := by
  rw [RuleState.placement, get_allPlacements_append, get_reassignments_append, h, none_or,
    bind_none, none_or]
  rfl

theorem placement_of_becomeSubcontainer
    (h : input.decision before r id = some (.becomeSubcontainer containerId))
    (hbefore : ∀ nodeId, (input.runRules before).placement id ≠ .inlined nodeId) :
    (input.runRules (before ++ [r])).placement id = (input.runRules before).placement id := by
  have hcontainer : containerOf (.becomeSubcontainer containerId) = none := rfl
  rw [RuleState.placement, get_allPlacements_append, get_reassignments_append, h, some_or,
    bind_some, hcontainer, none_or]
  unfold RuleState.placement at hbefore ⊢
  cases hget : get (input.runRules before).reassignments id with
  | none =>
    split at hbefore
    · exact absurd rfl (hbefore _)
    · simp_all
    · rfl
  | some c =>
    split at hbefore
    · exact absurd rfl (hbefore _)
    · simp_all
    · simp_all

theorem placement_ne_inlined
    (h : input.decision before r id = some decision)
    (hdecision : ∀ nodeId group, decision ≠ .inlineOn nodeId group) :
    (input.runRules (before ++ [r])).placement id ≠ .inlined nodeId := by
  rw [RuleState.placement, get_allPlacements_append, h, some_or]
  split
  · rename_i hinline
    exact absurd (some.inj hinline) (hdecision _ _)
  · exact nofun
  · exact nofun

theorem inlineGroup_of_inlineOn
    (h : input.decision before r id = some (.inlineOn nodeId group)) :
    (input.runRules (before ++ [r])).inlineGroup id = group := by
  rw [RuleState.inlineGroup, get_allPlacements_append, h, some_or]

theorem inlineGroup_of_none (h : input.decision before r id = none) :
    (input.runRules (before ++ [r])).inlineGroup id = (input.runRules before).inlineGroup id := by
  rw [RuleState.inlineGroup, get_allPlacements_append, h, none_or]
  rfl

theorem inlineGroup_of_other
    (h : input.decision before r id = some decision)
    (hdecision : ∀ nodeId group, decision ≠ .inlineOn nodeId group) :
    (input.runRules (before ++ [r])).inlineGroup id = none := by
  rw [RuleState.inlineGroup, get_allPlacements_append, h, some_or]
  split
  · rename_i hinline
    exact absurd (some.inj hinline) (hdecision _ _)
  · rfl

end Step

end RuleInput

end Scanopy.Graph
