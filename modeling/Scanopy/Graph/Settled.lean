import Scanopy.Graph.FirstRule
import Scanopy.Graph.SubnetForest

/-! When the first rule wins: exactly where the rules are settled. An induction over the rules
carries where each element is. -/

namespace Scanopy.Graph.RuleInput
open List Option Inserts PlacementContext
variable {input : RuleInput} {rules before after : List (IdentifiedRule ElementRule)}
  {r : IdentifiedRule ElementRule} {id parentId : Uuid} {k : GroupKey} {p : ElementPlacement}

section First

def Acts (input : RuleInput) (r : IdentifiedRule ElementRule) (id : Uuid) : Prop :=
  ∃ p, input.Decides r id p

theorem acts_iff (hin : input.IsIn id parentId) :
    input.Acts r id ↔ input.Shows r id ∨ ∃ k, input.Places r id k := by
  constructor
  · rintro ⟨p, hdecides⟩
    cases hdecides with
    | inline hinlines => exact .inl ⟨_, hinlines⟩
    | place _ hplaces => exact .inr ⟨_, hplaces⟩
  · intro h
    by_cases hshows : input.Shows r id
    · obtain ⟨nodeId, hinlines⟩ := hshows
      exact ⟨_, .inline hinlines⟩
    · obtain ⟨k, hplaces⟩ := h.resolve_left hshows
      exact ⟨_, .place hin hplaces hshows⟩

theorem Shows.acts (h : input.Shows r id) : input.Acts r id := by
  obtain ⟨nodeId, hinlines⟩ := h
  exact ⟨_, .inline hinlines⟩

theorem takes_of_not_acts (hin : input.IsIn id parentId) (hplaces : input.Places r id k)
    (hbefore : ∀ q ∈ before, ¬input.Acts q id) : input.Takes before r id parentId k :=
  ⟨hin, hplaces, fun q hq k' hplaces' => hbefore q hq ((acts_iff hin).mpr (.inr ⟨k', hplaces'⟩))⟩

theorem exists_firstDecides : ∃ p, input.FirstDecides id rules p := by
  induction rules with
  | nil => exact ⟨_, .untouched⟩
  | cons r rules ih =>
    by_cases hacts : input.Acts r id
    · obtain ⟨p, hdecides⟩ := hacts
      exact ⟨p, .acts hdecides⟩
    · obtain ⟨p, hp⟩ := ih
      exact ⟨p, .skips (fun p hdecides => hacts ⟨p, hdecides⟩) hp⟩

theorem firstDecides_append_of_not_acts (hbefore : ∀ q ∈ before, ¬input.Acts q id) :
    input.FirstDecides id (before ++ after) p ↔ input.FirstDecides id after p := by
  induction before with
  | nil => exact Iff.rfl
  | cons q before ih =>
    rw [cons_append, ← ih fun q' hq' => hbefore q' (mem_cons_of_mem _ hq')]
    have hskips : ∀ p, ¬input.Decides q id p :=
      fun p hdecides => hbefore q mem_cons_self ⟨p, hdecides⟩
    constructor
    · intro h
      cases h with
      | acts hdecides => exact absurd hdecides (hskips _)
      | skips _ h => exact h
    · exact fun h => .skips hskips h

theorem firstDecides_append_of_acts (hbefore : ∃ q ∈ before, input.Acts q id) :
    input.FirstDecides id (before ++ after) p ↔ input.FirstDecides id before p := by
  induction before with
  | nil =>
    obtain ⟨q, hq, -⟩ := hbefore
    exact absurd hq not_mem_nil
  | cons q before ih =>
    rw [cons_append]
    by_cases hacts : input.Acts q id
    · constructor
      · intro h
        cases h with
        | acts hdecides => exact .acts hdecides
        | skips hskips _ => exact absurd hacts.choose_spec (hskips _)
      · intro h
        cases h with
        | acts hdecides => exact .acts hdecides
        | skips hskips _ => exact absurd hacts.choose_spec (hskips _)
    · have hrest : ∃ q ∈ before, input.Acts q id := by
        obtain ⟨q', hq', hacts'⟩ := hbefore
        obtain rfl | hq' := mem_cons.mp hq'
        · exact absurd hacts' hacts
        · exact ⟨q', hq', hacts'⟩
      constructor
      · intro h
        cases h with
        | acts hdecides => exact absurd ⟨_, hdecides⟩ hacts
        | skips hskips h => exact .skips hskips ((ih hrest).mp h)
      · intro h
        cases h with
        | acts hdecides => exact absurd ⟨_, hdecides⟩ hacts
        | skips hskips h => exact .skips hskips ((ih hrest).mpr h)

theorem exists_first (h : ∃ q ∈ rules, input.Acts q id) :
    ∃ before q after, rules = before ++ q :: after ∧ (∀ q' ∈ before, ¬input.Acts q' id) ∧
      input.Acts q id := by
  classical
  have hfind : (rules.find? fun q => input.Acts q id).isSome := by
    obtain ⟨q, hq, hacts⟩ := h
    exact find?_isSome.mpr ⟨q, hq, decide_eq_true hacts⟩
  obtain ⟨q, hq⟩ := isSome_iff_exists.mp hfind
  obtain ⟨hacts, before, after, heq, hbefore⟩ := find?_eq_some_iff_append.mp hq
  refine ⟨before, q, after, heq, fun q' hq' => ?_, of_decide_eq_true hacts⟩
  simpa using hbefore q' hq'

end First

section Nodes

variable {nodeId nodeId' : Uuid}

theorem inlines_of_kinds {inline : InlineContext} (hkeyed : inline.Keyed) {rule rule' : ElementRule}
    {group group' : Option InlineGroup}
    (h : inline.Inlines rule id nodeId group) (h' : inline.Inlines rule' id nodeId' group')
    (hrule : rule ≠ rule') : nodeId = nodeId' := by
  -- a service of a machine that runs in no container is no member of a group
  have hplain : ∀ {svc : Service} {virtSvcId : Uuid} {svcIds : List Uuid}, svc ∈ inline.services →
      svc.virtualizationServiceId = none → (virtSvcId, svcIds) ∈ inline.virtToContainerSvcs →
      svc.id ∉ svcIds := by
    intro svc virtSvcId svcIds hsvc hplain hmem hid
    obtain ⟨svc', hsvc', heq, hvirt⟩ := hkeyed.runtimes virtSvcId svcIds hmem svc.id hid
    obtain rfl := inj_on_of_nodup_map hkeyed.services hsvc' hsvc heq
    exact nomatch hplain.symm.trans hvirt
  have hheader : ∀ {svc virtSvc : Service}, svc ∈ inline.services →
      inline.getService svc.id = some virtSvc → virtSvc = svc := by
    intro svc virtSvc hsvc hvirtSvc
    obtain ⟨hmem, heq⟩ := Lookup.mem_of_find?_key hvirtSvc
    exact inj_on_of_nodup_map hkeyed.services hmem hsvc heq
  generalize hid : id = id' at h'
  cases h with
  | machine hsvc _ _ hon hnone =>
    cases h' with
    | machine => exact absurd rfl hrule
    | header _ hvirtSvc =>
      subst hid
      rw [hheader hsvc hvirtSvc, hon]
    | member hmem _ _ hmember =>
      subst hid
      exact absurd hmember (hplain hsvc hnone hmem)
  | header _ hvirtSvc =>
    cases h' with
    | machine hsvc' _ _ hon' =>
      subst hid
      rw [hheader hsvc' hvirtSvc, hon']
    | header => exact absurd rfl hrule
    | member => exact absurd rfl hrule
  | member hmem _ _ hmember =>
    cases h' with
    | machine hsvc' _ _ _ hnone' =>
      subst hid
      exact absurd hmember (hplain hsvc' hnone' hmem)
    | header => exact absurd rfl hrule
    | member => exact absurd rfl hrule

theorem Sound.inlines_agree (h : input.Sound rules) {q : IdentifiedRule ElementRule}
    (hq : input.Inlines q id nodeId) (hr : input.Inlines r id nodeId') :
    nodeId = nodeId' ∨ input.Inlines r id nodeId := by
  obtain ⟨inline, group, hinline, hq⟩ := hq
  obtain ⟨inline', group', hinline', hr⟩ := hr
  obtain rfl := some.inj (hinline.symm.trans hinline')
  by_cases hrule : q.rule = r.rule
  · exact .inr ⟨inline, group, hinline, hrule ▸ hq⟩
  · exact .inl (inlines_of_kinds (h.inline inline hinline) hq hr hrule)

end Nodes

section Sufficient

theorem Settled.shows_of_first (hs : input.Settled rules) (hin : input.IsIn id parentId)
    (heq : rules = before ++ r :: after) (hbefore : ∀ q ∈ before, ¬input.Acts q id)
    (hacts : input.Acts r id) (hshows : ∃ q ∈ rules, input.Shows q id) : input.Shows r id := by
  obtain ⟨q, hq, hshows⟩ := hshows
  obtain hr | ⟨k, hplaces⟩ := (acts_iff hin).mp hacts
  · exact hr
  · exact hs.shown before r after heq id parentId k (takes_of_not_acts hin hplaces hbefore) q hq hshows

theorem Settled.eq_inlined (h : input.Sound rules) (hs : input.Settled rules)
    (hin : input.IsIn id parentId) (heq : rules = before ++ after)
    (hacts : ∃ q ∈ before, input.Acts q id) (hp : input.FirstDecides id before p)
    {nodeId : Uuid} (hr : r ∈ rules) (hinlines : input.Inlines r id nodeId) :
    p = .inlined nodeId := by
  obtain ⟨first, q, rest, rfl, hfirst, hq⟩ := exists_first hacts
  have hsplit : rules = first ++ q :: (rest ++ after) := by
    rw [heq, append_assoc, cons_append]
  have hshows := hs.shows_of_first hin hsplit hfirst hq ⟨r, hr, nodeId, hinlines⟩
  rw [firstDecides_append_of_not_acts hfirst] at hp
  cases hp with
  | skips hskips => exact absurd hq.choose_spec (hskips _)
  | acts hdecides =>
    cases hdecides with
    | place _ _ hnot => exact absurd hshows hnot
    | @inline nodeId' hinlines' =>
      obtain rfl | hinlines' := h.inlines_agree hinlines' hinlines
      · rfl
      · rw [hs.oneNode r hr id parentId hin nodeId nodeId' hinlines hinlines']

theorem Settled.placement_of_first (h : input.Sound rules) (hs : input.Settled rules)
    (hin : input.IsIn id parentId) (heq : rules = before ++ r :: after)
    (hbefore : ∀ q ∈ before, ¬input.Acts q id)
    (hplaced : (input.runRules before).placement id = .inParent)
    (hp : input.FirstDecides id [r] p) : (input.runRules (before ++ [r])).placement id = p := by
  have hr : r ∈ rules := by simp [heq]
  cases hp with
  | acts hdecides =>
    cases hdecides with
    | @inline nodeId hinlines =>
      obtain ⟨nodeId', group, hdecision, hinlines'⟩ := h.decision_of_shows before ⟨nodeId, hinlines⟩
      rw [placement_of_inlineOn hdecision,
        hs.oneNode r hr id parentId hin nodeId' nodeId hinlines' hinlines]
    | @place parentId' k hin' hplaces hshows =>
      obtain rfl := h.eq_of_isIn hin hin'
      have htakes := takes_of_not_acts hin hplaces hbefore
      refine placement_of_placeInContainer (h.decision_of_takes hshows htakes fun led hled => ?_)
      exact (hs.notSplit before r after heq id _ k htakes led hled).resolve_right hshows
  | skips hskips hp =>
    cases hp
    have hacts : ¬input.Acts r id := fun hacts => hskips _ hacts.choose_spec
    have hshows : ¬input.Shows r id := fun hshows => hacts hshows.acts
    have htakes : ∀ parentId k, ¬input.Takes before r id parentId k := by
      intro parentId' k htakes
      exact hacts ((acts_iff hin).mpr (.inr ⟨k, htakes.places⟩))
    by_cases hled : ∃ led, input.Leads before r id led
    · obtain ⟨led, hled⟩ := hled
      obtain ⟨containerId, hdecision⟩ := decision_of_leads hshows htakes hled
      rw [placement_of_becomeSubcontainer hdecision (by simp [hplaced]), hplaced]
    · rw [placement_of_none (decision_eq_none hshows htakes (not_exists.mp hled)), hplaced]

theorem Settled.placement_of_later (h : input.Sound rules) (hs : input.Settled rules)
    (hin : input.IsIn id parentId) (heq : rules = before ++ r :: after)
    (hbefore : ∃ q ∈ before, input.Acts q id)
    (hplaced : (input.runRules before).placement id = p)
    (hp : input.FirstDecides id before p) : (input.runRules (before ++ [r])).placement id = p := by
  have hr : r ∈ rules := by simp [heq]
  by_cases hshows : input.Shows r id
  · obtain ⟨nodeId, group, hdecision, hinlines⟩ := h.decision_of_shows before hshows
    rw [placement_of_inlineOn hdecision, hs.eq_inlined h hin heq hbefore hp hr hinlines]
  have htakes : ∀ parentId k, ¬input.Takes before r id parentId k := by
    intro parentId' k htakes
    obtain ⟨q, hq, hacts⟩ := hbefore
    have hqmem : q ∈ rules := by
      rw [heq]
      exact mem_append_left _ hq
    obtain hqshows | ⟨k', hplaces⟩ := (acts_iff hin).mp hacts
    · exact hshows (hs.shown before r after heq id parentId' k htakes q hqmem hqshows)
    · exact htakes.first q hq k' hplaces
  by_cases hled : ∃ led, input.Leads before r id led
  · obtain ⟨led, hled⟩ := hled
    obtain ⟨containerId, hdecision⟩ := decision_of_leads hshows htakes hled
    rw [placement_of_becomeSubcontainer hdecision, hplaced]
    -- what is shown inline leads no subcontainer here
    intro nodeId hinlined
    obtain ⟨first, q, rest, rfl, hfirst, hq⟩ := exists_first hbefore
    rw [hplaced] at hinlined
    subst hinlined
    rw [firstDecides_append_of_not_acts hfirst] at hp
    cases hp with
    | skips hskips => exact absurd hq.choose_spec (hskips _)
    | acts hdecides =>
      cases hdecides with
      | inline hinlines =>
        exact hshows (hs.notLed _ r after heq id parentId hin ⟨q, by simp, _, hinlines⟩ led hled)
  · rw [placement_of_none (decision_eq_none hshows htakes (not_exists.mp hled)), hplaced]

theorem Settled.placement_eq (h : input.Sound rules) (hs : input.Settled rules)
    (hin : input.IsIn id parentId) (heq : rules = before ++ after)
    (hp : input.FirstDecides id before p) : (input.runRules before).placement id = p := by
  induction before using List.reverseRecOn generalizing after p with
  | nil =>
    cases hp
    rfl
  | append_singleton before r ih =>
    rw [append_assoc, singleton_append] at heq
    by_cases hbefore : ∃ q ∈ before, input.Acts q id
    · have hp' := (firstDecides_append_of_acts hbefore).mp hp
      exact hs.placement_of_later h hin heq hbefore (ih heq hp') hp'
    · have hnone : ∀ q ∈ before, ¬input.Acts q id := fun q hq hacts => hbefore ⟨q, hq, hacts⟩
      have huntouched : input.FirstDecides id before .inParent := by
        rw [← append_nil before]
        exact (firstDecides_append_of_not_acts hnone).mpr .untouched
      exact hs.placement_of_first h hin heq hnone (ih heq huntouched)
        ((firstDecides_append_of_not_acts hnone).mp hp)

end Sufficient

section Containers

theorem exists_takes_of_mem_newContainers {c : Node} (hc : c ∈ (input.runRules rules).newContainers) :
    ∃ before r after, rules = before ++ r :: after ∧ ∃ id parentId k,
      input.Takes before r id parentId k ∧
      c.id = input.env.newV5 ((⟨parentId, k, []⟩ : Group).idName r.id) := by
  induction rules using List.reverseRecOn with
  | nil => exact absurd hc not_mem_nil
  | append_singleton rules r ih =>
    rw [runRules_append, applyRule_newContainers] at hc
    obtain hc | hc := mem_append.mp hc
    · obtain ⟨before, r', after, rfl, htakes⟩ := ih hc
      exact ⟨before, r', after ++ [r], by simp, htakes⟩
    · obtain ⟨g, hg, rfl⟩ := List.mem_map.mp hc
      have hg : g ∈ (input.turn rules r).ruleGroups r.rule := hg
      obtain ⟨id, hid⟩ := exists_mem_of_ne_nil _
        (elementIds_ne_nil _ (mem_filter.mp hg).1)
      refine ⟨rules, r, [], rfl, id, g.parentId, g.key, takes_of_mem_group hg hid, ?_⟩
      rw [ruleContainer_id]
      rfl

theorem Takes.exists_container (h : input.Takes before r id parentId k)
    (heq : rules = before ++ r :: after) : ∃ c ∈ (input.runRules rules).newContainers,
      c.id = input.env.newV5 ((⟨parentId, k, []⟩ : Group).idName r.id) := by
  subst heq
  induction after using List.reverseRecOn with
  | nil =>
    obtain ⟨g, hg, rfl, rfl, -⟩ := h.exists_group
    rw [runRules_append, applyRule_newContainers]
    refine ⟨_, mem_append_right _ (List.mem_map_of_mem hg), ?_⟩
    rw [ruleContainer_id]
    rfl
  | append_singleton after r' ih =>
    obtain ⟨c, hc, hid⟩ := ih
    rw [← cons_append, ← append_assoc, runRules_append, applyRule_newContainers]
    exact ⟨c, mem_append_left _ hc, hid⟩

end Containers

section Orders
variable {order : HashOrder}

theorem takes_withOrder :
    (input.withOrder order).Takes before r id parentId k ↔ input.Takes before r id parentId k :=
  ⟨fun h => ⟨h.isIn, h.places, h.first⟩, fun h => ⟨h.isIn, h.places, h.first⟩⟩

theorem leads_withOrder :
    (input.withOrder order).Leads before r id parentId ↔ input.Leads before r id parentId :=
  exists_congr fun _ => takes_withOrder

theorem Decides.withOrder (h : input.Decides r id p) : (input.withOrder order).Decides r id p := by
  cases h with
  | inline hinlines => exact .inline hinlines
  | place hin hplaces hshows => exact .place hin hplaces hshows

theorem FirstDecides.withOrder (h : input.FirstDecides id rules p) :
    (input.withOrder order).FirstDecides id rules p := by
  induction h with
  | untouched => exact .untouched
  | acts hdecides => exact .acts hdecides.withOrder
  | skips hskips _ ih =>
    refine .skips (fun p hdecides => hskips p ?_) ih
    exact @Decides.withOrder (input.withOrder order) _ _ _ input.env.order hdecides

theorem Settled.withOrder (hs : input.Settled rules) : (input.withOrder order).Settled rules := by
  constructor
  · exact hs.oneNode
  · intro before r after heq id parentId k htakes
    exact hs.shown before r after heq id parentId k (takes_withOrder.mp htakes)
  · intro before r after heq id parentId hin hshows led hled
    exact hs.notLed before r after heq id parentId hin hshows led (leads_withOrder.mp hled)
  · intro before r after heq id parentId k htakes led hled
    exact hs.notSplit before r after heq id parentId k (takes_withOrder.mp htakes) led
      (leads_withOrder.mp hled)
  · intro before r after heq id parentId k htakes
    obtain ⟨id', htakes', hnot⟩ := hs.kept before r after heq id parentId k (takes_withOrder.mp htakes)
    exact ⟨id', takes_withOrder.mpr htakes', hnot⟩
  · exact hs.oneGroup

end Orders

section Groups
variable {order order' : HashOrder} {nodeId : Uuid} {group : InlineGroup}
variable {inline : InlineContext}

theorem get_runtime (virtSvcId hostId : Uuid) (svcIds : List Uuid) (id : Uuid) :
    Inserts.get ((virtSvcId, PlacementDecision.inlineOn hostId
        (some ⟨virtSvcId, virtSvcId, .header⟩)) ::
      svcIds.map fun svcId => (svcId, .inlineOn hostId (some ⟨svcId, virtSvcId, .member⟩))) id =
      (InlineContext.groupIn (virtSvcId, svcIds) id).map fun g => .inlineOn hostId (some g) := by
  rw [← singleton_append, get_append, InlineContext.groupIn]
  by_cases hid : id ∈ svcIds
  · have hlast : get (svcIds.map fun svcId => (svcId,
        PlacementDecision.inlineOn hostId (some ⟨svcId, virtSvcId, .member⟩))) id =
          some (.inlineOn hostId (some ⟨id, virtSvcId, .member⟩)) := by
      refine get_of_agree (List.mem_map.mpr ⟨id, hid, rfl⟩) fun decision hmem => ?_
      obtain ⟨svcId, -, heq⟩ := List.mem_map.mp hmem
      obtain ⟨rfl, rfl⟩ := Prod.mk.inj heq
      rfl
    rw [hlast, if_pos hid, some_or, map_some]
  · have hnone : get (svcIds.map fun svcId => (svcId,
        PlacementDecision.inlineOn hostId (some ⟨svcId, virtSvcId, .member⟩))) id = none := by
      refine get_eq_none.mpr fun decision hmem => hid ?_
      obtain ⟨svcId, hsvcId, heq⟩ := List.mem_map.mp hmem
      rw [← (Prod.mk.inj heq).1]
      exact hsvcId
    rw [hnone, if_neg hid, none_or]
    split_ifs with heq
    · subst heq
      exact get_of_agree (mem_singleton_self _) fun decision hmem =>
        (Prod.mk.inj (mem_singleton.mp hmem)).2
    · refine get_eq_none.mpr fun decision hmem => heq ?_
      exact (Prod.mk.inj (mem_singleton.mp hmem)).1

theorem ruleInline_byContainerRuntime (ctx : PlacementContext)
    (h : ctx.inlineCtx = some inline) :
    ctx.ruleInline .byContainerRuntime = ctx.inlineRuntimes inline := by
  unfold ruleInline
  rw [h]

theorem joins_of_get_inlineRuntimes (ctx : PlacementContext)
    (h : Inserts.get (ctx.inlineRuntimes inline) id = some (.inlineOn nodeId (some group))) :
    ∃ entry ∈ inline.virtToContainerSvcs, inline.runsOnMachine entry.1 ∧
      InlineContext.groupIn entry id = some group := by
  obtain ⟨⟨virtSvcId, svcIds⟩, hmem, hget⟩ := exists_get_of_get_flatMap h
  dsimp only at hget
  split at hget
  · exact absurd (mem_of_get hget) not_mem_nil
  · split at hget
    · rename_i hmachine
      rw [get_runtime] at hget
      obtain ⟨group', hgroup, heq⟩ := map_eq_some_iff.mp hget
      obtain rfl := some.inj (PlacementDecision.inlineOn.inj heq).2
      exact ⟨_, (HashOrder.mem_visit _).mp hmem, hmachine, hgroup⟩
    · exact absurd (mem_of_get hget) not_mem_nil

theorem get_inlineRuntimes_of_last (ctx : PlacementContext)
    {entry : Uuid × List Uuid} {entries : List (Uuid × List Uuid)}
    (hvisit : ctx.env.order.visit (.runtimes ctx.ruleId) inline.virtToContainerSvcs =
      entries ++ [entry]) (hmachine : inline.runsOnMachine entry.1)
    (hgroup : InlineContext.groupIn entry id = some group) :
    ∃ nodeId, Inserts.get (ctx.inlineRuntimes inline) id =
      some (.inlineOn nodeId (some group)) := by
  obtain ⟨virtSvc, hvirtSvc, -⟩ := (Option.any_eq_true _ _).mp hmachine
  refine ⟨virtSvc.hostId, ?_⟩
  rw [inlineRuntimes, hvisit, flatMap_append, get_append,
    flatMap_singleton]
  simp only [hvirtSvc, hmachine, if_true]
  rw [get_runtime, hgroup, map_some, some_or]

theorem Joins.shows (h : input.Joins id group) (hrule : r.rule = .byContainerRuntime) :
    input.Shows r id := by
  obtain ⟨inline, hinline, ⟨virtSvcId, svcIds⟩, hmem, hmachine, hgroup⟩ := h
  obtain ⟨virtSvc, hvirtSvc, -⟩ := (Option.any_eq_true _ _).mp hmachine
  unfold InlineContext.groupIn at hgroup
  have hinlines : ∃ nodeId group, inline.Inlines .byContainerRuntime id nodeId group := by
    split_ifs at hgroup with hid heq
    · exact ⟨_, _, .member hmem hvirtSvc hmachine hid⟩
    · rw [heq]
      exact ⟨_, _, .header hmem hvirtSvc hmachine⟩
  obtain ⟨nodeId, group', hinlines⟩ := hinlines
  exact ⟨nodeId, inline, group', hinline, hrule ▸ hinlines⟩

theorem isSome_iff_of_inlines {rule : ElementRule}
    {group : Option InlineGroup} (h : inline.Inlines rule id nodeId group) :
    group.isSome ↔ rule = .byContainerRuntime := by
  cases h with
  | machine => exact iff_of_false Bool.false_ne_true ElementRule.noConfusion
  | header => exact iff_of_true rfl rfl
  | member => exact iff_of_true rfl rfl

theorem joins_of_decision
    (h : input.decision before r id = some (.inlineOn nodeId (some group))) :
    r.rule = .byContainerRuntime ∧ input.Joins id group := by
  obtain ⟨inline, hinline, hinlines⟩ := inlines_of_decision h
  have hrule := (isSome_iff_of_inlines hinlines).mp rfl
  refine ⟨hrule, inline, hinline, ?_⟩
  have hruntimes : (input.turn before r).ruleInline r.rule =
      (input.turn before r).inlineRuntimes inline := by
    rw [hrule]
    exact ruleInline_byContainerRuntime _ hinline
  rw [decision_eq, hruntimes] at h
  cases hget : get ((input.turn before r).inlineRuntimes inline) id with
  | none =>
    rw [hget, none_or] at h
    obtain ⟨g, -, hmem⟩ := mem_flatMap.mp (mem_of_get h)
    obtain ⟨-, hdecision⟩ | ⟨-, hdecision⟩ := mem_groupPlacements _ hmem
    · exact PlacementDecision.noConfusion hdecision
    · exact PlacementDecision.noConfusion hdecision
  | some decision =>
    rw [hget, some_or] at h
    exact joins_of_get_inlineRuntimes _ (hget.trans h)

theorem joins_of_inlineGroup (h : (input.runRules rules).inlineGroup id = some group) :
    (∃ r ∈ rules, r.rule = .byContainerRuntime) ∧ input.Joins id group := by
  induction rules using List.reverseRecOn with
  | nil => exact absurd h.symm (some_ne_none group)
  | append_singleton before r ih =>
    have hearlier (hgroup : (input.runRules before).inlineGroup id = some group) :
        (∃ q ∈ before ++ [r], q.rule = .byContainerRuntime) ∧ input.Joins id group := by
      obtain ⟨⟨q, hq, hrule⟩, hjoins⟩ := ih hgroup
      exact ⟨⟨q, mem_append_left _ hq, hrule⟩, hjoins⟩
    cases hdecision : input.decision before r id with
    | none =>
      rw [inlineGroup_of_none hdecision] at h
      exact hearlier h
    | some decision =>
      by_cases hinline : ∃ nodeId group', decision = .inlineOn nodeId group'
      · obtain ⟨nodeId, group', rfl⟩ := hinline
        rw [inlineGroup_of_inlineOn hdecision] at h
        obtain ⟨hrule, hjoins⟩ := joins_of_decision (h ▸ hdecision)
        exact ⟨⟨r, by simp, hrule⟩, hjoins⟩
      · have hnone := inlineGroup_of_other hdecision fun nodeId group' heq =>
          hinline ⟨nodeId, group', heq⟩
        exact absurd (h.symm.trans hnone) (some_ne_none group)

theorem Sound.isSome_inlineGroup_of_shows (h : input.Sound rules) (hshows : input.Shows r id) :
    ((input.runRules (before ++ [r])).inlineGroup id).isSome ↔ r.rule = .byContainerRuntime := by
  obtain ⟨nodeId, group, hdecision, -⟩ := h.decision_of_shows before hshows
  obtain ⟨inline, -, hinlines⟩ := inlines_of_decision hdecision
  rw [inlineGroup_of_inlineOn hdecision]
  exact isSome_iff_of_inlines hinlines

/-- Whether an element is shown in a group is the same for every order. -/
theorem Sound.isSome_inlineGroup (h : input.Sound rules) :
    (((input.withOrder order).runRules before).inlineGroup id).isSome ↔
      (((input.withOrder order').runRules before).inlineGroup id).isSome := by
  induction before using List.reverseRecOn with
  | nil => exact Iff.rfl
  | append_singleton before r ih =>
    by_cases hshows : input.Shows r id
    · have hgroup (order : HashOrder) :
          (((input.withOrder order).runRules (before ++ [r])).inlineGroup id).isSome ↔
            r.rule = .byContainerRuntime :=
        (h.withOrder order).isSome_inlineGroup_of_shows hshows
      rw [hgroup order, hgroup order']
    by_cases hacts : (∃ parentId k, input.Takes before r id parentId k) ∨
        ∃ led, input.Leads before r id led
    · have hgroup (order : HashOrder) :
          ((input.withOrder order).runRules (before ++ [r])).inlineGroup id = none := by
        have hshows' : ¬(input.withOrder order).Shows r id := hshows
        have hacts' : (∃ parentId k, (input.withOrder order).Takes before r id parentId k) ∨
            ∃ led, (input.withOrder order).Leads before r id led := by
          simpa only [takes_withOrder, leads_withOrder] using hacts
        obtain ⟨decision, hdecision, hother⟩ := exists_decision hshows' hacts'
        exact inlineGroup_of_other hdecision hother
      rw [hgroup order, hgroup order']
    · obtain ⟨htakes, hled⟩ := not_or.mp hacts
      have hgroup (order : HashOrder) :
          ((input.withOrder order).runRules (before ++ [r])).inlineGroup id =
            ((input.withOrder order).runRules before).inlineGroup id := by
        have hshows' : ¬(input.withOrder order).Shows r id := hshows
        refine inlineGroup_of_none (decision_eq_none hshows' (fun parentId k htakes' => ?_)
          fun led hled' => ?_)
        · exact htakes ⟨parentId, k, takes_withOrder.mp htakes'⟩
        · exact hled ⟨led, leads_withOrder.mp hled'⟩
      rw [hgroup order, hgroup order']
      exact ih

theorem Settled.inlineGroup_eq (h : input.Sound rules) (hs : input.Settled rules)
    (hin : input.IsIn id parentId) (order order' : HashOrder) :
    ((input.withOrder order).runRules rules).inlineGroup id =
      ((input.withOrder order').runRules rules).inlineGroup id := by
  have hsome := @Sound.isSome_inlineGroup input rules rules id order order' h
  cases hgroup : ((input.withOrder order).runRules rules).inlineGroup id with
  | none =>
    rw [hgroup] at hsome
    exact (not_isSome_iff_eq_none.mp fun h' => Bool.false_ne_true (hsome.mpr h')).symm
  | some group =>
    rw [hgroup] at hsome
    obtain ⟨group', hgroup'⟩ := isSome_iff_exists.mp (hsome.mp rfl)
    obtain ⟨hruntime, hjoins⟩ := joins_of_inlineGroup hgroup
    rw [hgroup', hs.oneGroup hruntime id parentId hin group group' hjoins
      (joins_of_inlineGroup hgroup').2]

end Groups

section Wins

theorem Settled.exists_in_container (h : input.Sound rules) (hs : input.Settled rules) {c : Node}
    (hc : c ∈ (input.runRules rules).newContainers) : ∃ id parentId, input.IsIn id parentId ∧
      (input.runRules rules).placement id = .inSubcontainer c.id := by
  obtain ⟨before, r, after, heq, id, parentId, k, htakes, hid⟩ := exists_takes_of_mem_newContainers hc
  obtain ⟨id', htakes', hnot⟩ := hs.kept before r after heq id parentId k htakes
  refine ⟨id', parentId, htakes'.isIn, ?_⟩
  rw [hid]
  refine hs.placement_eq h htakes'.isIn (append_nil rules).symm ?_
  have hbefore : ∀ q ∈ before, ¬input.Acts q id' := by
    intro q hq hacts
    obtain hshows | ⟨k', hplaces⟩ := (acts_iff htakes'.isIn).mp hacts
    · have hq : q ∈ rules := by
        rw [heq]
        exact mem_append_left _ hq
      exact hnot (hs.shown before r after heq id' parentId k htakes' q hq hshows)
    · exact htakes'.first q hq k' hplaces
  rw [heq]
  exact (firstDecides_append_of_not_acts hbefore).mpr
    (.acts (.place htakes'.isIn htakes'.places hnot))

theorem Settled.firstRuleWins (h : input.Sound rules) (hs : input.Settled rules) :
    input.FirstRuleWins rules := by
  have hplacement : ∀ order before after, rules = before ++ after → ∀ id parentId,
      input.IsIn id parentId → ∀ p, input.FirstDecides id before p →
        ((input.withOrder order).runRules before).placement id = p := by
    intro order before after heq id parentId hin p hp
    exact hs.withOrder.placement_eq (h.withOrder order) hin heq hp.withOrder
  refine ⟨hplacement, ?_, fun order order' => ⟨?_, newContainers_perm⟩⟩
  · intro order c hc
    exact hs.withOrder.exists_in_container (h.withOrder order) hc
  · intro id parentId hin
    obtain ⟨p, hp⟩ := @exists_firstDecides input rules id
    refine ⟨?_, hs.inlineGroup_eq h hin order order'⟩
    rw [hplacement order rules [] (append_nil rules).symm id parentId hin p hp,
      hplacement order' rules [] (append_nil rules).symm id parentId hin p hp]

end Wins

section Owner

theorem exists_takes_of_firstDecides {containerId : Uuid}
    (hp : input.FirstDecides id rules (.inSubcontainer containerId)) :
    ∃ before r after parentId k, rules = before ++ r :: after ∧
      input.Takes before r id parentId k ∧ ¬input.Shows r id ∧
      containerId = input.env.newV5 ((⟨parentId, k, []⟩ : Group).idName r.id) := by
  by_cases hacts : ∃ q ∈ rules, input.Acts q id
  · obtain ⟨before, r, after, rfl, hbefore, hacts⟩ := exists_first hacts
    rw [firstDecides_append_of_not_acts hbefore] at hp
    cases hp with
    | skips hskips => exact absurd hacts.choose_spec (hskips _)
    | acts hdecides =>
      cases hdecides with
      | @place parentId k hin hplaces hshows =>
        exact ⟨before, r, after, parentId, k, rfl, takes_of_not_acts hin hplaces hbefore, hshows, rfl⟩
  · have hnone : ∀ q ∈ rules, ¬input.Acts q id := fun q hq hacts' => hacts ⟨q, hq, hacts'⟩
    rw [← append_nil rules, firstDecides_append_of_not_acts hnone] at hp
    cases hp

theorem Takes.mem_madeNames (h : input.Takes before r id parentId k) (hr : r ∈ rules) :
    (⟨parentId, k, []⟩ : Group).idName r.id ∈ input.MadeNames rules := by
  obtain ⟨d, hd, hkey⟩ := bind_eq_some_iff.mp h.places.1
  exact ⟨r, hr, ⟨parentId, k, []⟩, ⟨id, d, h.isIn, hd, hkey⟩, rfl⟩

theorem Sound.eq_of_containerId (h : input.Sound rules) {before' : List (IdentifiedRule ElementRule)}
    {r' : IdentifiedRule ElementRule} {id' parentId' : Uuid} {k' : GroupKey} (hr : r ∈ rules)
    (hr' : r' ∈ rules) (htakes : input.Takes before r id parentId k)
    (htakes' : input.Takes before' r' id' parentId' k')
    (hid : input.env.newV5 ((⟨parentId, k, []⟩ : Group).idName r.id) =
      input.env.newV5 ((⟨parentId', k', []⟩ : Group).idName r'.id)) :
    parentId = parentId' ∧ k = k' ∧ r.rule = r'.rule := by
  have hname := h.names (htakes.mem_madeNames hr) (htakes'.mem_madeNames hr') hid
  obtain ⟨hparent, hkey, hsame⟩ := Group.idName_eq hname
  refine ⟨hparent, hkey, ?_⟩
  obtain hruleId | ⟨project, hproject⟩ := hsame
  · rw [inj_on_of_nodup_map h.ruleIds hr hr' hruleId]
  · -- only one kind of rule makes stacks
    have hproject : k = .stack project := hproject
    have hkey : k = k' := hkey
    obtain ⟨d, -, hd⟩ := bind_eq_some_iff.mp htakes.places.1
    obtain ⟨d', -, hd'⟩ := bind_eq_some_iff.mp htakes'.places.1
    rw [hproject] at hd
    rw [← hkey, hproject] at hd'
    exact (ElementRule.key_eq_stack hd).1.trans (ElementRule.key_eq_stack hd').1.symm

end Owner

theorem settled_of_not_leads (hshows : ∀ r ∈ rules, ∀ id, ¬input.Shows r id)
    (hleads : ∀ r ∈ rules, ∀ id serviceId, ¬input.Places r id (.virtualizer serviceId)) :
    input.Settled rules := by
  have hmem : ∀ {before r after}, rules = before ++ r :: after → r ∈ rules := by
    rintro before r after rfl
    exact mem_append_right _ mem_cons_self
  have hled : ∀ {before r after id parentId}, rules = before ++ r :: after →
      ¬input.Leads before r id parentId := by
    rintro before r after id parentId heq ⟨member, htakes⟩
    exact hleads r (hmem heq) member id htakes.places
  constructor
  · intro r hr id _ _ nodeId _ hinlines
    exact absurd ⟨nodeId, hinlines⟩ (hshows r hr id)
  · intro _ _ _ _ id _ _ _ q hq hqshows
    exact absurd hqshows (hshows q hq id)
  · intro _ _ _ heq _ _ _ _ _ hled'
    exact absurd hled' (hled heq)
  · intro _ _ _ heq _ _ _ _ _ hled'
    exact absurd hled' (hled heq)
  · intro _ r _ heq id _ _ htakes
    exact ⟨id, htakes, hshows r (hmem heq) id⟩
  · rintro ⟨r, hr, hrule⟩ id _ _ group group' hjoins _
    exact absurd (hjoins.shows hrule) (hshows r hr id)

section Rotations

/-- The order that starts after the first `n`. -/
def rotation (n : ℕ) : HashOrder := ⟨fun _ l => l.rotate n, fun _ l => l.rotate_perm n⟩

theorem exists_visit_last {A : Type} {l : List A} {a : A} (h : a ∈ l) :
    ∃ order : HashOrder, ∃ rest, ∀ site, order.visit site l = rest ++ [a] := by
  obtain ⟨before, after, rfl⟩ := append_of_mem h
  refine ⟨rotation (before ++ [a]).length, after ++ before, fun site => ?_⟩
  have hsplit : before ++ a :: after = (before ++ [a]) ++ after := by
    rw [append_assoc, singleton_append]
  show (before ++ a :: after).rotate (before ++ [a]).length = after ++ before ++ [a]
  rw [hsplit, rotate_append_length_eq, append_assoc]

theorem Joins.exists_order {group : InlineGroup} (h : input.Joins id group) :
    ∃ order, ∀ before r, r.rule = .byContainerRuntime → ∃ nodeId,
      (input.withOrder order).decision before r id = some (.inlineOn nodeId (some group)) := by
  obtain ⟨inline, hinline, entry, hmem, hmachine, hgroup⟩ := h
  obtain ⟨order, rest, hvisit⟩ := exists_visit_last hmem
  refine ⟨order, fun before r hrule => ?_⟩
  obtain ⟨nodeId, hget⟩ := get_inlineRuntimes_of_last ((input.withOrder order).turn before r)
    (hvisit _) hmachine hgroup
  refine ⟨nodeId, ?_⟩
  rw [decision_eq, hrule, ruleInline_byContainerRuntime _ hinline, hget, some_or]

/-- Of two groups one is that of a container, which no rule but that of the runtimes shows. -/
theorem Sound.rule_of_joins (h : input.Sound rules) {group group' : InlineGroup}
    (hjoins : input.Joins id group) (hjoins' : input.Joins id group') (hne : group ≠ group')
    (hshows : input.Shows r id) : r.rule = .byContainerRuntime := by
  obtain ⟨inline, hinline, ⟨virtSvcId, svcIds⟩, hmem, -, hgroup⟩ := hjoins
  obtain ⟨inline₁, hinline₁, ⟨virtSvcId', svcIds'⟩, hmem', -, hgroup'⟩ := hjoins'
  obtain rfl := some.inj (hinline.symm.trans hinline₁)
  obtain ⟨nodeId, inline₂, _, hinline₂, hinlines⟩ := hshows
  obtain rfl := some.inj (hinline.symm.trans hinline₂)
  have hkeyed := h.inline inline hinline
  have hcontainer : ∃ virtSvcId svcIds, (virtSvcId, svcIds) ∈ inline.virtToContainerSvcs ∧
      id ∈ svcIds := by
    unfold InlineContext.groupIn at hgroup hgroup'
    by_cases hid : id ∈ svcIds
    · exact ⟨_, _, hmem, hid⟩
    by_cases hid' : id ∈ svcIds'
    · exact ⟨_, _, hmem', hid'⟩
    · rw [if_neg hid] at hgroup
      rw [if_neg hid'] at hgroup'
      split_ifs at hgroup hgroup'
      exact absurd ((some.inj hgroup).symm.trans (some.inj hgroup')) hne
  obtain ⟨virtSvcId, svcIds, hmem, hid⟩ := hcontainer
  obtain ⟨svc, hsvc, hsvcId, hvirt⟩ := hkeyed.runtimes virtSvcId svcIds hmem id hid
  generalize hrule : r.rule = rule at hinlines
  cases hinlines with
  | machine hsvc' _ _ _ hplain =>
    obtain rfl := inj_on_of_nodup_map hkeyed.services hsvc hsvc' hsvcId
    exact absurd (hvirt.symm.trans hplain) (some_ne_none virtSvcId)
  | header => rfl
  | member => rfl

end Rotations

section Necessary
variable (h : input.Sound rules) (hwins : input.FirstRuleWins rules)
variable {q : IdentifiedRule ElementRule} {group : InlineGroup} {ledParentId : Uuid}
include hwins

theorem FirstRuleWins.placement_eq (hin : input.IsIn id parentId) (heq : rules = before ++ after)
    (hp : input.FirstDecides id before p) : (input.runRules before).placement id = p :=
  hwins.stays input.env.order before after heq id parentId hin p hp

include h

/-- What some rule shows inline is shown inline by the first rule that groups it: else the rule that
shows it inline moves it, or is undone. -/
theorem FirstRuleWins.shown (heq : rules = before ++ r :: after)
    (htakes : input.Takes before r id parentId k) (hq : q ∈ rules)
    (hqshows : input.Shows q id) : input.Shows r id := by
  by_contra hnot
  have hin := htakes.isIn
  have heq' : rules = (before ++ [r]) ++ after := by rw [heq, append_assoc, singleton_append]
  by_cases hbefore : ∃ q ∈ before, input.Acts q id
  · -- the first rule that acts shows the element inline, and this one takes it away
    obtain ⟨first, q', rest, rfl, hfirst, hacts⟩ := exists_first hbefore
    obtain ⟨nodeId, hinlines⟩ | ⟨k', hplaces⟩ := (acts_iff hin).mp hacts
    · have hp : input.FirstDecides id ((first ++ q' :: rest) ++ [r]) (.inlined nodeId) := by
        rw [firstDecides_append_of_acts hbefore, firstDecides_append_of_not_acts hfirst]
        exact .acts (.inline hinlines)
      obtain ⟨decision, hdecision, hother⟩ := exists_decision hnot (.inl ⟨parentId, k, htakes⟩)
      exact placement_ne_inlined hdecision hother (hwins.placement_eq hin heq' hp)
    · exact htakes.first q' (by simp) k' hplaces
  · -- this rule acts first, and the one that shows the element inline moves it
    have hnone : ∀ q ∈ before, ¬input.Acts q id := fun q hq hacts => hbefore ⟨q, hq, hacts⟩
    have hp : ∀ later, input.FirstDecides id (before ++ r :: later) (.inSubcontainer
        (input.env.newV5 ((⟨parentId, k, []⟩ : Group).idName r.id))) := by
      intro later
      exact (firstDecides_append_of_not_acts hnone).mpr (.acts (.place hin htakes.places hnot))
    obtain hq | hq := mem_append.mp (heq ▸ hq)
    · exact hnone q hq hqshows.acts
    · obtain rfl | hq := mem_cons.mp hq
      · exact hnot hqshows
      · obtain ⟨middle, last, rfl⟩ := append_of_mem hq
        have hsplit : rules = ((before ++ r :: middle) ++ [q]) ++ last := by simp [heq]
        have hfirst : input.FirstDecides id ((before ++ r :: middle) ++ [q]) (.inSubcontainer
            (input.env.newV5 ((⟨parentId, k, []⟩ : Group).idName r.id))) := by
          rw [append_assoc, cons_append]
          exact hp _
        obtain ⟨nodeId, group, hdecision, -⟩ := h.decision_of_shows (before ++ r :: middle) hqshows
        have hplaced := hwins.placement_eq hin hsplit hfirst
        rw [placement_of_inlineOn hdecision] at hplaced
        exact nomatch hplaced

theorem FirstRuleWins.exists_first_shows (hin : input.IsIn id parentId)
    (heq : rules = before ++ after) (hq : q ∈ before)
    (hshows : input.Shows q id) : ∃ first q' rest, before = first ++ q' :: rest ∧
      (∀ q'' ∈ first, ¬input.Acts q'' id) ∧ input.Shows q' id := by
  obtain ⟨first, q', rest, rfl, hfirst, hacts⟩ := exists_first ⟨q, hq, hshows.acts⟩
  refine ⟨first, q', rest, rfl, hfirst, ?_⟩
  obtain hshows' | ⟨k, hplaces⟩ := (acts_iff hin).mp hacts
  · exact hshows'
  · have hsplit : rules = first ++ q' :: (rest ++ after) := by
      rw [heq, append_assoc, cons_append]
    have hmem : q ∈ rules := by
      rw [heq]
      exact mem_append_left _ hq
    exact hwins.shown h hsplit (takes_of_not_acts hin hplaces hfirst) hmem hshows

theorem FirstRuleWins.oneNode (hr : r ∈ rules) (hin : input.IsIn id parentId) {nodeId nodeId' : Uuid}
    (hinlines : input.Inlines r id nodeId) (hinlines' : input.Inlines r id nodeId') :
    nodeId = nodeId' := by
  have hshows : input.Shows r id := ⟨nodeId, hinlines⟩
  obtain ⟨first, q, rest, heq, hfirst, hq⟩ :=
    hwins.exists_first_shows h hin (append_nil rules).symm hr hshows
  -- the first rule shows it on the one node and on the other
  have hplaced : ∀ {nodeId}, input.Inlines q id nodeId →
      (input.runRules rules).placement id = .inlined nodeId := by
    intro nodeId hinlines
    refine hwins.placement_eq hin (append_nil rules).symm ?_
    rw [heq]
    exact (firstDecides_append_of_not_acts hfirst).mpr (.acts (.inline hinlines))
  have hsame : ∀ {nodeId nodeId'}, input.Inlines q id nodeId → input.Inlines q id nodeId' →
      nodeId = nodeId' := by
    intro nodeId nodeId' h h'
    exact ElementPlacement.inlined.inj ((hplaced h).symm.trans (hplaced h'))
  obtain ⟨nodeId₀, hinlines₀⟩ := hq
  obtain heq | hqinlines := h.inlines_agree hinlines hinlines₀
  · obtain heq' | hqinlines' := h.inlines_agree hinlines' hinlines₀
    · exact heq.trans heq'.symm
    · exact heq.trans (hsame hinlines₀ hqinlines')
  · obtain heq' | hqinlines' := h.inlines_agree hinlines' hinlines₀
    · exact (hsame hqinlines hinlines₀).trans heq'.symm
    · exact hsame hqinlines hqinlines'

theorem FirstRuleWins.exists_firstDecides_inlined (hin : input.IsIn id parentId)
    (heq : rules = before ++ after) (hshows : ∃ q ∈ before, input.Shows q id) :
    ∃ nodeId, input.FirstDecides id before (.inlined nodeId) := by
  obtain ⟨q, hq, hqshows⟩ := hshows
  obtain ⟨first, q', rest, rfl, hfirst, nodeId, hinlines⟩ :=
    hwins.exists_first_shows h hin heq hq hqshows
  exact ⟨nodeId, (firstDecides_append_of_not_acts hfirst).mpr (.acts (.inline hinlines))⟩

theorem FirstRuleWins.notLed (heq : rules = before ++ r :: after) (hin : input.IsIn id parentId)
    (hshows : ∃ q ∈ before, input.Shows q id)
    (hled : input.Leads before r id ledParentId) : input.Shows r id := by
  by_contra hnot
  obtain ⟨q, hq, hqshows⟩ := hshows
  have heq' : rules = (before ++ [r]) ++ after := by rw [heq, append_assoc, singleton_append]
  obtain ⟨nodeId, hp⟩ :=
    hwins.exists_firstDecides_inlined h hin heq' ⟨q, mem_append_left _ hq, hqshows⟩
  obtain ⟨decision, hdecision, hother⟩ := exists_decision hnot (.inr ⟨ledParentId, hled⟩)
  exact placement_ne_inlined hdecision hother (hwins.placement_eq hin heq' hp)

theorem FirstRuleWins.notSplit (heq : rules = before ++ r :: after)
    (htakes : input.Takes before r id parentId k)
    (hled : input.Leads before r id ledParentId) :
    (ledParentId = parentId ∧ k = .virtualizer id) ∨ input.Shows r id := by
  by_contra hnot
  obtain ⟨hother, hnot⟩ := not_or.mp hnot
  have hin := htakes.isIn
  have hnone : ∀ q ∈ before, ¬input.Acts q id := by
    intro q hq hacts
    obtain hshows | ⟨k', hplaces⟩ := (acts_iff hin).mp hacts
    · have hq : q ∈ rules := by
        rw [heq]
        exact mem_append_left _ hq
      exact hnot (hwins.shown h heq htakes hq hshows)
    · exact htakes.first q hq k' hplaces
  obtain ⟨order, containerId, hdecision⟩ := h.exists_order hnot htakes hled hother
  have hplaced := hwins.stays order before (r :: after) heq id parentId hin .inParent (by
    rw [← append_nil before]
    exact (firstDecides_append_of_not_acts hnone).mpr .untouched)
  have heq' : rules = (before ++ [r]) ++ after := by rw [heq, append_assoc, singleton_append]
  have hmoved := hwins.stays order (before ++ [r]) after heq' id parentId hin _
    ((firstDecides_append_of_not_acts hnone).mpr (.acts (.place hin htakes.places hnot)))
  rw [placement_of_becomeSubcontainer hdecision (by simp [hplaced]), hplaced] at hmoved
  exact nomatch hmoved

theorem FirstRuleWins.kept (heq : rules = before ++ r :: after)
    (htakes : input.Takes before r id parentId k) :
    ∃ id', input.Takes before r id' parentId k ∧ ¬input.Shows r id' := by
  obtain ⟨c, hc, hcid⟩ := htakes.exists_container heq
  obtain ⟨id', parentId', hin, hplaced⟩ := hwins.filled input.env.order c hc
  have hplaced : (input.runRules rules).placement id' = .inSubcontainer c.id := hplaced
  obtain ⟨p, hp⟩ := @exists_firstDecides input rules id'
  obtain rfl : p = .inSubcontainer c.id :=
    (hwins.placement_eq hin (append_nil rules).symm hp).symm.trans hplaced
  obtain ⟨first, q, rest, parentId', k', heq', htakes', hnot, hid⟩ := exists_takes_of_firstDecides hp
  obtain ⟨rfl, rfl, hrule⟩ := h.eq_of_containerId (by simp [heq]) (by simp [heq']) htakes htakes'
    (hcid.symm.trans hid)
  have hplaces : input.Places r id' k := ⟨hrule ▸ htakes'.places.1, htakes'.places.2⟩
  have hplaces' : input.Places q id k := ⟨hrule ▸ htakes.places.1, htakes.places.2⟩
  have hshows : ¬input.Shows r id' := by
    rintro ⟨nodeId, inline, group, hinline, hinlines⟩
    exact hnot ⟨nodeId, inline, group, hinline, hrule ▸ hinlines⟩
  -- neither of the two rules comes before the other
  rw [heq] at heq'
  obtain ⟨middle, hfirst, hrest⟩ | ⟨middle, hbefore, hrest⟩ := append_eq_append_iff.mp heq'
  · cases middle with
    | nil =>
      rw [append_nil] at hfirst
      exact ⟨id', ⟨htakes'.isIn, hplaces, hfirst ▸ htakes'.first⟩, hshows⟩
    | cons r' middle =>
      obtain ⟨rfl, -⟩ := cons.inj hrest
      exact absurd hplaces (htakes'.first r (by simp [hfirst]) k)
  · cases middle with
    | nil =>
      rw [append_nil] at hbefore
      exact ⟨id', ⟨htakes'.isIn, hplaces, hbefore ▸ htakes'.first⟩, hshows⟩
    | cons q' middle =>
      obtain ⟨rfl, -⟩ := cons.inj hrest
      exact absurd hplaces' (htakes.first q (by simp [hbefore]) k)

/-- In an order that visits a runtime last, its group is the one that an element gets and keeps. -/
theorem FirstRuleWins.inlineGroup_of_last (hin : input.IsIn id parentId)
    (honly : ∀ q, input.Shows q id → q.rule = .byContainerRuntime) {order : HashOrder}
    (hlast : ∀ before r, r.rule = .byContainerRuntime → ∃ nodeId,
      (input.withOrder order).decision before r id = some (.inlineOn nodeId (some group)))
    (heq : rules = before ++ after) (hruntime : ∃ r ∈ before, r.rule = .byContainerRuntime) :
    ((input.withOrder order).runRules before).inlineGroup id = some group := by
  induction before using List.reverseRecOn generalizing after with
  | nil =>
    obtain ⟨r, hr, -⟩ := hruntime
    exact absurd hr not_mem_nil
  | append_singleton before q ih =>
    by_cases hrule : q.rule = .byContainerRuntime
    · obtain ⟨nodeId, hdecision⟩ := hlast before q hrule
      exact inlineGroup_of_inlineOn hdecision
    obtain ⟨r, hr, hrrule⟩ := hruntime
    obtain hr | hr := mem_append.mp hr
    · have hshown : ∃ q' ∈ before ++ [q], input.Shows q' id := by
        obtain ⟨nodeId, hdecision⟩ := hlast before r hrrule
        obtain ⟨inline, hinline, hinlines⟩ := inlines_of_decision hdecision
        exact ⟨r, mem_append_left _ hr, nodeId, inline, _, hinline, hinlines⟩
      obtain ⟨nodeId, hp⟩ := hwins.exists_firstDecides_inlined h hin heq hshown
      have hplaced := hwins.stays order _ _ heq id parentId hin _ hp
      -- a rule that decides on the element without showing it inline would move it
      have hdecision : (input.withOrder order).decision before q id = none := by
        by_contra hsome
        obtain ⟨decision, hdecision⟩ := ne_none_iff_exists'.mp hsome
        refine placement_ne_inlined hdecision
          (fun nodeId group' hinlined => hrule (honly q ?_)) hplaced
        obtain ⟨inline, hinline, hinlines⟩ := inlines_of_decision (hinlined ▸ hdecision)
        exact ⟨nodeId, inline, _, hinline, hinlines⟩
      rw [inlineGroup_of_none hdecision]
      exact ih (heq.trans (append_assoc _ _ _)) ⟨r, hr, hrrule⟩
    · exact absurd (mem_singleton.mp hr ▸ hrrule) hrule

theorem FirstRuleWins.oneGroup (hruntime : ∃ r ∈ rules, r.rule = .byContainerRuntime)
    (hin : input.IsIn id parentId) {group' : InlineGroup} (hjoins : input.Joins id group)
    (hjoins' : input.Joins id group') : group = group' := by
  by_contra hne
  have honly : ∀ q, input.Shows q id → q.rule = .byContainerRuntime :=
    fun q hshows => h.rule_of_joins hjoins hjoins' hne hshows
  have hgroup : ∀ {group}, input.Joins id group → ∃ order,
      ((input.withOrder order).runRules rules).inlineGroup id = some group := by
    intro group hjoins
    obtain ⟨order, hlast⟩ := hjoins.exists_order
    exact ⟨order, hwins.inlineGroup_of_last h hin honly hlast (append_nil rules).symm hruntime⟩
  obtain ⟨order, hgroup₁⟩ := hgroup hjoins
  obtain ⟨order', hgroup₂⟩ := hgroup hjoins'
  have hsame := ((hwins.sameResult order order').1 id parentId hin).2
  rw [hgroup₁, hgroup₂] at hsame
  exact hne (some.inj hsame)

end Necessary

/-- The first rule wins exactly where the rules are settled. -/
theorem firstRuleWins_iff (h : input.Sound rules) :
    input.FirstRuleWins rules ↔ input.Settled rules := by
  refine ⟨fun hwins => ⟨?_, ?_, ?_, ?_, ?_, ?_⟩, fun hs => hs.firstRuleWins h⟩
  · intro r hr id parentId hin nodeId nodeId'
    exact hwins.oneNode h hr hin
  · intro before r after heq id parentId k htakes q hq
    exact hwins.shown h heq htakes hq
  · intro before r after heq id parentId hin hshows led
    exact hwins.notLed h heq hin hshows
  · intro before r after heq id parentId k htakes led
    exact hwins.notSplit h heq htakes
  · intro before r after heq id parentId k
    exact hwins.kept h heq
  · intro hruntime id parentId hin group group'
    exact hwins.oneGroup h hruntime hin

section Builders
variable {inv : Inventory} {options : TopologyRequestOptions} {env : BuildEnv}
  {kind : Uuid → EntityDiscriminants}

theorem keyed_inlineContext (h : inv.WellKeyed env kind) : inv.inlineContext.Keyed where
  hosts := h.hosts
  services := h.services
  runtimes virtSvcId svcIds hmem id hid := by
    obtain ⟨svc, hsvc, hvirt, heq⟩ := Inventory.mem_virtToContainerSvcs hmem hid
    exact ⟨svc, hsvc, heq, hvirt⟩

theorem mem_hosts_of_matchData {d : ElementMatchData}
    (hd : (inv.workloadsInput env).matchData id = some d) (hentity : d.elementEntity = .host) :
    ∃ host ∈ inv.hosts, host.id = id := by
  obtain ⟨n, hn, hd⟩ := bind_eq_some_iff.mp hd
  have hnid := find?_some hn
  simp only [Bool.and_eq_true, decide_eq_true_eq] at hnid
  have hd : inv.resolveWorkload n = some d := hd
  unfold Inventory.resolveWorkload at hd
  split at hd
  · obtain ⟨host, hhost, -⟩ := map_eq_some_iff.mp hd
    obtain ⟨hmem, hid⟩ := Lookup.mem_of_find?_key hhost
    exact ⟨host, hmem, hid.trans hnid.2⟩
  · obtain ⟨svc, -, rfl⟩ := map_eq_some_iff.mp hd
    have hservice : EntityDiscriminants.service ≠ .host := by decide
    exact absurd hentity hservice
  · exact absurd hd.symm (some_ne_none d)

/-- What the workloads view is built from is sound. -/
theorem sound_workloadsInput (h : Request inv options env kind) : (inv.workloadsInput env).Sound
    (GroupingConfig.fromRequestOptions options .workloads).elementRules where
  nodes := Inventory.nodup_workloadsInput h
  inline inline hinline := some.inj hinline ▸ keyed_inlineContext h.keyed
  host_ne_service id d hd hentity inline hinline svc hsvc hid := by
    obtain rfl := some.inj hinline
    obtain ⟨host, hhost, rfl⟩ := mem_hosts_of_matchData hd hentity
    have hkind := h.keyed.service_kind svc hsvc
    rw [hid, h.keyed.host_kind host hhost] at hkind
    exact absurd hkind (by decide)
  ruleIds := h.viewRules .workloads
  names := h.names.mono (Inventory.madeNames_workloadsInput h.keyed)

/-- The input of a builder that shows nothing inline, on elements that nothing virtualizes. -/
structure Plain (input : RuleInput) : Prop where
  inlineCtx : input.inlineCtx = none
  unmanaged : ∀ id d, input.matchData id = some d → d.virtualizerServiceId = none

theorem Plain.settled (h : input.Plain) : input.Settled rules := by
  refine settled_of_not_leads ?_ ?_
  · rintro r - id ⟨nodeId, inline, group, hinline, -⟩
    exact absurd (hinline.symm.trans h.inlineCtx) (some_ne_none inline)
  · rintro r - id serviceId ⟨hkey, -⟩
    obtain ⟨d, hd, hkey⟩ := bind_eq_some_iff.mp hkey
    have hmanaged := ElementRule.key_eq_virtualizer hkey
    exact absurd (hmanaged.symm.trans (h.unmanaged id d hd)) (some_ne_none serviceId)

theorem Plain.firstRuleWins (h : input.Plain) (hnodes : (input.nodes.map (·.id)).Nodup)
    (hrules : (rules.map (·.id)).Nodup)
    (hnames : Set.InjOn input.env.newV5 (input.MadeNames rules)) : input.FirstRuleWins rules := by
  have hsound : input.Sound rules := by
    refine ⟨hnodes, fun inline hinline => ?_, fun id d _ _ inline hinline => ?_, hrules, hnames⟩
    · exact absurd (hinline.symm.trans h.inlineCtx) (some_ne_none inline)
    · exact absurd (hinline.symm.trans h.inlineCtx) (some_ne_none inline)
  exact h.settled.firstRuleWins hsound

theorem firstRuleWins_applicationInput (h : Request inv options env kind) :
    (inv.applicationInput env).FirstRuleWins
      (GroupingConfig.fromRequestOptions options .application).elementRules := by
  have hplain : (inv.applicationInput env).Plain :=
    ⟨rfl, fun id d hd => (matchData_applicationInput hd).1⟩
  exact hplain.firstRuleWins (nodup_applicationInput h) (h.viewRules .application)
    (h.names.mono madeNames_applicationInput)

theorem firstRuleWins_l2Input (h : Request inv options env kind) :
    (inv.l2Input env).FirstRuleWins
      (GroupingConfig.fromRequestOptions options .l2Physical).elementRules := by
  have hplain : (inv.l2Input env).Plain := by
    refine ⟨rfl, fun id d hd => ?_⟩
    obtain ⟨⟨nid, nodeType, header⟩, -, hd⟩ := bind_eq_some_iff.mp hd
    cases nodeType with
    | container data => exact absurd hd.symm (some_ne_none d)
    | element data =>
      obtain rfl := some.inj hd
      rfl
  exact hplain.firstRuleWins (Inventory.nodup_l2Nodes h) (h.viewRules .l2Physical)
    (h.names.mono Inventory.madeNames_l2Input)

theorem firstRuleWins_subnetInput (h : Request inv options env kind) {grouping : GroupingConfig}
    {subnets : List (Uuid × List SubnetChildData)} {subnetId : Uuid}
    {children : List SubnetChildData} {nodes : List Node}
    (hnext : NextSubnet inv grouping subnets subnetId children)
    (hnodes : SubnetNodes inv env
      (GroupingConfig.fromRequestOptions options .l3Logical).elementRules subnets nodes) :
    (subnetInput inv env nodes subnetId children).FirstRuleWins
      (GroupingConfig.fromRequestOptions options .l3Logical).elementRules := by
  have hplain : (subnetInput inv env nodes subnetId children).Plain :=
    ⟨rfl, fun id d hd => (matchData_subnetInput hd).2.1⟩
  exact hplain.firstRuleWins (hnext.nodup_input hnodes h.keyed) (h.viewRules .l3Logical)
    (h.names.mono (hnext.madeNames hnodes h.keyed rfl))

end Builders

section Machine

private def proxmoxId : Uuid := 0x5b8e1f3a90c24d7688a1e4d2c6f7b035

private def webId : Uuid := 0xe24a70c8d5934b1fb6c80f9d3e71a258

private def machineId : Uuid := 0x91d6c3f20b7e4a5893e4f0a1d8c62b7e

private def serverId : Uuid := 0x3c0f7ab4e9d8415e8d26b1c9a5f4e370

private def productionId : Uuid := 0xa7d25e81c04f4396b1f8d3e60c9a7b42

private def tagRule : IdentifiedRule ElementRule :=
  ⟨0x08f1c6d39ea74b2c95d0a3b7e4f81c26, .byTag [productionId] (some "Production")⟩

private def categoryRule : IdentifiedRule ElementRule :=
  ⟨0xd93b0e57a1c84f6e82b9c5f4703ad1e8, .byServiceCategory [.reverseProxy] (some "Proxies")⟩

private def hypervisorRule : IdentifiedRule ElementRule :=
  ⟨0x64e9a2f7138d4cb0a7e5d1c8f0b3962a, .byHypervisor⟩

private def taggedMachine : Inventory where
  hosts := [{ id := serverId, name := "pve" },
    { id := machineId, name := "vm", virtualizationServiceId := some proxmoxId }]
  services := [
    { id := proxmoxId, hostId := serverId, name := "Proxmox",
      serviceDefinition := ⟨"Proxmox", .hypervisor, true⟩ },
    { id := webId, hostId := machineId, name := "Nginx",
      serviceDefinition := ⟨"Nginx", .reverseProxy, false⟩, tags := [productionId] }]

private def serverBoxId : Uuid := 0x2d4b9f60c7e15a38ba0f6e3d91c8a754

private def machineEnv : BuildEnv where
  newV5
    | .workloadsHost _ => serverBoxId
    | .rule _ ruleId => if ruleId = tagRule.id then 0x7f83d1b42c6a5e09968d0c5fa1e7b34d
        else 0xc0a5e74f918b5d2384e6f7b0d31c9a62
    | _ => 0x490e6c8db7f35a1fb52a8d0f7c6e1393
  order := ⟨fun _ l => l, fun _ l => .refl l⟩

private theorem matchData_taggedMachine {id : Uuid} {d : ElementMatchData}
    (hd : (taggedMachine.workloadsInput machineEnv).matchData id = some d) :
    d.elementEntity = .host → id = machineId ∧ d.virtualizerServiceId = some proxmoxId := by
  obtain ⟨n, hn, hd⟩ := bind_eq_some_iff.mp hd
  have hnid := find?_some hn
  simp only [Bool.and_eq_true, decide_eq_true_eq] at hnid
  have hd : taggedMachine.resolveWorkload n = some d := hd
  have hall : ∀ n ∈ (taggedMachine.workloadsInput machineEnv).nodes,
      (taggedMachine.resolveWorkload n).all fun d => decide (d.elementEntity = .host →
        n.id = machineId ∧ d.virtualizerServiceId = some proxmoxId) := by decide
  have hdata := hall n (mem_of_find?_eq_some hn)
  rw [hd, all_some, decide_eq_true_eq, hnid.2] at hdata
  exact hdata

private theorem isIn_taggedMachine {id parentId : Uuid}
    (hin : (taggedMachine.workloadsInput machineEnv).IsIn id parentId) : parentId = serverBoxId := by
  obtain ⟨n, hn, hparent, -⟩ := hin
  have hall : ∀ n ∈ (taggedMachine.workloadsInput machineEnv).nodes,
      n.containerId.all fun containerId => decide (containerId = serverBoxId) := by decide
  have hbox := hall n hn
  rw [hparent, all_some, decide_eq_true_eq] at hbox
  exact hbox

private theorem sound_taggedMachine {rules : List (IdentifiedRule ElementRule)}
    (hids : (rules.map (·.id)).Nodup)
    (hrules : ∀ r ∈ rules, r ∈ [tagRule, categoryRule, hypervisorRule]) :
    (taggedMachine.workloadsInput machineEnv).Sound rules where
  nodes := by decide
  inline inline hinline := by
    obtain rfl := some.inj hinline
    have hnone : taggedMachine.inlineContext.virtToContainerSvcs = [] := by decide
    refine ⟨by decide, by decide, fun virtSvcId svcIds hmem => ?_⟩
    rw [hnone] at hmem
    exact absurd hmem not_mem_nil
  host_ne_service id d hd hentity inline hinline svc hsvc hid := by
    obtain rfl := some.inj hinline
    have hservices : ∀ svc ∈ taggedMachine.services, svc.id ≠ machineId := by decide
    exact hservices svc hsvc (hid.trans (matchData_taggedMachine hd hentity).1)
  ruleIds := hids
  names := by
    have hnames : ∀ name ∈ (taggedMachine.workloadsInput machineEnv).MadeNames rules,
        name ∈ [IdName.rule serverBoxId tagRule.id, .rule serverBoxId categoryRule.id,
          .virtualizer serverBoxId hypervisorRule.id proxmoxId] := by
      rintro name ⟨r, hr, ⟨parentId, k, ids⟩, ⟨id, d, hin, hd, hkey⟩, rfl⟩
      have hparent : parentId = serverBoxId := isIn_taggedMachine hin
      have hkey : r.rule.key d = some k := hkey
      have hr := hrules r hr
      simp only [mem_cons, not_mem_nil, or_false] at hr
      subst hparent
      obtain rfl | rfl | rfl := hr
      · have hk := (ite_none_right_eq_some.mp hkey).2
        obtain rfl := some.inj hk
        simp [Group.idName]
      · have hk := (ite_none_right_eq_some.mp hkey).2
        obtain rfl := some.inj hk
        simp [Group.idName]
      · obtain ⟨hentity, hk⟩ := ite_none_right_eq_some.mp hkey
        rw [(matchData_taggedMachine hd hentity).2, map_some] at hk
        obtain rfl := some.inj hk
        simp [Group.idName]
    intro name hname name' hname' heq
    have hinj : ∀ a ∈ [IdName.rule serverBoxId tagRule.id, .rule serverBoxId categoryRule.id,
        .virtualizer serverBoxId hypervisorRule.id proxmoxId],
        ∀ b ∈ [IdName.rule serverBoxId tagRule.id, .rule serverBoxId categoryRule.id,
          .virtualizer serverBoxId hypervisorRule.id proxmoxId],
          machineEnv.newV5 a = machineEnv.newV5 b → a = b := by decide
    exact hinj name (hnames name hname) name' (hnames name' hname') heq

/-- By category, and what is left by tag. -/
theorem firstRuleWins_categories :
    (taggedMachine.workloadsInput machineEnv).FirstRuleWins [categoryRule, tagRule] := by
  refine (firstRuleWins_iff (sound_taggedMachine (by decide) (by decide))).mpr
    (settled_of_not_leads ?_ ?_)
  · rintro r hr id ⟨nodeId, inline, group, -, hinlines⟩
    simp only [mem_cons, not_mem_nil, or_false] at hr
    obtain rfl | rfl := hr <;> exact nomatch hinlines
  · rintro r hr id serviceId ⟨hkey, -⟩
    obtain ⟨d, -, hkey⟩ := bind_eq_some_iff.mp hkey
    simp only [mem_cons, not_mem_nil, or_false] at hr
    obtain rfl | rfl := hr
    · exact nomatch (ite_none_right_eq_some.mp hkey).2
    · exact nomatch (ite_none_right_eq_some.mp hkey).2

/-- The rule of the tag puts the service into its subcontainer, and the rule of the hypervisors shows
it on the machine. -/
theorem not_firstRuleWins_tagged :
    (taggedMachine.workloadsInput machineEnv).Sound [tagRule, hypervisorRule] ∧
      ¬(taggedMachine.workloadsInput machineEnv).FirstRuleWins [tagRule, hypervisorRule] := by
  refine ⟨sound_taggedMachine (by decide) (by decide), fun hwins => ?_⟩
  have hin : (taggedMachine.workloadsInput machineEnv).IsIn webId serverBoxId := by
    refine ⟨.element webId serverBoxId machineId .service (some "Nginx"), ?_, rfl, rfl⟩
    decide
  have hplaces : (taggedMachine.workloadsInput machineEnv).Places tagRule webId .matched :=
    ⟨by decide, fun _ _ hk => nomatch hk⟩
  have hshows : ¬(taggedMachine.workloadsInput machineEnv).Shows tagRule webId := by
    rintro ⟨nodeId, inline, group, -, hinlines⟩
    exact nomatch hinlines
  have hplaced := hwins.stays machineEnv.order [tagRule, hypervisorRule] [] rfl webId serverBoxId hin
    _ (.acts (.place hin hplaces hshows))
  have hinlined : ((taggedMachine.workloadsInput machineEnv).runRules
      [tagRule, hypervisorRule]).placement webId = .inlined machineId := by decide
  exact nomatch hinlined.symm.trans hplaced

end Machine

end Scanopy.Graph.RuleInput
