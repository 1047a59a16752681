import Scanopy.Graph.WorkloadsForest

/-! The boxes of the workloads that stay. The box of a host stays if something in it is not shown
inline: a machine, or one of its services that is not itself shown elsewhere. -/

namespace Scanopy.Graph

open List Option PlacementContext

variable {inv : Inventory} {options : TopologyRequestOptions} {env : BuildEnv}
  {kind : Uuid → EntityDiscriminants}

section Inlined
variable {input : RuleInput} {inline : InlineContext} {rules : List (IdentifiedRule ElementRule)}
variable {svcIds : List Uuid} {virtSvc : Service} {virtSvcId : Uuid}

theorem PlacementContext.exists_get_inlineRuntimes (ctx : PlacementContext)
    (hinline : ctx.inlineCtx = some inline)
    (hmem : (virtSvcId, svcIds) ∈ inline.virtToContainerSvcs)
    (hvirtSvc : inline.getService virtSvcId = some virtSvc)
    (hmachine : inline.runsOnMachine virtSvcId) :
    ∃ nodeId group, Inserts.get (ctx.computePlacements .byContainerRuntime).placements virtSvcId =
      some (.inlineOn nodeId group) := by
  rw [computePlacements_eq]
  dsimp only
  rw [Inserts.get_append]
  have hlisted : (virtSvcId, .inlineOn virtSvc.hostId (some ⟨virtSvcId, virtSvcId, .header⟩)) ∈
      ctx.ruleInline .byContainerRuntime := by
    unfold ruleInline
    rw [hinline]
    refine mem_flatMap.mpr ⟨(virtSvcId, svcIds), (HashOrder.mem_visit _).mpr hmem, ?_⟩
    simp only [hvirtSvc, hmachine, if_true]
    exact mem_cons_self
  obtain ⟨decision, hget⟩ := isSome_iff_exists.mp (Inserts.isSome_get.mpr ⟨_, hlisted⟩)
  obtain ⟨_, nodeId, group, -, rfl, -⟩ := ctx.inlines_of_mem_ruleInline (Inserts.mem_of_get hget)
  exact ⟨nodeId, group, by rw [hget, some_or]⟩

theorem RuleInput.exists_get_inlineOn (hinline : input.inlineCtx = some inline)
    (hmem : (virtSvcId, svcIds) ∈ inline.virtToContainerSvcs)
    (hvirtSvc : inline.getService virtSvcId = some virtSvc)
    (hmachine : inline.runsOnMachine virtSvcId) {k : GroupKey}
    (hplaces : ∀ r : IdentifiedRule ElementRule, r.rule = .byContainerRuntime →
      input.Places r virtSvcId k)
    (hrule : ∃ r ∈ rules, r.rule = .byContainerRuntime) :
    ∃ nodeId group, Inserts.get (input.runRules rules).allPlacements virtSvcId =
      some (.inlineOn nodeId group) := by
  induction rules using List.reverseRecOn with
  | nil => exact absurd hrule (by simp)
  | append_singleton rules r ih =>
    have hdecisions : (input.runRules (rules ++ [r])).allPlacements =
        (input.runRules rules).allPlacements ++ Inserts.entries
          ((input.context (input.runRules rules).claimed r.id).computePlacements r.rule).placements := by
      rw [runRules_append]
      rfl
    rw [hdecisions, Inserts.get_append, Inserts.get_entries]
    by_cases hr : r.rule = .byContainerRuntime
    · obtain ⟨nodeId, group, hget⟩ := exists_get_inlineRuntimes
        (input.context (input.runRules rules).claimed r.id) hinline hmem hvirtSvc hmachine
      exact ⟨nodeId, group, by rw [hr, hget, some_or]⟩
    · obtain ⟨r', hr', hrule'⟩ : ∃ r' ∈ rules, r'.rule = .byContainerRuntime := by
        obtain ⟨r', hr', hrule'⟩ := hrule
        obtain hr' | hr' := mem_append.mp hr'
        · exact ⟨r', hr', hrule'⟩
        · exact absurd (mem_singleton.mp hr' ▸ hrule') hr
      have hclaimed := mem_claimed_of_places hr' (hplaces r' hrule')
      obtain ⟨nodeId, group, hget⟩ := ih ⟨r', hr', hrule'⟩
      cases hlast : Inserts.get ((input.context (input.runRules rules).claimed r.id).computePlacements
          r.rule).placements virtSvcId with
      | none => exact ⟨nodeId, group, by rw [none_or, hget]⟩
      | some decision =>
        have hdecision := Inserts.mem_of_get hlast
        rw [computePlacements_eq] at hdecision
        obtain hdecision | hdecision := mem_append.mp hdecision
        · -- the rules after leave the runtime where it is, and make no subcontainer for it
          obtain ⟨g, hg, hdecision⟩ := mem_flatMap.mp hdecision
          obtain ⟨hkey, -⟩ | ⟨hid, -⟩ := mem_groupPlacements _ hdecision
          · have hgrouped := isGrouped_iff.mp (mem_filter.mp hg).2 virtSvcId inline hkey hinline
            rw [hmachine] at hgrouped
            exact nomatch hgrouped
          · exact absurd hclaimed (isIn_of_mem_ruleGroups hg hid).2
        · obtain ⟨_, nodeId', group', -, rfl, -⟩ :=
            inlines_of_mem_ruleInline _ hdecision
          exact ⟨nodeId', group', by rw [some_or]⟩

end Inlined

namespace Inventory

def ShownOnMachine (inv : Inventory) (rules : List (IdentifiedRule ElementRule)) (svc : Service) :
    Prop :=
  (∃ r ∈ rules, r.rule = .byContainerRuntime) ∧ inv.isVm svc.hostId ∧ ∃ s, inv.RunsService svc s

inductive Occupies (inv : Inventory) (rules : List (IdentifiedRule ElementRule)) (hostId : Uuid) : Prop
  | machine {s : Service} {host : Host} (hruns : inv.RunsHost s host) (hon : s.hostId = hostId)
  | plain {svc : Service} (hsvc : svc ∈ inv.services) (hplain : inv.isPlainService svc)
      (hon : svc.hostId = hostId)
  | container {s svc : Service} (hruns : inv.RunsService s svc) (hon : s.hostId = hostId)
      (hshown : ¬inv.ShownOnMachine rules svc)

def KeepsBox (inv : Inventory) (rules : List (IdentifiedRule ElementRule)) (hostId : Uuid) : Prop :=
  (∃ host ∈ inv.hosts, host.id = hostId ∧ host.virtualizationServiceId = none) ∧
    inv.Occupies rules hostId

section Elements

variable {host : Host} {s svc : Service}

theorem runsOnMachine_eq (h : inv.WellKeyed env kind) (hsvc : svc ∈ inv.services) :
    inv.inlineContext.runsOnMachine svc.id = inv.isVm svc.hostId := by
  have hfind : inv.inlineContext.getService svc.id = some svc :=
    Lookup.find?_key_of_nodup h.services hsvc
  rw [InlineContext.runsOnMachine, hfind, any_some]
  rfl

theorem exists_mem_virtToContainerSvcs (hruns : inv.RunsService s svc) :
    ∃ svcIds, (s.id, svcIds) ∈ inv.virtToContainerSvcs := by
  obtain ⟨hsvc, virtSvcId, hvirt, hs⟩ := hruns
  have hpair : (s.id, svc.id) ∈ inv.services.filterMap fun s =>
      s.virtualizationServiceId.map (·, s.id) := by
    refine mem_filterMap.mpr ⟨svc, hsvc, ?_⟩
    rw [hvirt, map_some, (Lookup.mem_of_find?_key hs).2]
  obtain ⟨svcIds, hmem, -⟩ := Groups.exists_mem_collect hpair
  exact ⟨svcIds, hmem⟩

theorem isVm_eq_false (h : inv.WellKeyed env kind) (hhost : host ∈ inv.hosts)
    (hvirt : host.virtualizationServiceId = none) : inv.isVm host.id = false := by
  have hfind : inv.getHostById host.id = some host := Lookup.find?_key_of_nodup h.hosts hhost
  rw [isVm, hfind, any_some, hvirt, isSome_none]

theorem isInlined_of_shownOnMachine (h : Request inv options env kind)
    (hruns : inv.RunsService s svc) (hvm : inv.isVm s.hostId = false)
    (hshown : inv.ShownOnMachine options.elementRules svc) :
    isInlined (inv.workloadsPlacements env (.fromRequestOptions options .workloads)) svc.id := by
  obtain ⟨⟨r, hr, hrule⟩, hmachine, s', hruns'⟩ := hshown
  have hr : r ∈ (GroupingConfig.fromRequestOptions options .workloads).elementRules :=
    mem_filter.mpr ⟨hr, by rw [hrule]; decide⟩
  obtain ⟨svcIds, hmem⟩ := exists_mem_virtToContainerSvcs hruns'
  obtain ⟨virtSvcId, hvirt, -⟩ := hruns.2
  have hfind : inv.inlineContext.getService svc.id = some svc :=
    Lookup.find?_key_of_nodup h.keyed.services hruns.1
  have hinline : (inv.workloadsInput env).inlineCtx = some inv.inlineContext := rfl
  obtain ⟨nodeId, group, hget⟩ := RuleInput.exists_get_inlineOn hinline hmem hfind
    ((runsOnMachine_eq h.keyed hruns.1).trans hmachine)
    (fun _ => places_of_runsService h hruns hvm hvirt) ⟨r, hr, hrule⟩
  have hget : Inserts.get (inv.workloadsPlacements env (.fromRequestOptions options .workloads)) svc.id =
    some (.inlineOn nodeId group) := hget
  rw [isInlined, hget]

theorem hostBoxId_inj (h : Request inv options env kind) {a b : Uuid} (ha : a ∈ inv.hostIds)
    (hb : b ∈ inv.hostIds) (heq : hostBoxId env a = hostBoxId env b) : a = b :=
  IdName.workloadsHost.inj (h.names (.inl (.workloadsHost ha)) (.inl (.workloadsHost hb)) heq)

theorem mem_hostIds_of_host (hhost : host ∈ inv.hosts) : host.id ∈ inv.hostIds := by
  rw [hostIds, append_assoc]
  exact mem_append_left _ (List.mem_map_of_mem hhost)

theorem machine_or_eq_of_workloadBox (h : Request inv options env kind)
    (hs : s ∈ inv.services) {hostId : Uuid} (hid : hostId ∈ inv.hostIds)
    (hbox : inv.workloadBox env s.hostId = some (hostBoxId env hostId)) :
    (∃ s' host, inv.RunsHost s' host ∧ s'.hostId = hostId) ∨
      (inv.isVm s.hostId = false ∧ s.hostId = hostId) := by
  obtain ⟨host, s', -, hruns, heq⟩ | ⟨hvm, heq⟩ := (workloadBox_eq h.keyed).mp hbox
  · refine .inl ⟨s', host, hruns, ?_⟩
    exact (hostBoxId_inj h hid (mem_hostIds_of_service hruns.mem_services) heq).symm
  · exact .inr ⟨hvm, (hostBoxId_inj h hid (mem_hostIds_of_service hs) heq).symm⟩

theorem not_isInlined_of_kind (h : inv.WellKeyed env kind) {grouping : GroupingConfig} {id : Uuid}
    (hkind : kind id ≠ .service) : isInlined (inv.workloadsPlacements env grouping) id = false := by
  rw [Bool.eq_false_iff]
  exact fun hinlined => hkind (kind_of_isInlined h hinlined)

theorem shownOnMachine_of_isInlined (h : Request inv options env kind)
    (hsvc : svc ∈ inv.services)
    (hinlined : isInlined (inv.workloadsPlacements env (.fromRequestOptions options .workloads)) svc.id) :
    inv.ShownOnMachine options.elementRules svc ∨
      (svc.virtualizationServiceId = none ∧ inv.isVm svc.hostId) ∨
      ∃ s, inv.RunsService s svc ∧ inv.isVm s.hostId := by
  unfold isInlined at hinlined
  split at hinlined
  · rename_i nodeId group hget
    obtain ⟨r, hr, inline, hinline, hinlines⟩ := RuleInput.exists_inlines_of_get hget
    obtain rfl := some.inj hinline
    generalize hrule : r.rule = rule at hinlines
    generalize hid : svc.id = id at hinlines
    cases hinlines with
    | @machine svc' host hsvc' hhost hmachine hon hplain =>
      obtain rfl := inj_on_of_nodup_map h.keyed.services hsvc hsvc' hid
      have hfind : inv.getHostById host.id = some host :=
        Lookup.find?_key_of_nodup h.keyed.hosts hhost
      refine .inr (.inl ⟨hplain, ?_⟩)
      rw [isVm, hon, hfind, any_some]
      exact hmachine
    | header hmem hvirtSvc hmachine =>
      subst hid
      left
      obtain ⟨svcId, hsvcId⟩ := exists_mem_of_ne_nil _ (Groups.collect_spec hmem).1
      obtain ⟨s, hs, hvirt, -⟩ := mem_virtToContainerSvcs hmem hsvcId
      refine ⟨⟨r, mem_of_mem_viewRules hr, hrule⟩, ?_, s, hs, svc.id, hvirt, ?_⟩
      · rw [← runsOnMachine_eq h.keyed hsvc]
        exact hmachine
      · exact Lookup.find?_key_of_nodup h.keyed.services hsvc
    | @member virtSvcId svcId svcIds virtSvc hmem hvirtSvc hmachine hsvcId =>
      obtain ⟨svc', hsvc', hvirt, hid'⟩ := mem_virtToContainerSvcs hmem hsvcId
      obtain rfl := inj_on_of_nodup_map h.keyed.services hsvc' hsvc (hid'.trans hid.symm)
      obtain ⟨hvirtMem, rfl⟩ := Lookup.mem_of_find?_key hvirtSvc
      refine .inr (.inr ⟨virtSvc, ⟨hsvc, virtSvc.id, hvirt, hvirtSvc⟩, ?_⟩)
      rw [← runsOnMachine_eq h.keyed hvirtMem]
      exact hmachine
  · cases hinlined

theorem occupies_iff (h : Request inv options env kind) (hhost : host ∈ inv.hosts)
    (hvirt : host.virtualizationServiceId = none) :
    inv.Occupies options.elementRules host.id ↔
      ∃ n ∈ inv.workloadElements env, n.containerId = some (hostBoxId env host.id) ∧
        isInlined (inv.workloadsPlacements env (.fromRequestOptions options .workloads)) n.id =
          false := by
  have hid := mem_hostIds_of_host hhost
  have hvm : ∀ {hostId}, hostId = host.id → inv.isVm hostId = false := by
    rintro _ rfl
    exact isVm_eq_false h.keyed hhost hvirt
  have hbox : ∀ {hostId}, hostId = host.id →
      inv.workloadBox env hostId = some (hostBoxId env host.id) := by
    rintro _ rfl
    exact (workloadBox_eq h.keyed).mpr (.inr ⟨hvm rfl, rfl⟩)
  constructor
  · rintro (⟨hruns, hon⟩ | ⟨hsvc, hplain, hon⟩ | ⟨hruns, hon, hshown⟩)
    · rename_i s machine
      refine ⟨_, (mem_workloadElements h.keyed).mpr (.inl ⟨machine, s, hruns, rfl⟩), ?_, ?_⟩
      · rw [← hon]
        rfl
      · refine not_isInlined_of_kind h.keyed ?_
        show kind machine.id ≠ .service
        rw [h.keyed.host_kind machine hruns.1]
        decide
    · rename_i svc
      refine ⟨_, (mem_workloadElements h.keyed).mpr
        (.inr ⟨svc, _, ⟨hsvc, .inr ⟨hplain, hbox hon⟩⟩, rfl⟩), rfl, ?_⟩
      rw [Bool.eq_false_iff]
      intro hinlined
      have hinlined := shownOnMachine_of_isInlined h hsvc hinlined
      rw [ShownOnMachine, hvm hon] at hinlined
      obtain ⟨-, hmachine, -⟩ | ⟨-, hmachine⟩ | ⟨s, ⟨-, id, hruns, -⟩, -⟩ := hinlined
      · cases hmachine
      · cases hmachine
      · rw [isPlainService, hruns] at hplain
        simp at hplain
    · rename_i s svc
      refine ⟨_, (mem_workloadElements h.keyed).mpr
        (.inr ⟨svc, _, ⟨hruns.1, .inl ⟨s, hruns, hbox hon⟩⟩, rfl⟩), rfl, ?_⟩
      rw [Bool.eq_false_iff]
      intro hinlined
      obtain ⟨hsvc, id, hruns, hs⟩ := hruns
      obtain hshown' | ⟨hnone, -⟩ | ⟨s', ⟨-, id', hruns', hs'⟩, hmachine⟩ :=
        shownOnMachine_of_isInlined h hsvc hinlined
      · exact hshown hshown'
      · rw [hnone] at hruns
        cases hruns
      · obtain rfl := some.inj (hruns.symm.trans hruns')
        obtain rfl := some.inj (hs.symm.trans hs')
        rw [hvm hon] at hmachine
        cases hmachine
  · rintro ⟨n, hn, hcontainer, hinlined⟩
    obtain ⟨machine, s, hruns, rfl⟩ | ⟨svc, box, ⟨hsvc, hdraws⟩, rfl⟩ :=
      (mem_workloadElements h.keyed).mp hn
    · have heq := some.inj hcontainer
      exact .machine hruns (hostBoxId_inj h (mem_hostIds_of_service hruns.mem_services) hid heq)
    · obtain rfl := some.inj hcontainer
      obtain ⟨s, hruns, hdrawn⟩ | ⟨hplain, hdrawn⟩ := hdraws
      · obtain ⟨s', machine, hruns', hon⟩ | ⟨hoff, hon⟩ :=
          machine_or_eq_of_workloadBox h hruns.mem_services hid hdrawn
        · exact .machine hruns' hon
        · refine .container hruns hon fun hshown => ?_
          have hinlined' := isInlined_of_shownOnMachine h hruns hoff hshown
          exact absurd (hinlined.symm.trans hinlined') Bool.false_ne_true
      · obtain ⟨s', machine, hruns', hon⟩ | ⟨-, hon⟩ := machine_or_eq_of_workloadBox h hsvc hid hdrawn
        · exact .machine hruns' hon
        · exact .plain hsvc hplain hon

end Elements

section Boxes
variable (h : Request inv options env kind)
variable {n : Node} {hostId : Uuid}
include h

theorem hostBox_of_id (hid : hostId ∈ inv.hostIds)
    (hn : n ∈ inv.workloadsInlined env (.fromRequestOptions options .workloads))
    (heq : n.id = hostBoxId env hostId) :
    n.isHostBox ∧ ∃ host ∈ inv.hosts, host.id = hostId ∧ host.virtualizationServiceId = none := by
  obtain ⟨m, hm, hmid, hmcont, -, hmbox⟩ := exists_of_shape (shape_workloadsInlined _).symm hn
  have hm := mem_of_mem_filter hm
  rw [← hmid] at heq
  have hcont : m.isContainer := by
    obtain ⟨m₀, hm₀, rfl⟩ | hm := mem_applyElementRules.mp hm
    · rw [Node.reassign_id] at heq
      rw [Node.reassign_isContainer]
      obtain hm₀ | hm₀ := mem_append.mp hm₀
      · obtain ⟨host, -, -, rfl⟩ := mem_hostBoxes.mp hm₀
        rfl
      · have hkind := kind_of_mem_workloadElements h.keyed hm₀
        rw [heq, hostBoxId, h.keyed.newV5_kind] at hkind
        obtain hkind | hkind := hkind
        · exact nomatch hkind
        · exact nomatch hkind
    · exact (RuleInput.exists_group_of_mem_newContainers hm).1
  refine ⟨?_, exists_host_of_container h hid hn (hmcont ▸ hcont) (hmid ▸ heq)⟩
  rw [← hmbox]
  obtain ⟨-, -, -, -, hbox, -⟩ | hm := workloadContainer_cases h.keyed hm hcont
  · exact hbox
  · obtain ⟨-, r, hr, g, hg, hgid, -⟩ := RuleInput.exists_group_of_mem_newContainers hm
    exact absurd hgid (h.ne_of_madeName (madeNames_workloadsInput h.keyed)
      (.inr ⟨_, .workloadsHost hid, heq⟩) ⟨r, hr, g, hg, rfl⟩)

theorem exists_holds (hn : n ∈ inv.workloadElements env)
    (hcontainer : n.containerId = some (hostBoxId env hostId))
    (hinlined : isInlined (inv.workloadsPlacements env (.fromRequestOptions options .workloads)) n.id =
      false) :
    ∃ m ∈ inv.workloadsInlined env (.fromRequestOptions options .workloads), m.id = n.id ∧
      Holds (inv.workloadsInlined env (.fromRequestOptions options .workloads))
        (hostBoxId env hostId) m := by
  have hmem : n.reassign ((inv.workloadsInput env).runRules
      (GroupingConfig.fromRequestOptions options .workloads).elementRules).reassignments ∈
        (applyElementRules (inv.workloadsInput env)
          (GroupingConfig.fromRequestOptions options .workloads).elementRules).1 :=
    mem_applyElementRules.mpr (.inl ⟨n, mem_append_right _ hn, rfl⟩)
  rw [← @Node.reassign_id ((inv.workloadsInput env).runRules
    (GroupingConfig.fromRequestOptions options .workloads).elementRules).reassignments n] at hinlined
  obtain ⟨m, hm, hmid, hmcont, hmparent, -⟩ := exists_mem_workloadsInlined hmem hinlined
  rw [Node.reassign_isContainer, Node.isContainer_of_containerId hcontainer] at hmcont
  refine ⟨m, hm, hmid.trans Node.reassign_id, ?_⟩
  obtain hkept | ⟨c, hc, hmoved, hcparent⟩ := @reassign_cases (inv.workloadsInput env)
    (GroupingConfig.fromRequestOptions options .workloads).elementRules n _ hcontainer
    fun _ hin => isIn_unique h hn hcontainer hin
  · exact ⟨_, (Node.containerId_eq_parentId hmcont).trans (hmparent.trans hkept), .inl rfl⟩
  · have hccont := (RuleInput.exists_group_of_mem_newContainers hc).1
    have hcmem := mem_applyElementRules.mpr (.inr hc)
    obtain ⟨c', hc', hid, hcont, hparent, -⟩ := exists_mem_workloadsInlined hcmem
      (not_isInlined_of_container h.keyed hcmem hccont)
    refine ⟨_, (Node.containerId_eq_parentId hmcont).trans (hmparent.trans hmoved), .inr ?_⟩
    exact ⟨c', hc', hcont.trans hccont, hid, hparent.trans hcparent⟩

theorem holds_unique {a b : Uuid} (ha : a ∈ inv.hostIds) (hb : b ∈ inv.hostIds) {m : Node}
    (hma : Holds (inv.workloadsInlined env (.fromRequestOptions options .workloads))
      (hostBoxId env a) m)
    (hmb : Holds (inv.workloadsInlined env (.fromRequestOptions options .workloads))
      (hostBoxId env b) m) : hostBoxId env a = hostBoxId env b := by
  have hboxed := boxed_workloadsInlined h
  -- the box of a host is in no other container
  have hroot : ∀ {hostId}, hostId ∈ inv.hostIds →
      ∀ c ∈ inv.workloadsInlined env (.fromRequestOptions options .workloads), c.isContainer →
        c.id = hostBoxId env hostId → c.parentId = none := by
    intro hostId hid c hc hcont heq
    exact (hboxed.hostBox c hc hcont).mp (hostBox_of_id h hid hc heq).1
  obtain ⟨containerId, hcontainer, hma⟩ := hma
  obtain ⟨containerId', hcontainer', hmb⟩ := hmb
  obtain rfl := some.inj (hcontainer.symm.trans hcontainer')
  obtain rfl | ⟨c, hc, hcont, hcid, hcparent⟩ := hma
  · obtain heq | ⟨c, hc, hcont, hcid, hcparent⟩ := hmb
    · exact heq
    · rw [hroot ha c hc hcont hcid] at hcparent
      exact nomatch hcparent
  · obtain rfl | ⟨c', hc', -, hcid', hcparent'⟩ := hmb
    · rw [hroot hb c hc hcont hcid] at hcparent
      exact nomatch hcparent
    · obtain rfl := inj_on_of_nodup_map hboxed.nodup hc hc' (hcid.trans hcid'.symm)
      exact some.inj (hcparent.symm.trans hcparent')

theorem exists_holds_iff (hid : hostId ∈ inv.hostIds) :
    (∃ m ∈ inv.workloadsInlined env (.fromRequestOptions options .workloads),
      Holds (inv.workloadsInlined env (.fromRequestOptions options .workloads))
        (hostBoxId env hostId) m) ↔
      ∃ n ∈ inv.workloadElements env, n.containerId = some (hostBoxId env hostId) ∧
        isInlined (inv.workloadsPlacements env (.fromRequestOptions options .workloads)) n.id =
          false := by
  constructor
  · rintro ⟨m, hm, hholds⟩
    obtain ⟨m', hm', hmid, hmcont, -⟩ := exists_of_shape (shape_workloadsInlined _).symm hm
    obtain ⟨hm', hinlined⟩ := mem_filter.mp hm'
    have helem : m.isContainer = false := by
      obtain ⟨containerId, hcontainer, -⟩ := hholds
      exact Node.isContainer_of_containerId hcontainer
    rw [helem] at hmcont
    obtain ⟨n, hn, rfl⟩ | hc := mem_applyElementRules.mp hm'
    · rw [Node.reassign_isContainer] at hmcont
      rw [Node.reassign_id] at hmid hinlined
      rw [Bool.not_eq_true'] at hinlined
      have hn : n ∈ inv.workloadElements env := by
        obtain hn | hn := mem_append.mp hn
        · obtain ⟨host, -, -, rfl⟩ := mem_hostBoxes.mp hn
          exact nomatch hmcont
        · exact hn
      obtain ⟨-, hostId', hid', hcontainer⟩ := exists_box_of_mem h.keyed hn
      obtain ⟨m'', hm'', hmid', hholds'⟩ := exists_holds h hn hcontainer hinlined
      obtain rfl := inj_on_of_nodup_map (boxed_workloadsInlined h).nodup hm'' hm
        (hmid'.trans hmid)
      exact ⟨n, hn, holds_unique h hid' hid hholds' hholds ▸ hcontainer, hinlined⟩
    · rw [(RuleInput.exists_group_of_mem_newContainers hc).1] at hmcont
      exact nomatch hmcont
  · rintro ⟨n, hn, hcontainer, hinlined⟩
    obtain ⟨m, hm, -, hholds⟩ := exists_holds h hn hcontainer hinlined
    exact ⟨m, hm, hholds⟩

theorem keepsBox_iff (hid : hostId ∈ inv.hostIds) :
    inv.KeepsBox options.elementRules hostId ↔
      ∃ n ∈ inv.workloadsNodes env (.fromRequestOptions options .workloads),
        n.id = hostBoxId env hostId := by
  have hboxed := boxed_workloadsInlined h
  constructor
  · rintro ⟨⟨host, hhost, rfl, hvirt⟩, hoccupies⟩
    have hmem : _ ∈ (applyElementRules (inv.workloadsInput env)
        (GroupingConfig.fromRequestOptions options .workloads).elementRules).1 :=
      mem_applyElementRules.mpr (.inl ⟨_, mem_append_left _
        (mem_hostBoxes.mpr ⟨host, hhost, hvirt, rfl⟩), Node.reassign_of_isContainer rfl⟩)
    obtain ⟨n, hn, hnid, -⟩ := exists_mem_workloadsInlined hmem
      (not_isInlined_of_container h.keyed hmem rfl)
    have hnid : n.id = hostBoxId env host.id := hnid
    refine ⟨n, mem_filter.mpr ⟨hn, decide_eq_true fun hremoved => ?_⟩, hnid⟩
    have hempty := (hboxed.mem_idsToRemove_box hn (hostBox_of_id h hid hn hnid).1).mp hremoved
    rw [hnid] at hempty
    obtain ⟨m, hm, hholds⟩ :=
      (exists_holds_iff h hid).mpr ((occupies_iff h hhost hvirt).mp hoccupies)
    exact hempty m hm hholds
  · rintro ⟨n, hn, hnid⟩
    obtain ⟨hn, hkept⟩ := mem_filter.mp hn
    obtain ⟨hbox, host, hhost, rfl, hvirt⟩ := hostBox_of_id h hid hn hnid
    refine ⟨⟨host, hhost, rfl, hvirt⟩, (occupies_iff h hhost hvirt).mpr ?_⟩
    refine (exists_holds_iff h hid).mp ?_
    by_contra hnone
    refine of_decide_eq_true hkept ((hboxed.mem_idsToRemove_box hn hbox).mpr fun m hm hholds => ?_)
    exact hnone ⟨m, hm, hnid ▸ hholds⟩

end Boxes

end Inventory

end Scanopy.Graph
