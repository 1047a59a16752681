import Scanopy.Graph.BoxForests
import Scanopy.Graph.Removal

/-! The forest of the workloads. A machine and a service in a container are drawn in the box of the
host that runs them, whether the host has a box or not. -/

namespace Scanopy.Graph

open List Lookup RuleInput

variable {inv : Inventory} {options : TopologyRequestOptions} {env : BuildEnv}
  {kind : Uuid → EntityDiscriminants}

namespace Inventory

section Elements

def RunsHost (inv : Inventory) (s : Service) (h : Host) : Prop :=
  h ∈ inv.hosts ∧ ∃ id, h.virtualizationServiceId = some id ∧ inv.getServiceById id = some s

def RunsService (inv : Inventory) (s svc : Service) : Prop :=
  svc ∈ inv.services ∧ ∃ id, svc.virtualizationServiceId = some id ∧ inv.getServiceById id = some s

variable {host : Host} {ids : List Uuid} {n : Node} {s : Service} {hostId id virtSvcId : Uuid}

theorem mem_virtToVmHosts
    (h : (virtSvcId, ids) ∈ inv.virtToVmHosts) (hid : id ∈ ids) :
    ∃ host ∈ inv.hosts, host.virtualizationServiceId = some virtSvcId ∧ host.id = id := by
  obtain ⟨host, hhost, heq⟩ := mem_filterMap.mp ((Groups.collect_spec h).2 id hid)
  obtain ⟨virtSvcId', hvirt, heq⟩ := Option.map_eq_some_iff.mp heq
  obtain ⟨rfl, rfl⟩ := Prod.mk.inj heq
  exact ⟨host, hhost, hvirt, rfl⟩

theorem mem_virtToContainerSvcs
    (h : (virtSvcId, ids) ∈ inv.virtToContainerSvcs) (hid : id ∈ ids) :
    ∃ s ∈ inv.services, s.virtualizationServiceId = some virtSvcId ∧ s.id = id := by
  obtain ⟨s, hs, heq⟩ := mem_filterMap.mp ((Groups.collect_spec h).2 id hid)
  obtain ⟨virtSvcId', hvirt, heq⟩ := Option.map_eq_some_iff.mp heq
  obtain ⟨rfl, rfl⟩ := Prod.mk.inj heq
  exact ⟨s, hs, hvirt, rfl⟩

theorem isVm_iff : inv.isVm hostId ↔ ∃ host virtSvcId, inv.getHostById hostId = some host ∧
      host.virtualizationServiceId = some virtSvcId := by
  rw [isVm, Option.any_eq_true]
  simp only [Option.isSome_iff_exists, exists_and_left]

theorem hypervisorHostId_eq (h : inv.WellKeyed env kind) (hhost : host ∈ inv.hosts)
    (hvirt : host.virtualizationServiceId = some virtSvcId) :
    inv.hypervisorHostId env host.id = (inv.getServiceById virtSvcId).map (·.hostId) := by
  have hmem : (virtSvcId, host.id) ∈ inv.hosts.filterMap fun h =>
      h.virtualizationServiceId.map (·, h.id) :=
    mem_filterMap.mpr ⟨host, hhost, by rw [hvirt, Option.map_some]⟩
  obtain ⟨ids, hids, hid⟩ := Groups.exists_mem_collect hmem
  rw [hypervisorHostId]
  cases hfind : (env.order.visit .machines inv.virtToVmHosts).find? fun e => host.id ∈ e.2 with
  | none =>
    have hnone := find?_eq_none.mp hfind _ ((HashOrder.mem_visit _).mpr hids)
    exact absurd (decide_eq_true hid) hnone
  | some e =>
    obtain ⟨virtSvcId', ids'⟩ := e
    have he := (HashOrder.mem_visit _).mp (mem_of_find?_eq_some hfind)
    have hid' : host.id ∈ ids' := by simpa using find?_some hfind
    obtain ⟨host', hhost', hvirt', heq⟩ := mem_virtToVmHosts he hid'
    rw [inj_on_of_nodup_map h.hosts hhost' hhost heq, hvirt, Option.some.injEq] at hvirt'
    rw [Option.bind_some, hvirt']

theorem workloadBox_eq (h : inv.WellKeyed env kind) {box : Uuid} :
    inv.workloadBox env hostId = some box ↔
      (∃ host s, host.id = hostId ∧ inv.RunsHost s host ∧ box = hostBoxId env s.hostId) ∨
        (inv.isVm hostId = false ∧ box = hostBoxId env hostId) := by
  rw [workloadBox]
  split
  · rename_i hvm
    obtain ⟨host, virtSvcId, hhost, hvirt⟩ := isVm_iff.mp hvm
    obtain ⟨hmem, rfl⟩ := mem_of_find?_key hhost
    rw [hypervisorHostId_eq h hmem hvirt]
    simp only [hvm, Bool.true_eq_false, false_and, or_false, Option.map_eq_some_iff]
    constructor
    · rintro ⟨_, ⟨s, hs, rfl⟩, rfl⟩
      exact ⟨host, s, rfl, ⟨hmem, virtSvcId, hvirt, hs⟩, rfl⟩
    · rintro ⟨host', s, hid, ⟨hmem', virtSvcId', hvirt', hs⟩, rfl⟩
      rw [inj_on_of_nodup_map h.hosts hmem' hmem hid, hvirt, Option.some.injEq] at hvirt'
      exact ⟨s.hostId, ⟨s, hvirt' ▸ hs, rfl⟩, rfl⟩
  · rename_i hvm
    rw [Bool.not_eq_true] at hvm
    simp only [hvm, true_and, Option.some.injEq]
    constructor
    · exact fun heq => .inr heq.symm
    · rintro (⟨host, s, rfl, ⟨hmem, virtSvcId, hvirt, -⟩, -⟩ | heq)
      · have hfind : inv.getHostById host.id = some host := find?_key_of_nodup h.hosts hmem
        rw [isVm_iff.mpr ⟨host, virtSvcId, hfind, hvirt⟩] at hvm
        exact nomatch hvm
      · exact heq.symm

theorem mem_machineNodes (h : inv.WellKeyed env kind) : n ∈ inv.machineNodes env ↔
    ∃ host s, inv.RunsHost s host ∧
      n = .element host.id (hostBoxId env s.hostId) host.id .host (some host.name) := by
  simp only [machineNodes, mem_flatMap, HashOrder.mem_visit]
  constructor
  · rintro ⟨⟨virtSvcId, ids⟩, hmem, hn⟩
    dsimp only at hn
    split at hn
    · exact absurd hn not_mem_nil
    · rename_i s hs
      obtain ⟨id, hid, hn⟩ := mem_filterMap.mp hn
      obtain ⟨host', hhost', hvirt, rfl⟩ := mem_virtToVmHosts hmem hid
      obtain ⟨host, hhost, rfl⟩ := Option.map_eq_some_iff.mp hn
      obtain ⟨hmem', hid'⟩ := mem_of_find?_key hhost
      obtain rfl := inj_on_of_nodup_map h.hosts hmem' hhost' hid'
      exact ⟨host, s, ⟨hmem', virtSvcId, hvirt, hs⟩, rfl⟩
  · rintro ⟨host, s, ⟨hmem, virtSvcId, hvirt, hs⟩, rfl⟩
    have hpair : (virtSvcId, host.id) ∈ inv.hosts.filterMap fun h =>
        h.virtualizationServiceId.map (·, h.id) :=
      mem_filterMap.mpr ⟨host, hmem, by rw [hvirt, Option.map_some]⟩
    obtain ⟨ids, hids, hid⟩ := Groups.exists_mem_collect hpair
    refine ⟨(virtSvcId, ids), hids, ?_⟩
    have hfind : inv.getHostById host.id = some host := find?_key_of_nodup h.hosts hmem
    simp only [hs]
    exact mem_filterMap.mpr ⟨host.id, hid, by rw [hfind, Option.map_some]⟩

theorem mem_containerNodes (h : inv.WellKeyed env kind) : n ∈ inv.containerNodes env ↔
    ∃ svc s box, inv.RunsService s svc ∧ inv.workloadBox env s.hostId = some box ∧
      n = serviceNode box svc := by
  simp only [containerNodes, mem_flatMap, HashOrder.mem_visit]
  constructor
  · rintro ⟨⟨virtSvcId, ids⟩, hmem, hn⟩
    dsimp only at hn
    split at hn
    · exact absurd hn not_mem_nil
    · rename_i s hs
      split at hn
      · exact absurd hn not_mem_nil
      · rename_i box hbox
        obtain ⟨id, hid, hn⟩ := mem_filterMap.mp hn
        obtain ⟨svc', hsvc', hvirt, rfl⟩ := mem_virtToContainerSvcs hmem hid
        obtain ⟨svc, hsvc, rfl⟩ := Option.map_eq_some_iff.mp hn
        obtain ⟨hmem', hid'⟩ := mem_of_find?_key hsvc
        obtain rfl := inj_on_of_nodup_map h.services hmem' hsvc' hid'
        exact ⟨svc, s, box, ⟨hmem', virtSvcId, hvirt, hs⟩, hbox, rfl⟩
  · rintro ⟨svc, s, box, ⟨hmem, virtSvcId, hvirt, hs⟩, hbox, rfl⟩
    have hpair : (virtSvcId, svc.id) ∈ inv.services.filterMap fun s =>
        s.virtualizationServiceId.map (·, s.id) :=
      mem_filterMap.mpr ⟨svc, hmem, by rw [hvirt, Option.map_some]⟩
    obtain ⟨ids, hids, hid⟩ := Groups.exists_mem_collect hpair
    refine ⟨(virtSvcId, ids), hids, ?_⟩
    have hfind : inv.getServiceById svc.id = some svc := find?_key_of_nodup h.services hmem
    simp only [hs, hbox]
    exact mem_filterMap.mpr ⟨svc.id, hid, by rw [hfind, Option.map_some]⟩

theorem mem_plainServiceNodes : n ∈ inv.plainServiceNodes env ↔
    ∃ svc ∈ inv.services, inv.isPlainService svc ∧
      ∃ box, inv.workloadBox env svc.hostId = some box ∧ n = serviceNode box svc := by
  simp only [plainServiceNodes, mem_filterMap, mem_filter, Option.map_eq_some_iff]
  constructor
  · rintro ⟨svc, ⟨hmem, hplain⟩, box, hbox, rfl⟩
    exact ⟨svc, hmem, hplain, box, hbox, rfl⟩
  · rintro ⟨svc, hmem, hplain, box, hbox, rfl⟩
    exact ⟨svc, ⟨hmem, hplain⟩, box, hbox, rfl⟩

theorem mem_hostBoxes : n ∈ inv.hostBoxes env ↔
    ∃ host ∈ inv.hosts, host.virtualizationServiceId = none ∧ n = {
      id := hostBoxId env host.id
      nodeType := .container { containerType := .host, entityId := some host.id }
      header := some host.name } := by
  simp only [hostBoxes, mem_map, mem_filter, Option.isNone_iff_eq_none]
  constructor
  · rintro ⟨host, ⟨hmem, hvirt⟩, rfl⟩
    exact ⟨host, hmem, hvirt, rfl⟩
  · rintro ⟨host, hmem, hvirt, rfl⟩
    exact ⟨host, ⟨hmem, hvirt⟩, rfl⟩

def DrawsService (inv : Inventory) (env : BuildEnv) (svc : Service) (box : Uuid) : Prop :=
  svc ∈ inv.services ∧
    ((∃ s, inv.RunsService s svc ∧ inv.workloadBox env s.hostId = some box) ∨
      (inv.isPlainService svc ∧ inv.workloadBox env svc.hostId = some box))

theorem mem_workloadElements (h : inv.WellKeyed env kind) :
    n ∈ inv.workloadElements env ↔ (∃ host s, inv.RunsHost s host ∧
        n = .element host.id (hostBoxId env s.hostId) host.id .host (some host.name)) ∨
      ∃ svc box, inv.DrawsService env svc box ∧ n = serviceNode box svc := by
  rw [workloadElements, mem_append, mem_append, mem_machineNodes h, mem_containerNodes h,
    mem_plainServiceNodes, or_assoc]
  refine or_congr_right ⟨?_, ?_⟩
  · rintro (⟨svc, s, box, hruns, hbox, rfl⟩ | ⟨svc, hsvc, hplain, box, hbox, rfl⟩)
    · exact ⟨svc, box, ⟨hruns.1, .inl ⟨s, hruns, hbox⟩⟩, rfl⟩
    · exact ⟨svc, box, ⟨hsvc, .inr ⟨hplain, hbox⟩⟩, rfl⟩
  · rintro ⟨svc, box, ⟨hsvc, ⟨s, hruns, hbox⟩ | ⟨hplain, hbox⟩⟩, rfl⟩
    · exact .inl ⟨svc, s, box, hruns, hbox, rfl⟩
    · exact .inr ⟨svc, hsvc, hplain, box, hbox, rfl⟩

theorem mem_hostIds_of_service (hs : s ∈ inv.services) : s.hostId ∈ inv.hostIds := by
  rw [hostIds]
  exact mem_append_left _ (mem_append_right _ (mem_map_of_mem hs))

theorem RunsHost.mem_services (h : inv.RunsHost s host) :
    s ∈ inv.services := by
  obtain ⟨-, id, -, hs⟩ := h
  exact (mem_of_find?_key hs).1

theorem RunsService.mem_services {svc : Service} (h : inv.RunsService s svc) :
    s ∈ inv.services := by
  obtain ⟨-, id, -, hs⟩ := h
  exact (mem_of_find?_key hs).1

theorem exists_box_of_mem (h : inv.WellKeyed env kind)
    (hn : n ∈ inv.workloadElements env) :
    n.isContainer = false ∧ ∃ hostId ∈ inv.hostIds, n.containerId = some (hostBoxId env hostId) := by
  have hbox : ∀ s ∈ inv.services, ∀ box, inv.workloadBox env s.hostId = some box →
      ∃ hostId ∈ inv.hostIds, box = hostBoxId env hostId := by
    intro s hs box hbox
    obtain ⟨host, s', -, hruns, rfl⟩ | ⟨-, rfl⟩ := (workloadBox_eq h).mp hbox
    · exact ⟨s'.hostId, mem_hostIds_of_service hruns.mem_services, rfl⟩
    · exact ⟨s.hostId, mem_hostIds_of_service hs, rfl⟩
  obtain ⟨host, s, hruns, rfl⟩ | ⟨svc, box, ⟨hsvc, hdraws⟩, rfl⟩ := (mem_workloadElements h).mp hn
  · exact ⟨rfl, s.hostId, mem_hostIds_of_service hruns.mem_services, rfl⟩
  · have hbox : ∃ hostId ∈ inv.hostIds, box = hostBoxId env hostId := by
      obtain ⟨s, hruns, heq⟩ | ⟨-, heq⟩ := hdraws
      · exact hbox s hruns.mem_services box heq
      · exact hbox svc hsvc box heq
    obtain ⟨hostId, hid, rfl⟩ := hbox
    exact ⟨rfl, hostId, hid, rfl⟩

theorem kind_of_mem_workloadElements (h : inv.WellKeyed env kind)
    (hn : n ∈ inv.workloadElements env) : kind n.id = .host ∨ kind n.id = .service := by
  obtain ⟨host, s, hruns, rfl⟩ | ⟨svc, box, ⟨hsvc, -⟩, rfl⟩ := (mem_workloadElements h).mp hn
  · exact .inl (h.host_kind host hruns.1)
  · exact .inr (h.service_kind svc hsvc)

theorem nodup_collected {site : HashSite} {l : List (Uuid × Uuid)} (hl : (l.map Prod.snd).Nodup)
    {f : Uuid × List Uuid → List Node} (hf : ∀ g, ((f g).map (·.id)).Sublist g.2) :
    (((env.order.visit site (Groups.collect l)).flatMap f).map (·.id)).Nodup := by
  have hperm := ((env.order.visit_perm site (Groups.collect l)).flatMap_right Prod.snd).trans
    (Groups.collect_perm l)
  rw [map_flatMap]
  exact nodup_flatMap_of_sublist (hperm.nodup_iff.mpr hl) fun g _ => hf g

theorem nodup_machineNodes (h : inv.WellKeyed env kind) :
    ((inv.machineNodes env).map (·.id)).Nodup := by
  refine nodup_collected ?_ fun g => ?_
  · refine h.hosts.sublist (map_filterMap_sublist _ fun host _ e he => ?_)
    obtain ⟨_, -, rfl⟩ := Option.map_eq_some_iff.mp he
    rfl
  · dsimp only
    split
    · exact nil_sublist _
    · rename_i virtSvc _
      have hsub := @map_filterMap_sublist _ _ g.2 Uuid
        (fun vmHostId => (inv.getHostById vmHostId).map fun vmHost =>
          Node.element vmHostId (hostBoxId env virtSvc.hostId) vmHostId .host (some vmHost.name))
        (·.id) id
      rw [map_id] at hsub
      refine hsub fun hostId _ n hn => ?_
      obtain ⟨host, -, rfl⟩ := Option.map_eq_some_iff.mp hn
      rfl

theorem nodup_containerNodes (h : inv.WellKeyed env kind) :
    ((inv.containerNodes env).map (·.id)).Nodup := by
  refine nodup_collected ?_ fun g => ?_
  · refine h.services.sublist (map_filterMap_sublist _ fun s _ e he => ?_)
    obtain ⟨_, -, rfl⟩ := Option.map_eq_some_iff.mp he
    rfl
  · dsimp only
    split
    · exact nil_sublist _
    · split
      · exact nil_sublist _
      · rename_i box _
        have hsub := @map_filterMap_sublist _ _ g.2 Uuid
          (fun svcId => (inv.getServiceById svcId).map (serviceNode box)) (·.id) id
        rw [map_id] at hsub
        refine hsub fun svcId _ n hn => ?_
        obtain ⟨svc, hsvc, rfl⟩ := Option.map_eq_some_iff.mp hn
        exact (mem_of_find?_key hsvc).2

theorem nodup_workloadElements (h : inv.WellKeyed env kind) :
    ((inv.workloadElements env).map (·.id)).Nodup := by
  rw [workloadElements, map_append, map_append, nodup_append, nodup_append]
  refine ⟨⟨nodup_machineNodes h, nodup_containerNodes h, ?_⟩, ?_, ?_⟩
  · intro id hid id' hid' heq
    obtain ⟨n, hn, rfl⟩ := mem_map.mp hid
    obtain ⟨n', hn', rfl⟩ := mem_map.mp hid'
    obtain ⟨host, s, hruns, rfl⟩ := (mem_machineNodes h).mp hn
    obtain ⟨svc, s', box, hruns', -, rfl⟩ := (mem_containerNodes h).mp hn'
    have heq : host.id = svc.id := heq
    have hkind := h.host_kind host hruns.1
    rw [heq, h.service_kind svc hruns'.1] at hkind
    exact nomatch hkind
  · have hsub : ((inv.services.filter inv.isPlainService).map (·.id)).Nodup :=
      h.services.sublist (filter_sublist.map _)
    refine hsub.sublist (map_filterMap_sublist _ fun s _ n hn => ?_)
    obtain ⟨box, -, rfl⟩ := Option.map_eq_some_iff.mp hn
    rfl
  · intro id hid id' hid' heq
    obtain ⟨n', hn', rfl⟩ := mem_map.mp hid'
    obtain ⟨svc, hsvc, hplain, box, -, rfl⟩ := mem_plainServiceNodes.mp hn'
    subst heq
    rw [← map_append] at hid
    obtain ⟨n, hn, heq⟩ := mem_map.mp hid
    have heq : n.id = svc.id := heq
    obtain hn | hn := mem_append.mp hn
    · obtain ⟨host, s, hruns, rfl⟩ := (mem_machineNodes h).mp hn
      have heq : host.id = svc.id := heq
      have hkind := h.host_kind host hruns.1
      rw [heq, h.service_kind svc hsvc] at hkind
      exact nomatch hkind
    · -- a plain service is run by no other
      obtain ⟨svc', s, box', ⟨hsvc', virtSvcId, hvirt, -⟩, -, rfl⟩ := (mem_containerNodes h).mp hn
      obtain rfl := inj_on_of_nodup_map h.services hsvc' hsvc heq
      rw [isPlainService, hvirt] at hplain
      simp at hplain

end Elements

section Nodes

theorem isBoxName_of_mem_hosts {host : Host} (hhost : host ∈ inv.hosts) :
    inv.IsBoxName (.workloadsHost host.id) := by
  refine .workloadsHost ?_
  rw [hostIds, append_assoc]
  exact mem_append_left _ (mem_map_of_mem hhost)

theorem nodup_workloadsInput (h : Request inv options env kind) :
    ((inv.workloadsInput env).nodes.map (·.id)).Nodup := by
  rw [workloadsInput, map_append, nodup_append]
  refine ⟨?_, nodup_workloadElements h.keyed, ?_⟩
  · rw [hostBoxes, map_map]
    have hnodup : ((inv.hosts.filter fun h => h.virtualizationServiceId.isNone).map (·.id)).Nodup :=
      h.keyed.hosts.sublist (filter_sublist.map _)
    refine (List.Nodup.of_map _ hnodup).map_on fun a ha b hb heq => ?_
    have hname := h.names (.inl (isBoxName_of_mem_hosts (mem_filter.mp ha).1))
      (.inl (isBoxName_of_mem_hosts (mem_filter.mp hb).1)) heq
    exact inj_on_of_nodup_map hnodup ha hb (IdName.workloadsHost.inj hname)
  · intro id hid id' hid' heq
    obtain ⟨n, hn, rfl⟩ := mem_map.mp hid
    obtain ⟨n', hn', rfl⟩ := mem_map.mp hid'
    obtain ⟨host, -, -, rfl⟩ := mem_hostBoxes.mp hn
    have heq : env.newV5 (.workloadsHost host.id) = n'.id := heq
    have hkind := kind_of_mem_workloadElements h.keyed hn'
    rw [← heq, h.keyed.newV5_kind] at hkind
    obtain hkind | hkind := hkind
    · exact nomatch hkind
    · exact nomatch hkind

variable {grouping : GroupingConfig} {n : Node} {id : Uuid}

theorem isIn_workloadsInput (h : inv.WellKeyed env kind) {parentId : Uuid}
    (hin : (inv.workloadsInput env).IsIn id parentId) :
    ∃ n ∈ inv.workloadElements env, n.id = id ∧
      ∃ hostId ∈ inv.hostIds, parentId = hostBoxId env hostId := by
  obtain ⟨n, hn, hparent, hid⟩ := hin
  obtain hn | hn := mem_append.mp hn
  · obtain ⟨host, -, -, rfl⟩ := mem_hostBoxes.mp hn
    exact nomatch hparent
  · obtain ⟨-, hostId, hhostId, hcontainer⟩ := exists_box_of_mem h hn
    rw [hcontainer] at hparent
    exact ⟨n, hn, hid, hostId, hhostId, (Option.some.inj hparent).symm⟩

theorem madeNames_workloadsInput (h : inv.WellKeyed env kind) :
    (inv.workloadsInput env).MadeNames
        (GroupingConfig.fromRequestOptions options .workloads).elementRules ⊆
      inv.names env options.elementRules := by
  refine madeNames_subset (fun id d parentId hd hin => ?_) fun id d rule k hd hk => ?_
  · obtain ⟨-, -, -, hostId, hid, rfl⟩ := isIn_workloadsInput h hin
    exact .inr (.inr ⟨_, .workloadsHost hid, rfl⟩)
  · obtain ⟨n, -, hd⟩ := Option.bind_eq_some_iff.mp hd
    have hd : inv.resolveWorkload n = some d := hd
    unfold resolveWorkload at hd
    split at hd
    · obtain ⟨host, hhost, rfl⟩ := Option.map_eq_some_iff.mp hd
      refine knowsKey_of_key (fun serviceId hvirt => ?_) ?_ hk
      · exact mem_append_left _ (mem_filterMap.mpr
          ⟨host, (mem_of_find?_key hhost).1, hvirt⟩)
      · exact fun _ hproject => nomatch hproject
    · obtain ⟨s, hs, rfl⟩ := Option.map_eq_some_iff.mp hd
      refine knowsKey_of_key (fun serviceId hvirt => ?_) ?_ hk
      · exact mem_append_right _ (mem_filterMap.mpr
          ⟨s, (mem_of_find?_key hs).1, hvirt⟩)
      · exact fun _ hproject => nomatch hproject
    · exact nomatch hd

theorem workloadsInput_ne_madeName (h : Request inv options env kind) {name : IdName}
    (hname : name ∈ (inv.workloadsInput env).MadeNames
      (GroupingConfig.fromRequestOptions options .workloads).elementRules)
    (hn : n ∈ (inv.workloadsInput env).nodes) : n.id ≠ env.newV5 name := by
  refine h.ne_of_madeName (madeNames_workloadsInput h.keyed) ?_ hname
  obtain hn | hn := mem_append.mp hn
  · obtain ⟨host, hhost, -, rfl⟩ := mem_hostBoxes.mp hn
    exact .inr ⟨_, isBoxName_of_mem_hosts hhost, rfl⟩
  · left
    obtain hkind | hkind := kind_of_mem_workloadElements h.keyed hn
    · rw [hkind]
      decide
    · rw [hkind]
      decide

structure RunnersKnown (inv : Inventory) : Prop where
  machines : ∀ s host, inv.RunsHost s host →
    ∃ h ∈ inv.hosts, h.id = s.hostId ∧ h.virtualizationServiceId = none
  services : ∀ s svc, inv.RunsService s svc → ∃ h ∈ inv.hosts, h.id = s.hostId

theorem RunnersKnown.exists_host (hknown : inv.RunnersKnown) (h : inv.WellKeyed env kind)
    (hn : n ∈ inv.workloadElements env) {containerId : Uuid}
    (hcontainer : n.containerId = some containerId) :
    ∃ host ∈ inv.hosts, host.virtualizationServiceId = none ∧ containerId = hostBoxId env host.id := by
  have hbox : ∀ hostId box, (∃ host ∈ inv.hosts, host.id = hostId) →
      inv.workloadBox env hostId = some box →
        ∃ host ∈ inv.hosts, host.virtualizationServiceId = none ∧ box = hostBoxId env host.id := by
    rintro hostId box ⟨host, hhost, rfl⟩ hbox
    obtain ⟨_, s, -, hruns, rfl⟩ | ⟨hvm, rfl⟩ := (workloadBox_eq h).mp hbox
    · obtain ⟨host', hhost', hid, hvirt⟩ := hknown.machines s _ hruns
      exact ⟨host', hhost', hvirt, by rw [hid]⟩
    · refine ⟨host, hhost, ?_, rfl⟩
      have hfind : inv.getHostById host.id = some host := find?_key_of_nodup h.hosts hhost
      rw [isVm, hfind, Option.any_some, ← Bool.not_eq_true, Option.not_isSome_iff_eq_none] at hvm
      exact hvm
  obtain ⟨host, s, hruns, rfl⟩ | ⟨svc, box, ⟨hsvc, hdraws⟩, rfl⟩ := (mem_workloadElements h).mp hn
  · obtain ⟨host', hhost', hid, hvirt⟩ := hknown.machines s host hruns
    refine ⟨host', hhost', hvirt, ?_⟩
    rw [hid]
    exact (Option.some.inj hcontainer).symm
  · obtain rfl := Option.some.inj hcontainer
    obtain ⟨s, hruns, heq⟩ | ⟨hplain, heq⟩ := hdraws
    · exact hbox s.hostId box (hknown.services s svc hruns) heq
    · simp only [isPlainService, Bool.and_eq_true] at hplain
      exact hbox svc.hostId box (find?_key_isSome.mp hplain.2) heq

theorem rooted_workloadsInput (h : Request inv options env kind) (hknown : inv.RunnersKnown) :
    Rooted (inv.workloadsInput env).nodes where
  nodup := nodup_workloadsInput h
  container n hn hcont := by
    obtain hn | hn := mem_append.mp hn
    · obtain ⟨host, -, -, rfl⟩ := mem_hostBoxes.mp hn
      rfl
    · rw [(exists_box_of_mem h.keyed hn).1] at hcont
      exact nomatch hcont
  element n hn containerId hcontainer := by
    obtain hn | hn := mem_append.mp hn
    · obtain ⟨host, -, -, rfl⟩ := mem_hostBoxes.mp hn
      exact nomatch hcontainer
    · obtain ⟨host, hhost, hvirt, rfl⟩ := hknown.exists_host h.keyed hn hcontainer
      refine ⟨_, mem_append_left _ (mem_hostBoxes.mpr ⟨host, hhost, hvirt, rfl⟩), rfl, rfl⟩

theorem workloadContainer_cases (h : inv.WellKeyed env kind)
    {rules : List (IdentifiedRule ElementRule)}
    (hn : n ∈ (applyElementRules (inv.workloadsInput env) rules).1) (hcont : n.isContainer) :
    (∃ host ∈ inv.hosts, host.virtualizationServiceId = none ∧ n.id = hostBoxId env host.id ∧
        n.isHostBox ∧ n.parentId = none) ∨
      n ∈ ((inv.workloadsInput env).runRules rules).newContainers := by
  obtain ⟨m, hm, rfl⟩ | hn := mem_applyElementRules.mp hn
  · rw [Node.reassign_isContainer] at hcont
    rw [Node.reassign_of_isContainer hcont]
    obtain hm' | hm' := mem_append.mp hm
    · obtain ⟨host, hhost, hvirt, rfl⟩ := mem_hostBoxes.mp hm'
      exact .inl ⟨host, hhost, hvirt, rfl, rfl, rfl⟩
    · rw [(exists_box_of_mem h hm').1] at hcont
      exact nomatch hcont
  · exact .inr hn

theorem boxed_applyElementRules (h : Request inv options env kind) :
    Boxed (applyElementRules (inv.workloadsInput env)
      (GroupingConfig.fromRequestOptions options .workloads).elementRules).1 where
  nodup := nodup_applyElementRules (nodup_workloadsInput h) (h.viewRules .workloads)
    (h.names.mono (madeNames_workloadsInput h.keyed))
    fun _ hname _ hn => workloadsInput_ne_madeName h hname hn
  hostBox n hn hcont := by
    obtain ⟨-, -, -, -, hbox, hroot⟩ | hn := workloadContainer_cases h.keyed hn hcont
    · exact iff_of_true hbox hroot
    · obtain ⟨-, r, -, g, -, -, hparent⟩ := exists_group_of_mem_newContainers hn
      rw [isHostBox_of_mem_newContainers hn, hparent]
      exact iff_of_false Bool.false_ne_true (fun heq => nomatch heq)
  flat n hn hcont m hm hmcont hparent := by
    obtain ⟨-, -, -, -, -, hroot⟩ | hm := workloadContainer_cases h.keyed hm hmcont
    · exact hroot
    obtain ⟨-, -, -, -, -, hroot⟩ | hn := workloadContainer_cases h.keyed hn hcont
    · rw [hroot] at hparent
      exact nomatch hparent
    -- the container of a new container is a box, and the rules make no id of a box
    obtain ⟨-, r', hr', g', hg', hmid, -⟩ := exists_group_of_mem_newContainers hm
    obtain ⟨-, r, hr, g, ⟨id, d, hin, -, -⟩, -, hgparent⟩ :=
      exists_group_of_mem_newContainers hn
    obtain ⟨-, -, -, hostId, hid, hbox⟩ := isIn_workloadsInput h.keyed hin
    rw [hgparent, Option.some.injEq] at hparent
    exact absurd hmid (h.ne_of_madeName (madeNames_workloadsInput h.keyed)
      (.inr ⟨_, .workloadsHost hid, hparent.symm.trans hbox⟩) ⟨r', hr', g', hg', rfl⟩)

theorem shape_workloadsInlined (grouping : GroupingConfig) :
    (inv.workloadsInlined env grouping).map Node.shape =
      ((applyElementRules (inv.workloadsInput env) grouping.elementRules).1.filter fun n =>
        !isInlined (inv.workloadsPlacements env grouping) n.id).map Node.shape :=
  shape_attachInlineGroups _ _

theorem exists_mem_workloadsInlined
    (hn : n ∈ (applyElementRules (inv.workloadsInput env) grouping.elementRules).1)
    (hinlined : isInlined (inv.workloadsPlacements env grouping) n.id = false) :
    ∃ n' ∈ inv.workloadsInlined env grouping, n'.id = n.id ∧ n'.isContainer = n.isContainer ∧
      n'.parentId = n.parentId ∧ n'.isHostBox = n.isHostBox := by
  refine exists_of_shape (shape_workloadsInlined grouping) (mem_filter.mpr ⟨hn, ?_⟩)
  rw [hinlined, Bool.not_false]

theorem boxed_workloadsInlined (h : Request inv options env kind) :
    Boxed (inv.workloadsInlined env (.fromRequestOptions options .workloads)) :=
  ((boxed_applyElementRules h).filter _).of_shape (shape_workloadsInlined _)

theorem kind_of_isInlined (h : inv.WellKeyed env kind)
    (hinlined : isInlined (inv.workloadsPlacements env grouping) id) : kind id = .service := by
  unfold isInlined at hinlined
  split at hinlined
  · rename_i nodeId group hget
    obtain ⟨r, -, inline, hinline, hinlines⟩ := exists_inlines_of_get hget
    obtain rfl := Option.some.inj hinline
    generalize r.rule = rule at hinlines
    cases hinlines with
    | machine hsvc _ _ _ _ => exact h.service_kind _ hsvc
    | header _ hvirtSvc _ =>
      obtain ⟨hmem, hid⟩ := mem_of_find?_key hvirtSvc
      exact hid ▸ h.service_kind _ hmem
    | member hmem _ _ hsvcId =>
      obtain ⟨svc, hsvc, -, rfl⟩ := mem_virtToContainerSvcs hmem hsvcId
      exact h.service_kind svc hsvc
  · exact nomatch hinlined

theorem not_isInlined_of_container (h : inv.WellKeyed env kind)
    (hn : n ∈ (applyElementRules (inv.workloadsInput env) grouping.elementRules).1)
    (hcont : n.isContainer) : isInlined (inv.workloadsPlacements env grouping) n.id = false := by
  have hkind : kind n.id = .topology := by
    obtain ⟨host, -, -, hid, -⟩ | hn := workloadContainer_cases h hn hcont
    · rw [hid]
      exact h.newV5_kind _
    · obtain ⟨-, r, -, g, -, hid, -⟩ := exists_group_of_mem_newContainers hn
      rw [hid]
      exact h.newV5_kind _
  rw [Bool.eq_false_iff]
  intro hinlined
  rw [kind_of_isInlined h hinlined] at hkind
  exact nomatch hkind

theorem layered_workloads (h : Request inv options env kind) (hknown : inv.RunnersKnown) :
    Layered (inv.buildWorkloads env (.fromRequestOptions options .workloads)).1 := by
  have hrules := layered_applyElementRules (rooted_workloadsInput h hknown) (h.viewRules .workloads)
    (h.names.mono (madeNames_workloadsInput h.keyed))
    fun _ hname _ hn => workloadsInput_ne_madeName h hname hn
  refine Layered.removal ?_ (boxed_workloadsInlined h)
  refine Layered.of_shape (shape_workloadsInlined _) (hrules.filter_elements fun n hn hcont => ?_)
  rw [not_isInlined_of_container h.keyed hn hcont, Bool.not_false]

end Nodes

section Parents

variable {n : Node} {s svc : Service} {hostId : Uuid}

theorem exists_host_of_container (h : Request inv options env kind)
    (hid : hostId ∈ inv.hostIds)
    (hn : n ∈ inv.workloadsInlined env (.fromRequestOptions options .workloads)) (hcont : n.isContainer)
    (hbox : n.id = hostBoxId env hostId) :
    ∃ host ∈ inv.hosts, host.id = hostId ∧ host.virtualizationServiceId = none := by
  obtain ⟨m, hm, hmid, hmcont, -⟩ := exists_of_shape (shape_workloadsInlined _).symm hn
  rw [← hmid] at hbox
  rw [← hmcont] at hcont
  obtain ⟨host, hhost, hvirt, heq, -⟩ | hm :=
    workloadContainer_cases h.keyed (mem_of_mem_filter hm) hcont
  · have hname := h.names (.inl (isBoxName_of_mem_hosts hhost)) (.inl (.workloadsHost hid))
      (heq.symm.trans hbox)
    exact ⟨host, hhost, IdName.workloadsHost.inj hname, hvirt⟩
  · obtain ⟨-, r, hr, g, hg, hgid, -⟩ := exists_group_of_mem_newContainers hm
    exact absurd hgid (h.ne_of_madeName (madeNames_workloadsInput h.keyed)
      (.inr ⟨_, .workloadsHost hid, hbox⟩) ⟨r, hr, g, hg, rfl⟩)

theorem matchData_service (h : Request inv options env kind) (hsvc : svc ∈ inv.services)
    {box : Uuid} (hn : serviceNode box svc ∈ inv.workloadElements env) :
    (inv.workloadsInput env).matchData svc.id = some {
      categories := [svc.serviceDefinition.category]
      tagIds := svc.tags
      elementEntity := .service
      virtualizerServiceId := svc.virtualizationServiceId } := by
  have hfind : inv.getServiceById svc.id = some svc := find?_key_of_nodup h.keyed.services hsvc
  have hdata := matchData_of_mem (nodup_workloadsInput h) (mem_append_right _ hn) rfl
  refine hdata.trans ?_
  show (inv.getServiceById svc.id).map _ = _
  rw [hfind, Option.map_some]

theorem isIn_unique (h : Request inv options env kind)
    (hn : n ∈ inv.workloadElements env) {containerId : Uuid}
    (hcontainer : n.containerId = some containerId) {parentId : Uuid}
    (hin : (inv.workloadsInput env).IsIn n.id parentId) : parentId = containerId := by
  obtain ⟨m, hm, hparent, hid⟩ := hin
  have heq := inj_on_of_nodup_map (nodup_workloadsInput h) hm (mem_append_right _ hn) hid
  rw [heq, hcontainer] at hparent
  exact (Option.some.inj hparent).symm

theorem places_of_runsService (h : Request inv options env kind)
    (hruns : inv.RunsService s svc) (hvm : inv.isVm s.hostId = false) {virtSvcId : Uuid}
    (hvirt : svc.virtualizationServiceId = some virtSvcId) {r : IdentifiedRule ElementRule}
    (hrule : r.rule = .byContainerRuntime) :
    (inv.workloadsInput env).Places r svc.id (.virtualizer virtSvcId) := by
  obtain ⟨hsvc, virtSvcId', hvirt', hs⟩ := hruns
  obtain rfl := Option.some.inj (hvirt.symm.trans hvirt')
  have hbox : inv.workloadBox env s.hostId = some (hostBoxId env s.hostId) :=
    (workloadBox_eq h.keyed).mpr (.inr ⟨hvm, rfl⟩)
  have hn := (mem_workloadElements h.keyed).mpr
    (.inr ⟨svc, _, ⟨hsvc, .inl ⟨s, ⟨hsvc, virtSvcId, hvirt, hs⟩, hbox⟩⟩, rfl⟩)
  refine ⟨?_, fun serviceId inline hkey hinline => ?_⟩
  · rw [matchData_service h hsvc hn, hrule]
    simp [ElementRule.key, PlacementContext.virtualizerKey, hvirt]
  · obtain rfl := Option.some.inj hinline
    obtain rfl := GroupKey.virtualizer.inj hkey
    have hfind : inv.inlineContext.getService virtSvcId = some s := hs
    rw [InlineContext.runsOnMachine, hfind, Option.any_some]
    exact hvm

variable (h : Request inv options env kind)
  (hforest : (buildGraph env inv options .workloads).IsForest)
include h hforest

theorem exists_host_of_newContainer {c : Node}
    (hc : c ∈ ((inv.workloadsInput env).runRules
      (GroupingConfig.fromRequestOptions options .workloads).elementRules).newContainers)
        (hid : hostId ∈ inv.hostIds) (hparent : c.parentId = some (hostBoxId env hostId)) :
    ∃ host ∈ inv.hosts, host.id = hostId ∧ host.virtualizationServiceId = none := by
  have hccont := (exists_group_of_mem_newContainers hc).1
  have hcmem := mem_applyElementRules.mpr (.inr hc)
  have hckept := not_isInlined_of_container h.keyed hcmem hccont
  obtain ⟨c', hc', -, hcont', hparent', -⟩ := exists_mem_workloadsInlined hcmem hckept
  rw [← hcont'] at hccont
  rw [← hparent'] at hparent
  have hboxed := boxed_workloadsInlined h
  by_cases hremoved : c'.id ∈ inv.workloadsRemoved env (.fromRequestOptions options .workloads)
  · -- it goes only together with its box
    obtain ⟨hbox, -⟩ := (hboxed.mem_idsToRemove_sub hc' hccont hparent).mp hremoved
    obtain ⟨m, hm, hmbox, hmid⟩ := isHostBoxId_iff.mp hbox
    exact exists_host_of_container h hid hm (Node.isContainer_of_isHostBox hmbox) hmid
  · have hmem : c' ∈ (buildGraph env inv options .workloads).nodes :=
      mem_filter.mpr ⟨hc', decide_eq_true hremoved⟩
    obtain ⟨m, hm, hmid, hmcont⟩ := hforest.parent_container c' hmem _ hparent
    exact exists_host_of_container h hid (mem_of_mem_filter hm) hmcont hmid

theorem exists_host_of_element (hn : n ∈ inv.workloadElements env)
    (hinlined : isInlined (inv.workloadsPlacements env (.fromRequestOptions options .workloads)) n.id
      = false) (hid : hostId ∈ inv.hostIds)
    (hcontainer : n.containerId = some (hostBoxId env hostId)) :
    ∃ host ∈ inv.hosts, host.id = hostId ∧ host.virtualizationServiceId = none := by
  have hmem : n.reassign ((inv.workloadsInput env).runRules
      (GroupingConfig.fromRequestOptions options .workloads).elementRules).reassignments ∈
        (applyElementRules (inv.workloadsInput env)
          (GroupingConfig.fromRequestOptions options .workloads).elementRules).1 :=
    mem_applyElementRules.mpr (.inl ⟨n, mem_append_right _ hn, rfl⟩)
  have helem := Node.isContainer_of_containerId hcontainer
  obtain hkept | ⟨c, hc, -, hcparent⟩ := @reassign_cases (inv.workloadsInput env)
    (GroupingConfig.fromRequestOptions options .workloads).elementRules n _ hcontainer
    fun _ hin => isIn_unique h hn hcontainer hin
  · rw [← @Node.reassign_id ((inv.workloadsInput env).runRules
      (GroupingConfig.fromRequestOptions options .workloads).elementRules).reassignments n] at hinlined
    obtain ⟨n', hn', -, hcont', hparent', -⟩ := exists_mem_workloadsInlined hmem hinlined
    rw [Node.reassign_isContainer, helem] at hcont'
    rw [hkept] at hparent'
    have hkept' := (boxed_workloadsInlined h).not_mem_idsToRemove_element hn' hcont'
    have hmem' : n' ∈ (buildGraph env inv options .workloads).nodes :=
      mem_filter.mpr ⟨hn', decide_eq_true hkept'⟩
    obtain ⟨m, hm, hmid, hmcont⟩ := hforest.parent_container n' hmem' _ hparent'
    exact exists_host_of_container h hid (mem_of_mem_filter hm) hmcont hmid
  · exact exists_host_of_newContainer h hforest hc hid hcparent

/-- A service that its runtime runs is put into a subcontainer, even if it is then shown on a
machine as a runtime itself. -/
theorem exists_host_of_inlined (hruns : inv.RunsService s svc)
    (hvm : inv.isVm s.hostId = false)
    (hinlined : isInlined (inv.workloadsPlacements env (.fromRequestOptions options .workloads))
      svc.id) : ∃ host ∈ inv.hosts, host.id = s.hostId ∧ host.virtualizationServiceId = none := by
  obtain ⟨hsvc, virtSvcId, hvirt, hs⟩ := hruns
  have hbox : inv.workloadBox env s.hostId = some (hostBoxId env s.hostId) :=
    (workloadBox_eq h.keyed).mpr (.inr ⟨hvm, rfl⟩)
  have hn := (mem_workloadElements h.keyed).mpr
    (.inr ⟨svc, _, ⟨hsvc, .inl ⟨s, ⟨hsvc, virtSvcId, hvirt, hs⟩, hbox⟩⟩, rfl⟩)
  obtain ⟨r, hr, hrule⟩ : ∃ r ∈ (GroupingConfig.fromRequestOptions options .workloads).elementRules,
      r.rule = .byContainerRuntime := by
    unfold isInlined at hinlined
    split at hinlined
    · rename_i nodeId group hget
      obtain ⟨r, hr, inline, hinline, hinlines⟩ := exists_inlines_of_get hget
      obtain rfl := Option.some.inj hinline
      refine ⟨r, hr, ?_⟩
      generalize r.rule = rule at hinlines
      generalize hid : svc.id = id at hinlines
      cases hinlines with
      | machine hsvc' _ _ _ hplain =>
        rw [← inj_on_of_nodup_map h.keyed.services hsvc hsvc' hid, hvirt] at hplain
        exact nomatch hplain
      | header => rfl
      | member => rfl
    · exact nomatch hinlined
  have hplaces : (inv.workloadsInput env).Places r svc.id (.virtualizer virtSvcId) :=
    places_of_runsService h ⟨hsvc, virtSvcId, hvirt, hs⟩ hvm hvirt hrule
  obtain ⟨c, hc, parentId, hparent, hin⟩ :=
    exists_container_of_mem_claimed (mem_claimed_of_places hr hplaces)
  rw [isIn_unique h hn rfl hin] at hparent
  exact exists_host_of_newContainer h hforest hc
    (mem_hostIds_of_service (mem_of_find?_key hs).1) hparent

theorem runnersKnown_of_isForest : inv.RunnersKnown := by
  refine ⟨fun s host hruns => ?_, fun s svc hruns => ?_⟩
  · have hn := (mem_workloadElements h.keyed).mpr (.inl ⟨host, s, hruns, rfl⟩)
    refine exists_host_of_element h hforest hn ?_ (mem_hostIds_of_service hruns.mem_services) rfl
    rw [Bool.eq_false_iff]
    intro hinlined
    have hkind := kind_of_isInlined h.keyed hinlined
    have hhost : kind host.id = .host := h.keyed.host_kind host hruns.1
    rw [Node.element, hhost] at hkind
    cases hkind
  · cases hvm : inv.isVm s.hostId with
    | true =>
      obtain ⟨host, -, hhost, -⟩ := isVm_iff.mp hvm
      exact ⟨host, mem_of_find?_key hhost⟩
    | false =>
      have hbox : inv.workloadBox env s.hostId = some (hostBoxId env s.hostId) :=
        (workloadBox_eq h.keyed).mpr (.inr ⟨hvm, rfl⟩)
      have hid := mem_hostIds_of_service hruns.mem_services
      have hn := (mem_workloadElements h.keyed).mpr
        (.inr ⟨svc, _, ⟨hruns.1, .inl ⟨s, hruns, hbox⟩⟩, rfl⟩)
      suffices hknown : ∃ host ∈ inv.hosts, host.id = s.hostId ∧ host.virtualizationServiceId = none by
        obtain ⟨host, hhost, hid, -⟩ := hknown
        exact ⟨host, hhost, hid⟩
      cases hinlined : isInlined
          (inv.workloadsPlacements env (.fromRequestOptions options .workloads)) svc.id with
      | false => exact exists_host_of_element h hforest hn hinlined hid rfl
      | true => exact exists_host_of_inlined h hforest hruns hvm hinlined

end Parents

end Inventory

end Scanopy.Graph
