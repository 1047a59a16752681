import Scanopy.Graph.SubnetForest
import Scanopy.Graph.WorkloadsForest

/-! Containment. Two of the graphs are forests for all entities; the other two draw ports for every
host of a link and machines for their hosts, which must be among the entities. -/

namespace Scanopy.Graph

open List

variable {inv : Inventory} {options : TopologyRequestOptions} {env : BuildEnv}
  {kind : Uuid → EntityDiscriminants}

def Inventory.BoxesKnown (inv : Inventory) : TopologyView → Prop
  | .l3Logical | .application => True
  | .l2Physical => inv.PortsKnown
  | .workloads => inv.RunnersKnown

theorem layered_buildView (h : Request inv options env kind) {view : TopologyView}
    (hknown : inv.BoxesKnown view) :
    Layered (buildView env inv (.fromRequestOptions options view) view).1 := by
  cases view with
  | l3Logical => exact layered_l3 h
  | application => exact layered_application h
  | l2Physical => exact Inventory.layered_l2 h hknown
  | workloads => exact Inventory.layered_workloads h hknown

theorem isForest_buildGraph_iff (h : Request inv options env kind) (view : TopologyView) :
    (buildGraph env inv options view).IsForest ↔ inv.BoxesKnown view := by
  constructor
  · intro hforest
    cases view with
    | l3Logical => exact trivial
    | application => exact trivial
    | l2Physical => exact Inventory.portsKnown_of_isForest h hforest
    | workloads => exact Inventory.runnersKnown_of_isForest h hforest
  · exact fun hknown => isForest_of_layered (layered_buildView h hknown)

section Machine

private def hypervisorId : Uuid := 0x3f2b8c1e5a474d098b6e91c2d7f0a413

private def machineId : Uuid := 0xa91d4e702c3b4f589e076b8f1d2c5e34

private def proxmoxId : Uuid := 0x5c0e7a928d144b63a2f90e4d3b7c6158

private def machineInventory (hosts : List Host) : Inventory where
  hosts := { id := machineId, name := "vm", virtualizationServiceId := some proxmoxId } :: hosts
  services := [{
    id := proxmoxId
    hostId := hypervisorId
    name := "Proxmox VE"
    serviceDefinition := ⟨"Proxmox VE", .hypervisor, true⟩ }]

private def machineEnv : BuildEnv where
  newV5
    | .workloadsHost id => if id = hypervisorId then 0xb01a001c6efe5ac6a091c8174d36c8b1
        else 0xda40f85e299b5053af371bb34c6869b8
    | .l2Host id => if id = hypervisorId then 0x3e92589b68f053689b0cdf9e02e5a2d0
        else 0xcfe219d8155a51adaee20f9cd5c09e63
    | _ => 0x0a68eb57c88a5f349e9d27f85e68af4f
  order := ⟨fun _ l => l, fun _ l => .refl l⟩

private def machineKind (id : Uuid) : EntityDiscriminants :=
  if id = hypervisorId ∨ id = machineId then .host
  else if id = proxmoxId then .service
  else if id = ungroupedContainerId then .unknown
  else .topology

private theorem request_machineInventory {hosts : List Host}
    (hhosts : hosts = [] ∨ hosts = [{ id := hypervisorId, name := "pve" }]) :
    Request (machineInventory hosts) {} machineEnv machineKind where
  keyed := by
    obtain rfl | rfl := hhosts
    all_goals
      refine ⟨by decide, by decide, by decide, by decide, by decide, by decide,
        forall_mem_nil _, forall_mem_nil _, forall_mem_nil _, forall_mem_nil _,
        forall_mem_nil _, fun name => ?_, by decide⟩
      cases name <;> simp only [machineEnv] <;> (try split) <;> decide
  rules := nodup_nil
  names := by
    have hids : (machineInventory hosts).hostIds ⊆ [machineId, hypervisorId] := by
      obtain rfl | rfl := hhosts <;> decide
    exact Inventory.injOn_names hids rfl (by decide)

theorem isForest_buildGraph_machine :
    (machineInventory [{ id := hypervisorId, name := "pve" }]).BoxesKnown .workloads ∧
      (buildGraph machineEnv (machineInventory [{ id := hypervisorId, name := "pve" }]) {}
        .workloads).IsForest := by
  have hknown : (machineInventory [{ id := hypervisorId, name := "pve" }]).BoxesKnown .workloads := by
    refine ⟨?_, ?_⟩
    · rintro s host ⟨-, id, -, hs⟩
      obtain rfl := mem_singleton.mp (Lookup.mem_of_find?_key hs).1
      exact ⟨{ id := hypervisorId, name := "pve" }, by decide, rfl, rfl⟩
    · rintro s svc ⟨hsvc, id, hvirt, -⟩
      obtain rfl := mem_singleton.mp hsvc
      exact nomatch hvirt
  exact ⟨hknown, (isForest_buildGraph_iff (request_machineInventory (.inr rfl)) .workloads).mpr hknown⟩

/-- A machine whose hypervisor is hidden is in a box that is not there. -/
theorem not_isForest_hidden_hypervisor :
    Request (machineInventory []) {} machineEnv machineKind ∧
      ¬(buildGraph machineEnv (machineInventory []) {} .workloads).IsForest := by
  refine ⟨request_machineInventory (.inl rfl), fun hforest => ?_⟩
  have hparents : ¬∀ n ∈ (buildGraph machineEnv (machineInventory []) {} .workloads).nodes,
      ∀ parentId ∈ n.parentId, ∃ m ∈ (buildGraph machineEnv (machineInventory []) {} .workloads).nodes,
        m.id = parentId ∧ m.isContainer := by decide +kernel
  exact hparents fun n hn parentId hparent => hforest.parent_container n hn parentId hparent

end Machine

end Scanopy.Graph
