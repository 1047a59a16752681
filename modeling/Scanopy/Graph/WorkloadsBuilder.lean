import Scanopy.Graph.EdgeBuilder
import Scanopy.Graph.ElementRules

/-! The view of the workloads. A host that is no virtual machine gets a box for its machines and
services; services of machines are there until the rules show them on their machine. Boxes that end
up without an element are taken out. -/

namespace Scanopy.Graph

namespace Node

def pushInlineGroup (g : InlineGroup) (n : Node) : Node :=
  match n.nodeType with
  | .element data =>
    { n with nodeType := .element { data with inlineGroups := data.inlineGroups ++ [g] } }
  | .container _ => n

end Node

def attachInlineGroup (nodeId : Uuid) (g : InlineGroup) : List Node → List Node
  | [] => []
  | n :: nodes =>
    if n.id = nodeId then n.pushInlineGroup g :: nodes else n :: attachInlineGroup nodeId g nodes

def attachInlineGroups (nodes : List Node) (decisions : Placements) : List Node :=
  decisions.foldl (fun nodes (_, decision) => match decision with
    | .inlineOn nodeId (some g) => attachInlineGroup nodeId g nodes
    | _ => nodes) nodes

def isInlined (placements : Placements) (id : Uuid) : Bool :=
  match Inserts.get placements id with
  | some (.inlineOn ..) => true
  | _ => false

section Removal
variable (nodes : List Node)

def containerParent (id : Uuid) : Option Uuid :=
  (nodes.find? fun n => n.isContainer && n.id = id).bind (·.parentId)

def isHostBoxId (id : Uuid) : Bool := nodes.any fun n => n.isHostBox && n.id = id

/-- Goes up to the box of a host. The parents make no cycle, so there are at most as many steps as
there are nodes. -/
def walkToHostBox : ℕ → Uuid → Uuid
  | 0, current => current
  | fuel + 1, current =>
    if isHostBoxId nodes current then current
    else match containerParent nodes current with
      | some parent => walkToHostBox fuel parent
      | none => current

def walkToTop : ℕ → Uuid → Uuid
  | 0, current => current
  | fuel + 1, current => match containerParent nodes current with
    | some parent => walkToTop fuel parent
    | none => current

def isOccupied (id : Uuid) : Bool :=
  isHostBoxId nodes id && nodes.any fun n =>
    n.containerId.any fun c => walkToHostBox nodes nodes.length c = id

def isRemoved (n : Node) : Bool :=
  match n.nodeType with
  | .element _ => false
  | .container data =>
    (data.containerType = .host && !isOccupied nodes n.id) ||
      (data.parentContainerId.isSome &&
        isHostBoxId nodes (walkToTop nodes nodes.length n.id) &&
        !isOccupied nodes (walkToTop nodes nodes.length n.id))

def idsToRemove : List Uuid := (nodes.filter (isRemoved nodes)).map (·.id)

end Removal

namespace Inventory
variable (inv : Inventory)

section Elements

def virtToVmHosts : List (Uuid × List Uuid) :=
  Groups.collect (inv.hosts.filterMap fun h => h.virtualizationServiceId.map (·, h.id))

def virtToContainerSvcs : List (Uuid × List Uuid) :=
  Groups.collect (inv.services.filterMap fun s => s.virtualizationServiceId.map (·, s.id))

def isVm (hostId : Uuid) : Bool := (inv.getHostById hostId).any (·.virtualizationServiceId.isSome)

def hostBoxId (env : BuildEnv) (hostId : Uuid) : Uuid := env.newV5 (.workloadsHost hostId)

def hostBoxes (env : BuildEnv) : List Node :=
  (inv.hosts.filter fun h => h.virtualizationServiceId.isNone).map fun h => {
    id := hostBoxId env h.id
    nodeType := .container { containerType := .host, entityId := some h.id }
    header := some h.name }

def machineNodes (env : BuildEnv) : List Node :=
  (env.order.visit .machines inv.virtToVmHosts).flatMap fun (virtSvcId, vmHostIds) =>
    match inv.getServiceById virtSvcId with
    | none => []
    | some virtSvc => vmHostIds.filterMap fun vmHostId => (inv.getHostById vmHostId).map fun vmHost =>
      .element vmHostId (hostBoxId env virtSvc.hostId) vmHostId .host (some vmHost.name)

def hypervisorHostId (env : BuildEnv) (hostId : Uuid) : Option Uuid :=
  ((env.order.visit .machines inv.virtToVmHosts).find? fun e => hostId ∈ e.2).bind fun e =>
    (inv.getServiceById e.1).map (·.hostId)

def workloadBox (env : BuildEnv) (hostId : Uuid) : Option Uuid :=
  if inv.isVm hostId then (inv.hypervisorHostId env hostId).map (hostBoxId env)
  else some (hostBoxId env hostId)

def serviceNode (box : Uuid) (s : Service) : Node := .element s.id box s.hostId .service (some s.name)

def containerNodes (env : BuildEnv) : List Node :=
  (env.order.visit .containers inv.virtToContainerSvcs).flatMap fun (virtSvcId, containerSvcIds) =>
    match inv.getServiceById virtSvcId with
    | none => []
    | some virtSvc =>
      match inv.workloadBox env virtSvc.hostId with
      | none => []
      | some box => containerSvcIds.filterMap fun svcId =>
        (inv.getServiceById svcId).map (serviceNode box)

def isPlainService (s : Service) : Bool :=
  !s.serviceDefinition.isVirtualizer && s.virtualizationServiceId.isNone &&
    s.serviceDefinition.category ≠ .openPorts && (inv.getHostById s.hostId).isSome

def plainServiceNodes (env : BuildEnv) : List Node :=
  (inv.services.filter inv.isPlainService).filterMap fun s =>
    (inv.workloadBox env s.hostId).map fun box => serviceNode box s

def workloadElements (env : BuildEnv) : List Node :=
  inv.machineNodes env ++ inv.containerNodes env ++ inv.plainServiceNodes env

end Elements

section Rules

def virtualizerTitle (serviceId : Uuid) : Option String :=
  ((inv.services.filter (·.serviceDefinition.isVirtualizer)).find? fun s => s.id = serviceId).map
    (·.serviceDefinition.name)

def inlineContext : InlineContext where
  hosts := inv.hosts
  services := inv.services
  virtToContainerSvcs := inv.virtToContainerSvcs

def resolveWorkload (n : Node) : Option ElementMatchData :=
  match n.nodeType with
  | .element { element := .host, .. } => (inv.getHostById n.id).map fun h => {
      tagIds := h.tags
      elementEntity := .host
      virtualizerServiceId := h.virtualizationServiceId }
  | .element { element := .service, .. } => (inv.getServiceById n.id).map fun s => {
      categories := [s.serviceDefinition.category]
      tagIds := s.tags
      elementEntity := .service
      virtualizerServiceId := s.virtualizationServiceId }
  | _ => none

def workloadsInput (env : BuildEnv) : RuleInput where
  env
  nodes := inv.hostBoxes env ++ inv.workloadElements env
  resolveElement := inv.resolveWorkload
  virtualizerTitles := inv.virtualizerTitle
  inlineCtx := some inv.inlineContext

def workloadsPlacements (env : BuildEnv) (grouping : GroupingConfig) : Placements :=
  (applyElementRules (inv.workloadsInput env) grouping.elementRules).2

def workloadsInlined (env : BuildEnv) (grouping : GroupingConfig) : List Node :=
  let placements := inv.workloadsPlacements env grouping
  attachInlineGroups
    ((applyElementRules (inv.workloadsInput env) grouping.elementRules).1.filter fun n =>
      !isInlined placements n.id)
    (env.order.visit .placements (Inserts.entries placements))

def workloadsRemoved (env : BuildEnv) (grouping : GroupingConfig) : List Uuid :=
  idsToRemove (inv.workloadsInlined env grouping)

def workloadsNodes (env : BuildEnv) (grouping : GroupingConfig) : List Node :=
  (inv.workloadsInlined env grouping).filter fun n => n.id ∉ inv.workloadsRemoved env grouping

end Rules

section Edges

/-- A link between the boxes of two hosts. The pair is noted once both are drawn. -/
def boxLink (env : BuildEnv) (removed : List Uuid) (e : Interface) :
    Option ((Uuid × Uuid) × Option Edge) :=
  match e.neighbor with
  | some (.interface targetId) => (inv.getInterfaceById targetId).bind fun t =>
    if e.hostId = t.hostId then none
    else if hostBoxId env e.hostId ∈ removed || hostBoxId env t.hostId ∈ removed then none
    else some (pairKey e.id targetId, some {
      source := hostBoxId env e.hostId
      target := hostBoxId env t.hostId
      edgeType := .physicalLink e.id t.id .lldp
      label := linkLabel e.displayName t.displayName })
  | _ => none

def boxLinks (env : BuildEnv) (removed : List Uuid) : List Edge :=
  Once.onceBy (inv.boxLink env removed) [] inv.getInterfacesWithNeighbor

def boxNeighborLinks (env : BuildEnv) (removed : List Uuid) : List Edge :=
  (inv.createNeighborLinkEdges (hostBoxId env)
    (inv.physicalLinkHostPairs (inv.boxLinks env removed))).filter
      fun edge => edge.source ∉ removed && edge.target ∉ removed

def serviceToNode (placements : Placements) (elementNodeIds : List Uuid) (serviceId : Uuid) :
    Option Uuid :=
  (inv.getServiceById serviceId).bind fun s =>
    match Inserts.get placements s.id with
    | some .element | some (.placeInContainer _) | none =>
      if s.id ∈ elementNodeIds then some s.id else none
    | some (.becomeSubcontainer containerId) => some containerId
    | some (.inlineOn nodeId _) => if nodeId ∈ elementNodeIds then some nodeId else none

def workloadMembers (toNode : Uuid → Option Uuid) (d : Dependency) : List Uuid :=
  match d.members with
  | .services serviceIds => serviceIds.filterMap toNode
  | .bindings bindingIds =>
    (bindingIds.filterMap fun b => (inv.bindingToService b).bind toNode).foldl pushDistinct []

def workloadDependencyEdges (toNode : Uuid → Option Uuid) : List Edge :=
  inv.dependencies.flatMap fun d =>
    if (inv.workloadMembers toNode d).length < 2 then [] else serviceEdges d (inv.workloadMembers toNode d)

def buildWorkloads (env : BuildEnv) (grouping : GroupingConfig) : List Node × List Edge :=
  let nodes := inv.workloadsNodes env grouping
  let removed := inv.workloadsRemoved env grouping
  let elementNodeIds := (nodes.filter fun n => !n.isContainer).map (·.id)
  (nodes, inv.boxLinks env removed ++ inv.boxNeighborLinks env removed ++
    inv.workloadDependencyEdges
      (inv.serviceToNode (inv.workloadsPlacements env grouping) elementNodeIds))

end Edges

end Inventory

end Scanopy.Graph
