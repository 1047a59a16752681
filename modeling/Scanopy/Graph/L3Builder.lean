import Scanopy.Graph.EdgeBuilder
import Scanopy.Graph.ElementRules

/-! The view of the subnets. Every address is an element of its subnet, or of the first bridge of
its host and runtime where bridges are merged; the rules run once for every subnet. -/

namespace Scanopy.Graph

structure SubnetChildData where
  id : Uuid
  header : Option String
  hostId : Uuid
  ipAddressId : Option Uuid

namespace Inventory
variable (inv : Inventory)

def computeContainerBridgeGrouping : List ((Uuid × SubnetType) × Uuid) :=
  inv.ipAddresses.filterMap fun i => (inv.getSubnetById i.subnetId).bind fun s =>
    if s.subnetType.isContainerBridge then some ((i.hostId, s.subnetType), s.id) else none

def bridgeGroup (hostId : Uuid) (t : SubnetType) : Option Uuid :=
  (inv.computeContainerBridgeGrouping.find? fun e => e.1 = (hostId, t)).map Prod.snd

section Headers

def hostHasName (host : Host) : Bool := host.name ≠ "Unknown Device" && host.name ≠ ""

def otherAddressText (hostId : Uuid) : Option String :=
  ((inv.getIpAddressesForHost hostId).find? fun i =>
    (inv.getSubnetFromIpAddressId i.id).any fun s => !s.subnetType.isContainerBridge).map (·.text)

def determineSubnetChildHeaderText (i : IPAddress) (host : Host) (t : SubnetType) : Option String :=
  match t.containerRuntimeLabel with
  | some runtime =>
    if hostHasName host then some (runtime ++ " @ " ++ host.name)
    else (inv.otherAddressText host.id).map fun text => runtime ++ " @ " ++ text
  | none =>
    if (inv.getHostIsVirtualizedBy host.id).isSome && hostHasName host then some host.name
    else
      let firstServiceNameMatchesHostName :=
        (inv.getServicesForHost host.id).head?.any fun s => s.name = host.name
      let ipAddressesWithNode := (inv.getIpAddressesForHost host.id).filter fun i =>
        !(inv.getServicesBoundToIpAddress i.id).isEmpty
      if i.text ≠ host.name && !firstServiceNameMatchesHostName && hostHasName host &&
          ipAddressesWithNode.length < 2 then
        some host.name
      else none

end Headers

def subnetTypeOf (subnetId : Uuid) : SubnetType :=
  ((inv.getSubnetById subnetId).map (·.subnetType)).getD .unknown

def drawnHost (i : IPAddress) : Option Host :=
  if (inv.getSubnetById i.subnetId).any (·.subnetType.excludeFromTopology) then none
  else inv.getHostById i.hostId

def drawnSubnet (grouping : GroupingConfig) (i : IPAddress) (host : Host) : Option Uuid :=
  if grouping.shouldGroupContainerBridges && (inv.subnetTypeOf i.subnetId).isContainerBridge then
    inv.bridgeGroup host.id (inv.subnetTypeOf i.subnetId)
  else some i.subnetId

def subnetChild (grouping : GroupingConfig) (i : IPAddress) : Option (Uuid × SubnetChildData) :=
  (inv.drawnHost i).bind fun host => (inv.drawnSubnet grouping i host).map fun subnetId =>
    (subnetId, ⟨i.id, inv.determineSubnetChildHeaderText i host (inv.subnetTypeOf i.subnetId),
      host.id, some i.id⟩)

def groupChildrenBySubnet (grouping : GroupingConfig) : List (Uuid × List SubnetChildData) :=
  Groups.collect (inv.ipAddresses.filterMap (inv.subnetChild grouping))

def consolidatedContainerBridgeSubnets (env : BuildEnv) (grouping : GroupingConfig) :
    List (Uuid × List Uuid) :=
  if grouping.shouldGroupContainerBridges then
    let bridges := inv.ipAddresses.filterMap fun i => (inv.drawnHost i).bind fun host =>
      if (inv.subnetTypeOf i.subnetId).isContainerBridge then
        (inv.bridgeGroup host.id (inv.subnetTypeOf i.subnetId)).map fun groupingId =>
          ((host.id, groupingId), i.subnetId)
      else none
    (env.order.visit .bridges (Groups.collect bridges)).map
      fun ((_, groupingId), members) => (groupingId, members.dedup)
  else []

def deploymentGroupAt (child : SubnetChildData) : Option String :=
  let services := inv.services.filter fun s => s.hostId = child.hostId &&
    match child.ipAddressId with
    | some ipAddressId => s.bindings.any fun b => b.ipAddressId = some ipAddressId
    | none => true
  let projects := services.filterMap fun s => s.virtualizationMetadata.bind (·.composeProject)
  match projects.eraseDups with
  | [project] => some project
  | _ => none

def resolveChild (subnetId : Uuid) (children : List SubnetChildData) (n : Node) :
    Option ElementMatchData :=
  (children.find? fun c => c.id = n.id).map fun child => {
    categories := (inv.getServicesForHost child.hostId).map (·.serviceDefinition.category)
    tagIds := inv.hostTagIds child.hostId
    elementEntity := .ipAddress
    deploymentGroup :=
      if (inv.getSubnetById subnetId).any (·.subnetType.isContainerNetwork) then
        inv.deploymentGroupAt child
      else none }

def childNode (subnetId : Uuid) (child : SubnetChildData) : Node :=
  .element child.id subnetId child.hostId (.ipAddress subnetId child.ipAddressId) child.header

def createChildNodes (env : BuildEnv) (grouping : GroupingConfig) (childNodes : List Node)
    (subnet : Uuid × List SubnetChildData) : List Node :=
  let input : RuleInput := {
    env
    nodes := childNodes ++ subnet.2.map (childNode subnet.1)
    resolveElement := inv.resolveChild subnet.1 subnet.2 }
  applyStackRuntimeLogos (applyElementRules input grouping.elementRules).1 inv.services

def createSubnetChildNodes (env : BuildEnv) (grouping : GroupingConfig) : List Node :=
  (env.order.visit .subnets (inv.groupChildrenBySubnet grouping)).foldl
    (inv.createChildNodes env grouping) []

def subnetHeader (consolidated : List (Uuid × List Uuid)) (subnetId : Uuid) : Option String :=
  match Inserts.get consolidated subnetId with
  | some merged =>
    let subnets := inv.subnets.filter fun s => s.id ∈ merged
    let runtime := (subnets.head?.bind (·.subnetType.containerRuntimeLabel)).getD "Container"
    some (runtime ++ " Bridge: (" ++ ", ".intercalate (subnets.map (·.cidr)) ++ ")")
  | none => (inv.getSubnetById subnetId).map fun s =>
    let nameOrType :=
      if s.name ≠ s.cidr then s.name
      else if s.subnetType.showLabel then s.subnetType.displayName
      else ""
    if nameOrType = "" then s.cidr else nameOrType ++ ": " ++ s.cidr

def subnetNode (consolidated : List (Uuid × List Uuid)) (subnetId : Uuid) : Node where
  id := subnetId
  nodeType := .container {
    containerType := .subnet
    entityId := some subnetId
    willAcceptEdges := (Inserts.get consolidated subnetId).isSome ||
      (inv.getSubnetById subnetId).any (·.subnetType.isContainerBridge) }
  header := inv.subnetHeader consolidated subnetId

def createSubnetNodes (env : BuildEnv) (grouping : GroupingConfig) : List Node :=
  (env.order.visit .subnetNodes ((inv.groupChildrenBySubnet grouping).map Prod.fst)).map
    (inv.subnetNode (inv.consolidatedContainerBridgeSubnets env grouping))

def buildL3 (env : BuildEnv) (grouping : GroupingConfig) : List Node × List Edge :=
  (inv.createSubnetNodes env grouping ++ inv.createSubnetChildNodes env grouping,
    inv.createInterfaceEdges ++ inv.createDependencyEdges ++ inv.createVmHostEdges ++
      inv.createContainerizedServiceEdges grouping ++ inv.createSameContainerEdges ++
      inv.createPhysicalLinkEdges)

end Inventory

end Scanopy.Graph
