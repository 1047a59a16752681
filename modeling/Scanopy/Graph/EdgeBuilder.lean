import Scanopy.Graph.Context
import Scanopy.Lib.Groups
import Scanopy.Lib.Once

/-! The edges between addresses, and those between the boxes of hosts. An edge may name a node that
no view draws; the graph leaves such edges out. -/

namespace Scanopy

def IpAddr.lt : IpAddr → IpAddr → Bool
  | .v4 a, .v4 b => a.toNat < b.toNat
  | .v4 _, .v6 _ => true
  | .v6 _, .v4 _ => false
  | .v6 a, .v6 b => a.toNat < b.toNat

namespace Graph

/-- The steps of a path. -/
def windows {A : Type} (l : List A) : List (A × A) := l.zip l.tail

section Order

def addressLt (a b : IpAddr × Uuid) : Bool :=
  a.1.lt b.1 || (a.1 = b.1 && rank a.2 < rank b.2)

def lowestAddress (l : List (IpAddr × Uuid)) : Option (IpAddr × Uuid) :=
  l.foldl (fun lowest a => match lowest with
    | none => some a
    | some current => if addressLt a current then some a else some current) none

def sortAddresses (l : List (IpAddr × Uuid)) : List (IpAddr × Uuid) :=
  l.mergeSort fun a b => !addressLt b a

def sortKeys {V : Type} (l : List (Uuid × V)) : List (Uuid × V) :=
  l.mergeSort fun a b => rank a.1 ≤ rank b.1

def sortPairKeys {V : Type} (l : List ((Uuid × Uuid) × V)) : List ((Uuid × Uuid) × V) :=
  l.mergeSort fun a b =>
    rank a.1.1 < rank b.1.1 || (rank a.1.1 = rank b.1.1 && rank a.1.2 ≤ rank b.1.2)

end Order

namespace Inventory
variable (inv : Inventory)

section Addresses

def bindingAddress (bindingId : Uuid) : Option Uuid :=
  (inv.services.findSome? fun s => s.bindings.find? fun b => b.id = bindingId).bind (·.ipAddressId)

def edgeFromServiceBindings (sourceId targetId : Uuid) (d : Dependency) : Option Edge :=
  match inv.bindingAddress sourceId, inv.bindingAddress targetId with
  | some source, some target => some {
      source
      target
      edgeType := match d.dependencyType with
        | .hubAndSpoke => .hubAndSpoke d.id sourceId targetId
        | .requestPath => .requestPath d.id sourceId targetId
      label :=
        if (inv.getSubnetFromIpAddressId source).map (·.id) =
            (inv.getSubnetFromIpAddressId target).map (·.id) then none
        else some d.name
      isMultiHop := inv.edgeIsMultiHop source target }
  | _, _ => none

def createDependencyEdges : List Edge :=
  inv.dependencies.flatMap fun d =>
    match d.dependencyType, d.bindingIds with
    | .requestPath, bindingIds =>
      (windows bindingIds).filterMap fun (source, target) =>
        inv.edgeFromServiceBindings source target d
    | .hubAndSpoke, [] => []
    | .hubAndSpoke, hub :: spokes =>
      spokes.reverse.filterMap fun spoke => inv.edgeFromServiceBindings hub spoke d

structure Attachment where
  subnetId : Uuid
  address : IpAddr
  ipAddressId : Uuid
  containerizedId : Uuid

def containerizedServiceIds (serviceId : Uuid) : List Uuid :=
  (inv.services.filter fun s => s.virtualizationServiceId = some serviceId).map (·.id) |>.eraseDups

def bridgeIp (hostId ipAddressId : Uuid) : Option (Uuid × IpAddr) :=
  (inv.getIpAddressesForHost hostId).find? (fun i => i.id = ipAddressId) |>.bind fun i =>
    (inv.getSubnetById i.subnetId).bind fun s =>
      if s.subnetType.isContainerBridge then some (s.id, i.ipAddress) else none

def attachments (hostId serviceId : Uuid) : List Attachment :=
  (inv.containerizedServiceIds serviceId).flatMap fun containerizedId =>
    match inv.getServiceById containerizedId with
    | none => []
    | some containerized => containerized.bindings.filterMap fun b =>
      b.ipAddressId.bind fun ipAddressId =>
        (inv.bridgeIp hostId ipAddressId).map fun (subnetId, address) =>
          ⟨subnetId, address, ipAddressId, containerizedId⟩

def perEdge (attachments : List Attachment) (grouping : GroupingConfig) :
    List (Uuid × List Uuid × List Uuid) :=
  let bySubnet := sortKeys (Groups.groupOn (·.subnetId) attachments)
  let targets := bySubnet.filterMap fun (_, members) =>
    lowestAddress (members.map fun m => (m.address, m.ipAddressId))
  if grouping.shouldGroupContainerBridges then
    match lowestAddress targets with
    | none => []
    | some (_, target) => [(target, bySubnet.map (·.1),
        (bySubnet.flatMap fun (_, members) => members.map (·.containerizedId)).eraseDups)]
  else if grouping.subnetsAreContainers then
    bySubnet.filterMap fun (subnetId, members) =>
      (lowestAddress (members.map fun m => (m.address, m.ipAddressId))).map fun (_, target) =>
        (target, [subnetId], (members.map (·.containerizedId)).eraseDups)
  else
    (sortPairKeys (Groups.groupOn (fun m => (m.subnetId, m.ipAddressId)) attachments)).map
      fun ((subnetId, ipAddressId), members) =>
        (ipAddressId, [subnetId], (members.map (·.containerizedId)).eraseDups)

def createContainerizedServiceEdges (grouping : GroupingConfig) : List Edge :=
  (inv.services.filter fun s => !(inv.containerizedServiceIds s.id).isEmpty).flatMap fun s =>
    match inv.getHostById s.hostId with
    | none => []
    | some host =>
      match inv.getFirstNonContainerBridgeIpAddressForHost host.id with
      | none => []
      | some origin =>
        (perEdge (inv.attachments host.id s.id) grouping).map
          fun (target, subnetIds, containerizedServiceIds) => {
            source := origin.id
            target
            edgeType := .containerRuntime host.id s.id subnetIds containerizedServiceIds
            label := some (s.name ++ " on " ++ host.name)
            isMultiHop := inv.edgeIsMultiHop origin.id target }

def bridgeAddresses (s : Service) : List (IpAddr × Uuid) :=
  (s.bindings.filterMap (·.ipAddressId)).eraseDups.filterMap fun ipAddressId =>
    (inv.getIpAddressById ipAddressId).bind fun i =>
      (inv.getSubnetById i.subnetId).bind fun subnet =>
        if subnet.subnetType.isContainerBridge then some (i.ipAddress, ipAddressId) else none

def createSameContainerEdges : List Edge :=
  (inv.services.filter fun s => s.virtualizationMetadata.isSome).flatMap fun s =>
    match sortAddresses (inv.bridgeAddresses s) with
    | [] => []
    | (_, anchor) :: targets => targets.map fun (_, target) => {
        source := anchor
        target
        edgeType := .sameContainer s.id
        label := some s.name
        isMultiHop := inv.edgeIsMultiHop anchor target }

def managerAddresses : List ((Uuid × Uuid) × Uuid) :=
  inv.hosts.flatMap fun h =>
    match h.virtualizationServiceId.bind inv.getServiceById with
    | none => []
    | some manager => (manager.bindings.filterMap (·.ipAddressId)).filterMap fun ipAddressId =>
      (inv.getSubnetFromIpAddressId ipAddressId).map fun s => ((s.id, manager.id), ipAddressId)

def createVmHostEdges : List Edge :=
  inv.hosts.flatMap fun h =>
    match h.virtualizationServiceId with
    | none => []
    | some managerId => (inv.getIpAddressesForHost h.id).filterMap fun i =>
      (inv.managerAddresses.find? fun e => e.1 = (i.subnetId, managerId)).map fun (_, source) => {
        source
        target := i.id
        edgeType := .hypervisor managerId
        label := none
        isMultiHop := inv.edgeIsMultiHop source i.id }

def isOnContainerBridge (i : IPAddress) : Bool :=
  (inv.getSubnetById i.subnetId).any (·.subnetType.isContainerBridge)

def createInterfaceEdges : List Edge :=
  inv.hosts.flatMap fun host =>
    match inv.getFirstNonContainerBridgeIpAddressForHost host.id with
    | none => []
    | some origin =>
      ((inv.getIpAddressesForHost host.id).filter fun i => i.id ≠ origin.id).filterMap fun i =>
        if inv.isOnContainerBridge origin || inv.isOnContainerBridge i then none
        else some {
          source := origin.id
          target := i.id
          edgeType := .sameHost host.id
          label := if origin.subnetId = i.subnetId then none else some host.name
          isMultiHop := inv.edgeIsMultiHop origin.id i.id }

end Addresses

section Links

def linkLabel (source target : String) : Option String := some (source ++ " ↔ " ++ target)

/-- A link between two addresses. The pair is noted before the ends are looked up. -/
def addressLink (e : Interface) : Option ((Uuid × Uuid) × Option Edge) :=
  match e.neighbor with
  | some (.interface targetId) => some (pairKey e.id targetId,
      (inv.resolveIpAddressForInterface e).bind fun source =>
        (inv.getInterfaceById targetId).bind fun t =>
          (inv.resolveIpAddressForInterface t).map fun target => {
            source
            target
            edgeType := .physicalLink e.id t.id .lldp
            label := linkLabel e.displayName t.displayName
            isMultiHop := inv.edgeIsMultiHop source target })
  | _ => none

def createPhysicalLinkEdges : List Edge := Once.onceBy inv.addressLink [] inv.getInterfacesWithNeighbor

def physicalLinkHostPairs (edges : List Edge) : List (Uuid × Uuid) :=
  edges.filterMap fun edge => match edge.edgeType with
    | .physicalLink sourceId targetId _ =>
      (inv.getInterfaceById sourceId).bind fun source =>
        (inv.getInterfaceById targetId).map fun target => pairKey source.hostId target.hostId
    | _ => none

/-- A link that is known only as far as the other device. -/
def neighborLink (nodeForHost : Uuid → Uuid) (linkedHostPairs : List (Uuid × Uuid))
    (e : Interface) : Option ((Uuid × Uuid) × Option Edge) :=
  match e.neighbor with
  | some (.host targetHostId) =>
    if e.hostId = targetHostId then none
    else
      (inv.getHostById e.hostId).bind fun source =>
        (inv.getHostById targetHostId).bind fun target =>
          if pairKey e.hostId targetHostId ∈ linkedHostPairs then none
          else some (pairKey e.hostId targetHostId, some {
            source := nodeForHost e.hostId
            target := nodeForHost targetHostId
            edgeType := .neighborLink e.hostId targetHostId (if e.hasLldpData then .lldp else .cdp)
            label := linkLabel source.name target.name })
  | _ => none

def createNeighborLinkEdges (nodeForHost : Uuid → Uuid) (linkedHostPairs : List (Uuid × Uuid)) :
    List Edge :=
  Once.onceBy (inv.neighborLink nodeForHost linkedHostPairs) [] inv.getInterfacesWithHostNeighbor

end Links

end Inventory

def serviceEdges (d : Dependency) (ids : List Uuid) : List Edge :=
  match d.dependencyType, ids with
  | .requestPath, ids => (windows ids).map fun (source, target) => {
      source
      target
      edgeType := .requestPath d.id Uuid.nil Uuid.nil
      label := some d.name }
  | .hubAndSpoke, [] => []
  | .hubAndSpoke, hub :: spokes => spokes.map fun spoke => {
      source := hub
      target := spoke
      edgeType := .hubAndSpoke d.id Uuid.nil Uuid.nil
      label := some d.name }

def pushDistinct (ids : List Uuid) (id : Uuid) : List Uuid :=
  if ids.getLast? = some id then ids else ids ++ [id]

end Graph

end Scanopy
