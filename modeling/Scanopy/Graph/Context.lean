import Scanopy.Graph.Types
import Scanopy.Lib.Inserts

/-! What the builders look up in the entities of a request. -/

namespace Scanopy

namespace SubnetType

def isContainerNetwork : SubnetType → Bool
  | dockerBridge | podmanBridge | macVlan | ipVlan => true
  | _ => false

def containerRuntimeLabel : SubnetType → Option String
  | dockerBridge => some "Docker"
  | podmanBridge => some "Podman"
  | _ => none

def excludeFromTopology (t : SubnetType) : Bool := t = loopback

def showLabel (t : SubnetType) : Bool := t ≠ unknown && t ≠ loopback

def displayName : SubnetType → String
  | internet => "Internet"
  | remote => "Remote"
  | gateway => "Gateway"
  | vpnTunnel => "VPN"
  | dmz => "DMZ"
  | lan => "LAN"
  | ioT => "IoT"
  | guest => "Guest"
  | wiFi => "WiFi"
  | management => "Management"
  | dockerBridge => "Docker Bridge"
  | podmanBridge => "Podman Bridge"
  | macVlan => "MacVLAN"
  | ipVlan => "IpVLAN"
  | storage => "Storage"
  | loopback => "Loopback"
  | unknown => "Unknown"

def verticalOrder : SubnetType → ℕ
  | internet | remote => 0
  | gateway | dmz | vpnTunnel => 1
  | lan | wiFi | guest | ioT => 2
  | dockerBridge | podmanBridge | macVlan | ipVlan | management | storage => 3
  | loopback | unknown => 999

end SubnetType

namespace Graph.Inventory
variable (inv : Inventory)

def getSubnetById (id : Uuid) : Option Subnet := inv.subnets.find? fun s => s.id = id

def getHostById (id : Uuid) : Option Host := inv.hosts.find? fun h => h.id = id

def getServiceById (id : Uuid) : Option Service := inv.services.find? fun s => s.id = id

def getIpAddressById (id : Uuid) : Option IPAddress := inv.ipAddresses.find? fun i => i.id = id

def getIpAddressesForHost (hostId : Uuid) : List IPAddress :=
  inv.ipAddresses.filter fun i => i.hostId = hostId

def getServicesForHost (hostId : Uuid) : List Service :=
  inv.services.filter fun s => s.hostId = hostId

def getFirstNonContainerBridgeIpAddressForHost (hostId : Uuid) : Option IPAddress :=
  inv.ipAddresses.find? fun i => i.hostId = hostId &&
    (inv.getSubnetById i.subnetId).any fun s =>
      !s.subnetType.isContainerBridge && !s.subnetType.isLoopback

def getServicesBoundToIpAddress (ipAddressId : Uuid) : List Service :=
  inv.services.filter fun s => s.bindings.any fun b => b.ipAddressId = some ipAddressId

def getSubnetFromIpAddressId (ipAddressId : Uuid) : Option Subnet :=
  (inv.getIpAddressById ipAddressId).bind fun i => inv.getSubnetById i.subnetId

def getInterfaceById (id : Uuid) : Option Interface := inv.interfaces.find? fun e => e.id = id

def resolveIpAddressForInterface (e : Interface) : Option Uuid :=
  match e.ipAddressId with
  | some ipAddressId => some ipAddressId
  | none =>
    match inv.getIpAddressesForHost e.hostId with
    | [i] => some i.id
    | _ => none

def getInterfacesForHost (hostId : Uuid) : List Interface :=
  inv.interfaces.filter fun e => e.hostId = hostId

def getInterfacesWithNeighbor : List Interface :=
  inv.interfaces.filter fun e => match e.neighbor with
    | some (.interface _) => true
    | _ => false

def getInterfacesWithHostNeighbor : List Interface :=
  inv.interfaces.filter fun e => match e.neighbor with
    | some (.host _) => true
    | _ => false

def getHostIsVirtualizedBy (hostId : Uuid) : Option Service :=
  ((inv.getHostById hostId).bind (·.virtualizationServiceId)).bind inv.getServiceById

def getVlanById (id : Uuid) : Option Vlan := inv.vlans.find? fun v => v.id = id

def edgeIsMultiHop (sourceIpAddressId targetIpAddressId : Uuid) : Bool :=
  match inv.getSubnetFromIpAddressId sourceIpAddressId,
    inv.getSubnetFromIpAddressId targetIpAddressId with
  | some source, some target =>
    ((source.subnetType.verticalOrder : ℤ) - target.subnetType.verticalOrder).natAbs > 1
  | _, _ => false

def bindingToService (bindingId : Uuid) : Option Uuid :=
  Inserts.get (inv.services.flatMap fun s => s.bindings.map fun b => (b.id, s.id)) bindingId

def hostTagIds (hostId : Uuid) : List Uuid := ((inv.getHostById hostId).map (·.tags)).getD []

end Graph.Inventory

end Scanopy
