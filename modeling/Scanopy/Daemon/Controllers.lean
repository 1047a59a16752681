import Scanopy.Graph.Types
import Scanopy.Lib.FirstMatch
import Scanopy.Snmp.ChassisText
import Scanopy.Subnets.Placement

/-! What a daemon makes of the devices and clients that a network controller reports: each address
is placed on a known subnet, and the ports of the switches become interfaces. -/

namespace Scanopy

/-- How text is read: `str::parse` to an address, `canonical_mac`, and `str::parse` to a MAC. -/
structure ControllerText where
  parseIp : String → Option IpAddr
  canonicalMac : String → Option String
  parseMac : String → Option MacAddress

/-- The id and the time that `IPAddress::new` draws. -/
structure Stamp where
  newId : Uuid
  now : Timestamp

def IPAddress.new (stamp : Stamp) (networkId subnetId : Uuid) (ip : IpAddr)
    (mac : Option MacAddress) : IPAddress where
  id := stamp.newId
  createdAt := stamp.now
  validFrom := stamp.now
  validTo := none
  lineageId := none
  base :=
    { networkId, hostId := Uuid.nil, subnetId, ipAddress := ip, macAddress := mac, name := none
      position := 0, lastSeenAt := stamp.now }

structure ControllerIdentity where
  name : Option String
  hostname : Option String
  chassisId : Option String
  manufacturer : Option String
  model : Option String
  serialNumber : Option String
  sysDescr : Option String

def placeReported (text : ControllerText) (stamp : Stamp) (ip mac : Option String)
    (networkId : Uuid) (subnets : List Subnet) : Option (IPAddress × IpAddr) := do
  let ip ← ip.bind fun s => text.parseIp (trim s)
  let subnet ← subnets.find? fun s => s.base.cidr.contains ip
  let mac := (mac.bind text.canonicalMac).bind text.parseMac
  pure (.new stamp networkId subnet.id ip mac, ip)

structure MappedDevice where
  identity : ControllerIdentity
  ipAddress : IPAddress
  interfaces : List Interface
  deviceType : Option String
  ip : IpAddr

/-- The port, LLDP, downlink and uplink tables stand in `tables`. -/
structure UnifiDevice (T : Type) where
  mac : Option String
  ip : Option String
  name : Option String
  model : Option String
  serial : Option String
  version : Option String
  deviceType : Option String
  tables : T

/-- The ports, the uplink and the stack members stand in `tables`. -/
structure InstantOnDevice (T : Type) where
  id : Option String
  macAddress : Option String
  ipAddress : Option String
  name : Option String
  model : Option String
  serialNumber : Option String
  firmwareVersion : Option String
  deviceType : Option String
  tables : T

def UnifiDevice.mapDevice {T : Type} (text : ControllerText) (stamp : Stamp)
    (mapInterfaces : UnifiDevice T → List Interface) (device : UnifiDevice T) (networkId : Uuid)
    (subnets : List Subnet) : Option MappedDevice := do
  let (ipAddress, ip) ← placeReported text stamp device.ip device.mac networkId subnets
  pure {
    identity := {
      name := device.name
      hostname := none
      chassisId := device.mac.bind text.canonicalMac
      manufacturer := some "Ubiquiti"
      model := device.model
      serialNumber := device.serial
      sysDescr := device.version.map ("UniFi firmware " ++ ·) }
    ipAddress
    interfaces := mapInterfaces device
    deviceType := device.deviceType.filter fun t => !(trim t).isEmpty
    ip }

def InstantOnDevice.mapDevice {T : Type} (text : ControllerText) (stamp : Stamp)
    (mapInterfaces : InstantOnDevice T → List Interface) (device : InstantOnDevice T)
    (networkId : Uuid) (subnets : List Subnet) : Option MappedDevice := do
  let (ipAddress, ip) ←
    placeReported text stamp device.ipAddress device.macAddress networkId subnets
  pure {
    identity := {
      name := device.name
      hostname := none
      chassisId := device.macAddress.bind text.canonicalMac
      manufacturer := some "HPE"
      model := device.model
      serialNumber := device.serialNumber
      sysDescr := device.firmwareVersion.map ("Instant On firmware " ++ ·) }
    ipAddress
    interfaces := mapInterfaces device
    deviceType := device.deviceType.filter fun t => !(trim t).isEmpty
    ip }

structure MappedClient where
  identity : ControllerIdentity
  ipAddress : IPAddress
  ip : IpAddr

def MappedClient.new (text : ControllerText) (stamp : Stamp) (identity : ControllerIdentity)
    (ip mac : Option String) (networkId : Uuid) (subnets : List Subnet) : Option MappedClient := do
  let (ipAddress, ip) ← placeReported text stamp ip mac networkId subnets
  pure { identity, ipAddress, ip }

structure ControllerReports (T U : Type) where
  text : ControllerText
  stamp : Stamp
  networkId : Uuid
  unifiDevice : UnifiDevice T
  unifiInterfaces : UnifiDevice T → List Interface
  instantOnDevice : InstantOnDevice U
  instantOnInterfaces : InstantOnDevice U → List Interface
  clientIdentity : ControllerIdentity
  clientIp : Option String
  clientMac : Option String

namespace ControllerReports
variable {T U : Type} (r : ControllerReports T U)

structure Reports (ip : IpAddr) : Prop where
  unifi : (r.unifiDevice.ip.bind fun s => r.text.parseIp (trim s)) = some ip
  instantOn : (r.instantOnDevice.ipAddress.bind fun s => r.text.parseIp (trim s)) = some ip
  client : (r.clientIp.bind fun s => r.text.parseIp (trim s)) = some ip

def unifi (subnets : List Subnet) : Option IPAddress :=
  (r.unifiDevice.mapDevice r.text r.stamp r.unifiInterfaces r.networkId subnets).map (·.ipAddress)

def instantOn (subnets : List Subnet) : Option IPAddress :=
  (r.instantOnDevice.mapDevice r.text r.stamp r.instantOnInterfaces r.networkId subnets).map
    (·.ipAddress)

def client (subnets : List Subnet) : Option IPAddress :=
  (MappedClient.new r.text r.stamp r.clientIdentity r.clientIp r.clientMac r.networkId subnets).map
    (·.ipAddress)

end ControllerReports

namespace ServedSubnets

def placedCidr (subnets : ServedSubnets) (a : Option IPAddress) : Option IpCidr :=
  (a.map (·.base.subnetId)).bind (cidrOf subnets)

def resolvedCidr (subnets : ServedSubnets) (dangling : Uuid) (ip : IpAddr) : Option IpCidr :=
  (resolveDanglingSubnetId subnets.rows dangling ip).bind (cidrOf subnets)

end ServedSubnets

open ServedSubnets

namespace ControllerReports
variable {T U : Type}
variable {text : ControllerText} {mac reported : Option String} {stamp : Stamp} {networkId : Uuid}

/-- Every path places the address on the network that the server would place it on. -/
structure PlacesAlike (r : ControllerReports T U) (subnets : ServedSubnets) (dangling : Uuid)
    (ip : IpAddr) : Prop where
  unifi : placedCidr subnets (r.unifi subnets.rows) = resolvedCidr subnets dangling ip
  instantOn : placedCidr subnets (r.instantOn subnets.rows) = resolvedCidr subnets dangling ip
  client : placedCidr subnets (r.client subnets.rows) = resolvedCidr subnets dangling ip

variable {r : ControllerReports T U} {subnets : ServedSubnets} {dangling : Uuid} {ip : IpAddr}

theorem subnetId_placeReported
    (h : (reported.bind fun s => text.parseIp (trim s)) = some ip) :
    (placeReported text stamp reported mac networkId subnets.rows).map (·.1.base.subnetId) =
      (containing subnets.rows ip).head?.map (·.id) := by
  rw [placeReported, h, containing, List.head?_filter]
  show ((subnets.rows.find? fun s => s.base.cidr.contains ip).bind _).map _ = _
  cases subnets.rows.find? fun s => s.base.cidr.contains ip with
  | none => rfl
  | some s => rfl

theorem placedCidr_placeReported
    (h : (reported.bind fun s => text.parseIp (trim s)) = some ip) :
    placedCidr subnets ((placeReported text stamp reported mac networkId subnets.rows).map (·.1)) =
      (containing subnets.rows ip).head?.map (·.base.cidr) := by
  have hmem : ∀ s ∈ (containing subnets.rows ip).head?, s ∈ subnets :=
    fun s hs => (mem_containing.mp (List.mem_of_mem_head? hs)).1
  rw [placedCidr, Option.map_map]
  show ((placeReported text stamp reported mac networkId subnets.rows).map
    (·.1.base.subnetId)).bind _ = _
  rw [subnetId_placeReported h, bind_cidrOf hmem]

theorem resolvedCidr_of_dangling (h : ∀ s ∈ subnets, s.id ≠ dangling) :
    resolvedCidr subnets dangling ip =
      (maxByKey (fun s => s.base.cidr.networkLength) (containing subnets.rows ip)).map
        (·.base.cidr) := by
  rw [resolvedCidr, resolveDanglingSubnetId_of_dangling ip h]
  exact bind_cidrOf fun s hs => (mem_containing.mp (mem_of_maxByKey hs)).1

theorem unifi_eq (subnets : List Subnet) : r.unifi subnets =
    (placeReported r.text r.stamp r.unifiDevice.ip r.unifiDevice.mac r.networkId subnets).map
      (·.1) := by
  rw [unifi, UnifiDevice.mapDevice]
  cases placeReported r.text r.stamp r.unifiDevice.ip r.unifiDevice.mac r.networkId subnets <;> rfl

theorem instantOn_eq (subnets : List Subnet) : r.instantOn subnets =
    (placeReported r.text r.stamp r.instantOnDevice.ipAddress r.instantOnDevice.macAddress
      r.networkId subnets).map (·.1) := by
  rw [instantOn, InstantOnDevice.mapDevice]
  cases placeReported r.text r.stamp r.instantOnDevice.ipAddress r.instantOnDevice.macAddress
    r.networkId subnets <;> rfl

theorem client_eq (subnets : List Subnet) : r.client subnets =
    (placeReported r.text r.stamp r.clientIp r.clientMac r.networkId subnets).map (·.1) := by
  rw [client, MappedClient.new]
  cases placeReported r.text r.stamp r.clientIp r.clientMac r.networkId subnets <;> rfl

theorem placesAlike_iff (hr : r.Reports ip) (hdangling : ∀ s ∈ subnets, s.id ≠ dangling) :
    r.PlacesAlike subnets dangling ip ↔ LongestFirst subnets.rows ip := by
  have hresolved : resolvedCidr subnets dangling ip = _ := resolvedCidr_of_dangling hdangling
  rw [← head_cidr_eq_iff, ← hresolved]
  constructor
  · intro h
    rw [← placedCidr_placeReported hr.unifi, ← unifi_eq]
    exact h.unifi
  · intro h
    refine ⟨?_, ?_, ?_⟩
    · rw [unifi_eq, placedCidr_placeReported hr.unifi]
      exact h
    · rw [instantOn_eq, placedCidr_placeReported hr.instantOn]
      exact h
    · rw [client_eq, placedCidr_placeReported hr.client]
      exact h

/-- The paths agree with the server on a list of subnets exactly if the longest prefix comes first
in it, and on every order of the list exactly if there is only one. -/
theorem placesAlike_iff_longestFirst (r : ControllerReports T U) (subnets : ServedSubnets)
    (dangling : Uuid) (ip : IpAddr) (hr : r.Reports ip)
    (hdangling : ∀ s ∈ subnets, s.id ≠ dangling) :
    (r.PlacesAlike subnets dangling ip ↔ LongestFirst subnets.rows ip) ∧
      ((∀ served : ServedSubnets, served.rows.Perm subnets.rows →
        r.PlacesAlike served dangling ip) ↔ OneCidr subnets.rows ip) := by
  refine ⟨placesAlike_iff hr hdangling, ?_⟩
  rw [← forall_perm_longestFirst_iff]
  have hserved : ∀ served : ServedSubnets, served.rows.Perm subnets.rows →
      ∀ s ∈ served, s.id ≠ dangling :=
    fun served hperm s hs => hdangling s (hperm.mem_iff.mp hs)
  constructor
  · intro h rows hperm
    have hnodup : (rows.map fun s => s.id).Nodup :=
      (hperm.map fun s : Subnet => s.id).nodup_iff.mpr subnets.nodup
    have hplaces := h ⟨rows, hnodup⟩ hperm
    exact (placesAlike_iff hr (hserved ⟨rows, hnodup⟩ hperm)).mp hplaces
  · intro h served hperm
    exact (placesAlike_iff hr (hserved served hperm)).mpr (h served.rows hperm)

def officeSubnet : Subnet :=
  ⟨1, 0, 0, none, none, ⟨.v4 ⟨0x0A000000#32, 8, by decide, by decide⟩, 9, "corp", none, .lan,
    none, .discovery, 0⟩⟩

def branchSubnet : Subnet :=
  ⟨2, 0, 0, none, none, ⟨.v4 ⟨0x0A010000#32, 16, Cidr.slash16_le, by decide⟩, 9, "branch", none, .lan,
    none, .discovery, 0⟩⟩

def switchIp : IpAddr := .v4 0x0A010005#32

def switchReports : ControllerReports Unit Unit where
  text := ⟨fun s => if s = "10.1.0.5" then some switchIp else none, some, fun _ => none⟩
  stamp := ⟨50, 0⟩
  networkId := 9
  unifiDevice := ⟨none, some "10.1.0.5", some "Core Switch", none, none, none, some "usw", ()⟩
  unifiInterfaces := fun _ => []
  instantOnDevice := ⟨none, none, some "10.1.0.5", none, none, none, none, none, ()⟩
  instantOnInterfaces := fun _ => []
  clientIdentity := ⟨none, none, none, none, none, none, none⟩
  clientIp := some "10.1.0.5"
  clientMac := none

theorem reports_switchReports : switchReports.Reports switchIp :=
  ⟨by decide +kernel, by decide +kernel, by decide +kernel⟩

theorem placesAlike_branchFirst :
    switchReports.PlacesAlike ⟨[branchSubnet, officeSubnet], by decide⟩ 7 switchIp := by
  refine ((placesAlike_iff_longestFirst switchReports ⟨[branchSubnet, officeSubnet], by decide⟩ 7
    switchIp reports_switchReports (by decide +kernel)).1).mpr ?_
  rintro first hfirst s hs
  revert first s
  decide +kernel

/-- With the wider subnet first, all three place the switch on it. -/
theorem not_placesAlike_officeFirst : ¬∀ (r : ControllerReports Unit Unit)
    (subnets : ServedSubnets) (dangling : Uuid) (ip : IpAddr), r.Reports ip →
    (∀ s ∈ subnets, s.id ≠ dangling) → r.PlacesAlike subnets dangling ip := by
  intro h
  have hplaces := h switchReports ⟨[officeSubnet, branchSubnet], by decide⟩ 7 switchIp
    reports_switchReports (by decide +kernel)
  exact absurd hplaces.unifi (by decide +kernel)

end ControllerReports

/-- An integer, which the controllers also send as text or as a Boolean. -/
structure FlexInt where
  value : BitVec 64
  deriving DecidableEq

namespace FlexInt

def asI64 (n : FlexInt) : ℤ := n.value.toInt

/-- Clamped to the range of 32 bits. -/
def asI32 (n : FlexInt) : ℤ := max (-2 ^ 31) (min n.value.toInt (2 ^ 31 - 1))

end FlexInt

/-- A Boolean, which the controllers also send as text or as a number. -/
abbrev FlexBool := Bool

inductive IfAdminStatus
  | up
  | down
  | testing
  deriving DecidableEq

structure SwitchPort extends SnmpInterfaceBase where
  speedBps : Option ℤ := none
  adminStatus : IfAdminStatus := .up
  operStatus : Graph.IfOperStatus := .up
  deriving DecidableEq

def ifTypeEthernet : ℤ := 6

/-- A speed in megabits, in bits. The product wraps. -/
def speedBps (speed : Option FlexInt) : Option ℤ :=
  (speed.map fun s => (s.value * 1000000).toInt).filter fun s => 0 < s

def nonBlank (name : Option String) : Option String := name.filter fun n => !(trim n).isEmpty

def SwitchPort.named (networkId : Uuid) (ifIndex : ℤ) (name : String) : SwitchPort where
  hostId := Uuid.nil
  networkId := networkId
  ifIndex := ifIndex
  ifDescr := name
  macAddress := none
  ipAddressId := none
  neighbor := none
  nativeVlanId := none
  vlanIds := none
  ifName := some name
  ifType := ifTypeEthernet

def LldpPortId.fromIdentifierStr (parseMac : String → Option MacAddress) (value : String) :
    LldpPortId :=
  match canonicalMac parseMac value with
  | some mac => .macAddress mac
  | none => .locallyAssigned value

def updatePort (interfaces : List SwitchPort) (ifIndex : ℤ) (f : SwitchPort → SwitchPort) :
    List SwitchPort :=
  FirstMatch.modify (fun i : SwitchPort => i.ifIndex) ifIndex f interfaces

/-- What an interface tells of the far end of its link. -/
structure PortNeighbour where
  chassisId : Option LldpChassisId := none
  portId : Option LldpPortId := none
  sysName : Option String := none
  deriving DecidableEq

namespace SwitchPort

def neighbour (i : SwitchPort) : PortNeighbour := ⟨i.lldpChassisId, i.lldpPortId, i.lldpSysName⟩

def setNeighbour (n : PortNeighbour) (i : SwitchPort) : SwitchPort :=
  { i with lldpChassisId := n.chassisId, lldpPortId := n.portId, lldpSysName := n.sysName }

end SwitchPort
end Scanopy
