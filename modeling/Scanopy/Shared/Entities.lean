import Scanopy.Discovery.Types
import Scanopy.Shared.Net

/-! The rows of a network. Every table keeps the versions of its entities: the live row, and the
closed copies that the snapshots of the network took of it. -/

namespace Scanopy

/-- A row version. The columns that no version function reads stand in `base`. -/
structure Row (B : Type) where
  id : Uuid
  createdAt : Timestamp
  /-- When this version became live. -/
  validFrom : Timestamp
  /-- When a snapshot closed this version, `none` on the live row. -/
  validTo : Option Timestamp
  /-- The live row that a closed one is a version of, `none` on the live row. -/
  lineageId : Option Uuid
  base : B
  deriving DecidableEq

abbrev MacAddress := BitVec 48

structure CredentialAssignment where
  credentialId : Uuid
  ipAddressIds : Option (List Uuid)
  deriving DecidableEq

structure HostBase where
  name : String
  networkId : Uuid
  hostname : Option String
  description : Option String
  virtualizationServiceId : Option Uuid
  hidden : Bool
  credentialAssignments : List CredentialAssignment
  deriving DecidableEq

abbrev Host := Row HostBase

inductive SubnetType
  | internet | remote | gateway | vpnTunnel | dmz | lan | wiFi | ioT | guest | dockerBridge
  | podmanBridge | macVlan | ipVlan | management | storage | loopback | unknown
  deriving DecidableEq

def SubnetType.isContainerBridge : SubnetType → Bool
  | dockerBridge | podmanBridge => true
  | _ => false

def SubnetType.isLoopback (t : SubnetType) : Bool := t = loopback

inductive EntitySource
  | manual | system | discovery | discoveryWithMatch | unknown
  deriving DecidableEq

structure SubnetBase where
  cidr : IpCidr
  networkId : Uuid
  name : String
  description : Option String
  subnetType : SubnetType
  virtualizationServiceId : Option Uuid
  source : EntitySource
  lastSeenAt : Timestamp
  deriving DecidableEq

abbrev Subnet := Row SubnetBase

structure IPAddressBase where
  networkId : Uuid
  hostId : Uuid
  subnetId : Uuid
  ipAddress : IpAddr
  macAddress : Option MacAddress
  name : Option String
  position : ℤ
  lastSeenAt : Timestamp
  deriving DecidableEq

abbrev IPAddress := Row IPAddressBase

inductive TransportProtocol
  | udp
  | tcp
  deriving DecidableEq

structure PortBase where
  hostId : Uuid
  networkId : Uuid
  number : BitVec 16
  protocol : TransportProtocol
  deriving DecidableEq

abbrev Port := Row PortBase

inductive BindingType
  | ipAddress (ipAddressId : Uuid)
  | port (portId : Uuid) (ipAddressId : Option Uuid)
  deriving DecidableEq

structure BindingBase where
  serviceId : Uuid
  networkId : Uuid
  bindingType : BindingType
  deriving DecidableEq

abbrev Binding := Row BindingBase

structure ServiceBase where
  hostId : Uuid
  networkId : Uuid
  serviceDefinition : String
  name : String
  bindings : List Binding
  virtualizationServiceId : Option Uuid
  position : ℤ
  deriving DecidableEq

abbrev Service := Row ServiceBase

/-- The other end of a link: its port, or only its device. -/
inductive Neighbor
  | interface (id : Uuid)
  | host (id : Uuid)
  deriving DecidableEq

structure InterfaceBase where
  hostId : Uuid
  networkId : Uuid
  ifIndex : ℤ
  ifDescr : String
  macAddress : Option MacAddress
  ipAddressId : Option Uuid
  neighbor : Option Neighbor
  nativeVlanId : Option Uuid
  vlanIds : Option (List Uuid)
  deriving DecidableEq

abbrev Interface := Row InterfaceBase

structure InterfaceDataComplete where
  lldp : Bool := true
  cdp : Bool := true
  fdb : Bool := true
  vlanMembership : Bool := true
  deriving DecidableEq

structure VlanBase where
  vlanNumber : BitVec 16
  name : String
  description : Option String
  networkId : Uuid
  organizationId : Uuid
  deriving DecidableEq

abbrev Vlan := Row VlanBase

structure SubnetVlanRecordBase where
  subnetId : Uuid
  vlanId : Uuid
  deriving DecidableEq

structure DependencyBase where
  name : String
  networkId : Uuid
  description : Option String
  deriving DecidableEq

abbrev Dependency := Row DependencyBase

structure DependencyMemberRecordBase where
  dependencyId : Uuid
  serviceId : Uuid
  bindingId : Option Uuid
  position : ℤ
  deriving DecidableEq

abbrev DependencyMemberRecord := Row DependencyMemberRecordBase

inductive EntityDiscriminants
  | organization | invite | share | network | daemonApiKey | userApiKey | user | tag
  | discovery | daemon | host | service | port | binding | ipAddress | interface
  | credential | subnet | vlan | dependency | topology | snapshot | unknown
  deriving DecidableEq

structure EntityTagBase where
  entityId : Uuid
  entityType : EntityDiscriminants
  tagId : Uuid
  deriving DecidableEq

abbrev EntityTag := Row EntityTagBase

end Scanopy
