import Scanopy.Hosts.Children

/-! `discover_host`: a submission is stored with its children, its interfaces are linked to the
addresses, and the VLANs of the subnets are derived again. It is no transaction: a call that fails
leaves what it has written. Of the ports and services only the success is modelled. -/

namespace Scanopy

section Stamp

def IPAddressBase.refresh (t : Timestamp) (b : IPAddressBase) : IPAddressBase :=
  { b with lastSeenAt := t }

def SubnetBase.refresh (t : Timestamp) (b : SubnetBase) : SubnetBase := { b with lastSeenAt := t }

def TrackedPortBase.refresh (t : Timestamp) (b : TrackedPortBase) : TrackedPortBase :=
  { b with lastSeenAt := t }

def TrackedServiceBase.refresh (t : Timestamp) (b : TrackedServiceBase) : TrackedServiceBase :=
  { b with lastSeenAt := t }

def SnmpInterfaceBase.refresh (t : Timestamp) (b : SnmpInterfaceBase) : SnmpInterfaceBase :=
  { b with lastSeenAt := t }

/-- Every entity of a submission is seen at the time of the scan; the host a guest runs on is known
to the server only. -/
def HostSubmission.stamp (sub : HostSubmission) (t : Timestamp) : HostSubmission where
  request := { sub.request with
    host := { sub.request.host with
      base := { sub.request.host.base with virtualizationServiceId := none } }
    ipAddresses := sub.request.ipAddresses.map (Row.map (IPAddressBase.refresh t))
    subnets := sub.request.subnets.map (Row.map (SubnetBase.refresh t)) }
  ports := sub.ports.map (Row.map (TrackedPortBase.refresh t))
  services := sub.services.map (Row.map (TrackedServiceBase.refresh t))
  interfaces := sub.interfaces.map (Row.map (SnmpInterfaceBase.refresh t))
  ports_eq := by
    rw [List.map_map]
    exact sub.ports_eq
  services_eq := by
    rw [List.map_map]
    exact sub.services_eq
  interfaces_eq := by
    rw [List.map_map]
    exact sub.interfaces_eq

end Stamp

structure VlanLinkStore where
  hosts : RowTable HostBase
  subnets : RowTable SubnetBase
  ipAddresses : RowTable IPAddressBase
  interfaces : InterfaceTable
  /-- The live rows of `subnet_vlans`. -/
  subnetVlans : List SubnetVlanRecordBase

section Links

def ifTypeSoftwareLoopback : ℤ := 24

def plannedLink (interfaces : List SnmpInterface) (ipAddresses : List IPAddress)
    (i : SnmpInterface) : Option Uuid :=
  if i.base.ipAddressId.isSome then none
  else if i.base.ifType = ifTypeSoftwareLoopback then
    (ipAddresses.find? (·.base.ipAddress.isLoopback)).map (·.id)
  else
    (i.base.macAddress.filter fun mac =>
      interfaces.countP (·.base.macAddress = some mac) = 1).bind fun mac =>
        -- several addresses of one MAC: the map keeps the last
        (ipAddresses.reverse.find? (·.base.macAddress = some mac)).map (·.id)

def planInterfaceIpLinks (interfaces : List SnmpInterface) (ipAddresses : List IPAddress) :
    List (Uuid × Uuid) :=
  interfaces.filterMap fun i => (plannedLink interfaces ipAddresses i).map (i.id, ·)

/-- The order of the bytes. -/
def Uuid.le (a b : Uuid) : Bool := BitVec.ule a b

def saveForSubnet (links : List SubnetVlanRecordBase) (subnetId : Uuid) (vlanIds : List Uuid) :
    List SubnetVlanRecordBase :=
  links.filter (fun l => l.subnetId ≠ subnetId || vlanIds.contains l.vlanId) ++
    (vlanIds.filter fun v => !links.contains ⟨subnetId, v⟩).map (⟨subnetId, ·⟩)

namespace VlanLinkStore
variable (s : VlanLinkStore)

def ipAddressesOfHost (hostId : Uuid) : List IPAddress :=
  ((s.ipAddresses.rows.filter fun a => a.isLive && a.base.hostId = hostId).map
    (·.toRow)).insertionSort fun a b => a.base.position ≤ b.base.position

def ipAddressesOfSubnet (subnetId : Uuid) : List IPAddress :=
  (s.ipAddresses.rows.filter fun a => a.isLive && a.base.subnetId = subnetId).map (·.toRow)

def interfacesByIpAddressIds (ids : List Uuid) : List SnmpInterface :=
  s.interfaces.rows.filter fun i => i.isLive && i.base.ipAddressId.any ids.contains

def linkInterfacesToIpAddresses (hostId : Uuid) : VlanLinkStore :=
  let interfaces := s.interfaces.getForHost hostId
  let planned := planInterfaceIpLinks interfaces (s.ipAddressesOfHost hostId)
  { s with interfaces := interfaces.foldl (fun t i =>
      match planned.find? (·.1 = i.id) with
      | some (_, ipAddressId) =>
        (t.update { i with base := { i.base with ipAddressId := some ipAddressId } }).getD t
      | none => t) s.interfaces }

def freshVlanIds (subnetId : Uuid) : List Uuid :=
  let ids := (s.ipAddressesOfSubnet subnetId).map (·.id)
  let vlanIds : List Uuid := (s.interfacesByIpAddressIds ids).filterMap (·.base.nativeVlanId)
  (vlanIds.insertionSort fun a b => Uuid.le a b).dedup

def reconcileSubnetVlansForHost (hostId : Uuid) (previousSubnets : List Uuid) : VlanLinkStore :=
  let current := (s.ipAddressesOfHost hostId).map (·.base.subnetId)
  { s with subnetVlans := (previousSubnets ++ current).foldl (fun links subnetId =>
      saveForSubnet links subnetId (s.freshVlanIds subnetId)) s.subnetVlans }

end VlanLinkStore
end Links

structure DiscoverHostCall where
  env : CreateEnv
  childEnv : ChildEnv
  limitCtx : Option HostLimitContext
  submission : HostSubmission
  portsStored : Bool
  /-- The service that a submitted owner of a subnet stands for. -/
  owner : Option Uuid → Option Uuid
  servicesStored : Bool

inductive CallOutcome
  /-- The call has failed before it came to the interfaces. -/
  | stopped
  /-- The call has failed at an interface, after it has written others. -/
  | refusedInterface
  | completed
  deriving DecidableEq

namespace DiscoverHostCall
variable (c : DiscoverHostCall)

def stamped : HostSubmission := c.submission.stamp c.childEnv.scanTime

def previousSubnets (s : VlanLinkStore) : List Uuid :=
  match findMatchingHost s.hosts s.ipAddresses c.stamped.request.host.base.networkId
      c.stamped.request.ipAddresses with
  | some host => (s.ipAddressesOfHost host.id).map (·.base.subnetId)
  | none => []

def resolveHost (s : VlanLinkStore) : Except CreateError (RowTable HostBase × Host) := do
  let store : HostStore Unit := ⟨s.hosts, s.subnets, s.ipAddresses, ()⟩
  let host ← alignHost c.limitCtx .upsert c.stamped.request store
  createUnlocked c.env s.hosts host

def addressContext (host : Host) (stage : SubnetStage) : AddressContext where
  env := c.env
  host := host
  conflictBehavior := .upsert
  incoming := c.stamped.request.ipAddresses
  subnets := stage.subnets
  subnetIdRemap := stage.subnetIdRemap
  createdSubnetIds := stage.createdSubnetIds

def storeAddresses (host : Host) (s : VlanLinkStore) : VlanLinkStore × Bool :=
  if !c.portsStored then (s, false)
  else match Lts.foldUntil (SubnetStage.step c.env host c.owner) { subnets := s.subnets }
      c.stamped.request.subnets with
    | (stage, false) => ({ s with subnets := stage.subnets }, false)
    | (stage, true) =>
      match Lts.foldUntil (c.addressContext host stage).step { rows := s.ipAddresses }
          c.stamped.request.ipAddresses with
      | (addresses, false) =>
        ({ s with subnets := stage.subnets, ipAddresses := addresses.rows }, false)
      | (addresses, true) =>
        ({ s with
            subnets := stage.subnets
            ipAddresses := addresses.rows.update addresses.toRefresh }, c.servicesStored)

/-- One interface of the report. A row that is written names a stored address or none: this is a
foreign key, and unlike the index of names it is not checked for a skipped row. -/
def interfaceStep (host : Host) (ipAddresses : RowTable IPAddressBase) (stage : InterfaceStage)
    (entry : SnmpInterface) : Option InterfaceStage :=
  (InterfaceStage.step c.childEnv host c.stamped.request.interfaceDataComplete stage entry).filter
    fun after => after.skipped ≠ stage.skipped ||
      entry.base.ipAddressId.all fun id => ipAddresses.rows.any (·.id = id)

def storeInterfaces (host : Host) (s : VlanLinkStore) : VlanLinkStore × Bool :=
  match Lts.foldUntil (c.interfaceStep host s.ipAddresses) { table := s.interfaces }
      c.stamped.interfaces with
  | (stage, false) => ({ s with interfaces := stage.table }, false)
  | (stage, true) =>
    let prune := shouldPruneInterfaces c.stamped.request.interfacesComplete stage.created.length
      stage.skipped
    ({ s with interfaces :=
        if prune then stage.table.pruneInterfaces host.id (stage.created.map (·.id))
        else stage.table }, true)

def discoverHost (s : VlanLinkStore) : VlanLinkStore × CallOutcome :=
  match c.resolveHost s with
  | .error _ => (s, .stopped)
  | .ok (hosts, host) =>
    match c.storeAddresses host { s with hosts } with
    | (after, false) => (after, .stopped)
    | (after, true) =>
      match c.storeInterfaces host after with
      | (after, false) => (after, .refusedInterface)
      | (after, true) =>
        (if c.stamped.interfaces.isEmpty then after
          else (after.linkInterfacesToIpAddresses host.id).reconcileSubnetVlansForHost host.id
            (c.previousSubnets s), .completed)

end DiscoverHostCall

def discoverHostLts (init : VlanLinkStore) : Lts VlanLinkStore DiscoverHostCall where
  init := init
  step s c := some (c.discoverHost s).1

end Scanopy
