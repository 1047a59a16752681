import Scanopy.Lib.HashMap
import Scanopy.Lib.Lts
import Scanopy.Shared.Entities

/-! The entity buffer of a daemon. A discovery pushes what it finds, the server polls what is
pending, and a confirmation replaces the pending entity by what the server made of it. -/

namespace Scanopy

inductive BufferedEntity (T : Type)
  | pending (entity : T)
  | created (pendingId : Uuid) (actual : T)

namespace BufferedEntity
variable {T : Type}

def isPending : BufferedEntity T → Bool
  | pending _ => true
  | created _ _ => false

def getData : BufferedEntity T → T
  | pending t => t
  | created _ actual => actual

def pending? : BufferedEntity T → Option T
  | pending t => some t
  | created _ _ => none

def created? : BufferedEntity T → Option T
  | pending _ => none
  | created _ actual => some actual

end BufferedEntity

structure DiscoveryHostRequest where
  host : Host
  ipAddresses : List IPAddress
  ports : List Port
  services : List Service
  interfaces : List Interface
  subnets : List Subnet
  interfacesComplete : Bool
  interfaceDataComplete : InterfaceDataComplete
  deriving DecidableEq

structure HostResponse where
  id : Uuid
  createdAt : Timestamp
  name : String
  networkId : Uuid
  hostname : Option String
  description : Option String
  virtualizationServiceId : Option Uuid
  hidden : Bool
  credentialAssignments : List CredentialAssignment
  ipAddresses : List IPAddress
  ports : List Port
  services : List Service
  interfaces : List Interface

def HostResponse.toHost (r : HostResponse) : Host where
  id := r.id
  createdAt := r.createdAt
  validFrom := r.createdAt
  validTo := none
  lineageId := none
  base :=
    { name := r.name
      networkId := r.networkId
      hostname := r.hostname
      description := r.description
      virtualizationServiceId := r.virtualizationServiceId
      hidden := r.hidden
      credentialAssignments := r.credentialAssignments }

structure BufferedEntities where
  hosts : List DiscoveryHostRequest
  subnets : List Subnet

structure ScannedEntityIds where
  hostIds : List Uuid
  subnetIds : List Uuid
  vlanIds : List Uuid
  ipAddressIds : List Uuid
  portIds : List Uuid
  serviceIds : List Uuid
  interfaceIds : List Uuid
  bindingIds : List Uuid

structure EntityBuffer where
  subnets : HashMap Uuid (BufferedEntity Subnet)
  hosts : HashMap Uuid (BufferedEntity DiscoveryHostRequest)
  vlans : Finset Uuid

namespace EntityBuffer

def new : EntityBuffer where
  subnets := HashMap.empty
  hosts := HashMap.empty
  vlans := ∅

def pushSubnet (b : EntityBuffer) (subnet : Subnet) : EntityBuffer :=
  { b with subnets := b.subnets.insert subnet.id (.pending subnet) }

def markSubnetCreated (b : EntityBuffer) (pendingId : Uuid) (actual : Subnet) :
    EntityBuffer × Option (Uuid × Uuid) :=
  match b.subnets.get pendingId with
  | some _ =>
    ({ b with subnets := b.subnets.insert pendingId (.created pendingId actual) },
      if pendingId ≠ actual.id then some (pendingId, actual.id) else none)
  | none => (b, none)

def getSubnet (b : EntityBuffer) (pendingId : Uuid) : Option Subnet :=
  (b.subnets.get pendingId).map (·.getData)

/-- `host` merged into the pending request for the same host. -/
def mergeChildren (existing host : DiscoveryHostRequest) : DiscoveryHostRequest :=
  { existing with
    ipAddresses := existing.ipAddresses ++ host.ipAddresses
    ports := existing.ports ++ host.ports
    services := existing.services ++ host.services
    interfaces := existing.interfaces ++ host.interfaces
    host := { existing.host with base := { existing.host.base with
      credentialAssignments :=
        existing.host.base.credentialAssignments ++ host.host.base.credentialAssignments } } }

def pushHost (b : EntityBuffer) (host : DiscoveryHostRequest) : EntityBuffer :=
  match b.hosts.get host.host.id with
  | some (.pending existing) =>
    { b with hosts := b.hosts.insert host.host.id (.pending (mergeChildren existing host)) }
  | some (.created _ _) | none =>
    { b with hosts := b.hosts.insert host.host.id (.pending host) }

def confirmedRequest (actual : HostResponse) : DiscoveryHostRequest where
  host := actual.toHost
  ipAddresses := actual.ipAddresses
  ports := actual.ports
  services := actual.services
  interfaces := actual.interfaces
  subnets := []
  interfacesComplete := true
  interfaceDataComplete := {}

def markHostCreated (b : EntityBuffer) (pendingId : Uuid) (actual : HostResponse) :
    EntityBuffer :=
  match b.hosts.get pendingId with
  | some (.pending _) =>
    { b with hosts := b.hosts.insert pendingId (.created pendingId (confirmedRequest actual)) }
  | some (.created _ _) | none => b

def getHost (b : EntityBuffer) (pendingId : Uuid) : Option DiscoveryHostRequest :=
  (b.hosts.get pendingId).map (·.getData)

/-- The pending entities, with the maps iterated in the given orders of their keys. The buffer
stays as it is. -/
def getPending (b : EntityBuffer) (hostOrder subnetOrder : List Uuid) : BufferedEntities where
  hosts := hostOrder.filterMap fun id => (b.hosts.get id).bind (·.pending?)
  subnets := subnetOrder.filterMap fun id => (b.subnets.get id).bind (·.pending?)

def pushScannedVlans (b : EntityBuffer) (ids : List Uuid) : EntityBuffer :=
  { b with vlans := b.vlans ∪ ids.toFinset }

def getScannedIds (b : EntityBuffer) (hostOrder subnetOrder vlanOrder : List Uuid) :
    ScannedEntityIds :=
  let subnets := subnetOrder.filterMap fun id => (b.subnets.get id).bind (·.created?)
  let hosts := hostOrder.filterMap fun id => (b.hosts.get id).bind (·.created?)
  { subnetIds := subnets.map (·.id)
    hostIds := hosts.map (·.host.id)
    ipAddressIds := hosts.flatMap fun h => h.ipAddresses.map (·.id)
    portIds := hosts.flatMap fun h => h.ports.map (·.id)
    serviceIds := hosts.flatMap fun h => h.services.map (·.id)
    bindingIds := hosts.flatMap fun h => h.services.flatMap fun s => s.base.bindings.map (·.id)
    interfaceIds := hosts.flatMap fun h => h.interfaces.map (·.id)
    vlanIds := vlanOrder.filter (· ∈ b.vlans) }

def clearAll (_ : EntityBuffer) : EntityBuffer :=
  { subnets := HashMap.empty, hosts := HashMap.empty, vlans := ∅ }

variable {b : EntityBuffer}

theorem subnets_markSubnetCreated (b : EntityBuffer) (pendingId : Uuid) (actual : Subnet)
    (id : Uuid) :
    (b.markSubnetCreated pendingId actual).1.subnets.get id =
      if id = pendingId then (b.subnets.get pendingId).map fun _ => .created pendingId actual
      else b.subnets.get id := by
  rw [markSubnetCreated]
  cases h : b.subnets.get pendingId with
  | none =>
    show b.subnets.get id = _
    split_ifs with hid
    · rw [hid, h]
      rfl
    · rfl
  | some e => exact HashMap.get_insert b.subnets pendingId id _

@[simp] theorem hosts_markSubnetCreated (b : EntityBuffer) (pendingId : Uuid) (actual : Subnet) :
    (b.markSubnetCreated pendingId actual).1.hosts = b.hosts := by
  rw [markSubnetCreated]
  split <;> rfl

/-- The request that is pending after `host` was pushed. -/
def pushed (b : EntityBuffer) (host : DiscoveryHostRequest) : DiscoveryHostRequest :=
  match (b.hosts.get host.host.id).bind (·.pending?) with
  | some existing => mergeChildren existing host
  | none => host

theorem hosts_pushHost (b : EntityBuffer) (host : DiscoveryHostRequest) (id : Uuid) :
    (b.pushHost host).hosts.get id =
      if id = host.host.id then some (.pending (b.pushed host)) else b.hosts.get id := by
  rw [pushHost, pushed]
  match h : b.hosts.get host.host.id with
  | none | some (.created _ _) | some (.pending _) => exact HashMap.get_insert b.hosts _ id _

@[simp] theorem subnets_pushHost (b : EntityBuffer) (host : DiscoveryHostRequest) :
    (b.pushHost host).subnets = b.subnets := by
  rw [pushHost]
  split <;> rfl

theorem hosts_markHostCreated (b : EntityBuffer) (pendingId : Uuid) (actual : HostResponse)
    (id : Uuid) :
    (b.markHostCreated pendingId actual).hosts.get id =
      if id = pendingId ∧ (b.hosts.get pendingId).any (·.isPending) = true then
        some (.created pendingId (confirmedRequest actual))
      else b.hosts.get id := by
  rw [markHostCreated]
  match h : b.hosts.get pendingId with
  | none | some (.created _ _) => simp [BufferedEntity.isPending]
  | some (.pending r) =>
    have hpending : (some (BufferedEntity.pending r)).any (·.isPending) = true := rfl
    rw [hpending]
    simp only [and_true]
    exact HashMap.get_insert b.hosts pendingId id _

@[simp] theorem subnets_markHostCreated (b : EntityBuffer) (pendingId : Uuid)
    (actual : HostResponse) : (b.markHostCreated pendingId actual).subnets = b.subnets := by
  rw [markHostCreated]
  split <;> rfl

theorem mem_hosts_getPending {hostOrder subnetOrder : List Uuid}
    (horder : b.hosts.Enumerates hostOrder) {r : DiscoveryHostRequest} :
    r ∈ (b.getPending hostOrder subnetOrder).hosts ↔ ∃ id, b.hosts.get id = some (.pending r) := by
  simp only [getPending, List.mem_filterMap, Option.bind_eq_some_iff, horder.mem_iff]
  constructor
  · rintro ⟨id, -, e, he, hr⟩
    cases e with
    | pending t =>
      cases hr
      exact ⟨id, he⟩
    | created => exact absurd hr nofun
  · rintro ⟨id, hid⟩
    exact ⟨id, ⟨_, hid⟩, _, hid, rfl⟩

end EntityBuffer

/-- The calls on a buffer within a session. A poll comes with the orders in which it iterates over
the maps. -/
inductive BufferOp
  | pushSubnet (subnet : Subnet)
  | markSubnetCreated (pendingId : Uuid) (actual : Subnet)
  | pushHost (host : DiscoveryHostRequest)
  | markHostCreated (pendingId : Uuid) (actual : HostResponse)
  | getPending (hostOrder subnetOrder : List Uuid)
  | pushScannedVlans (ids : List Uuid)

namespace BufferOp

def possible (b : EntityBuffer) : BufferOp → Bool
  | getPending hostOrder subnetOrder =>
    decide (b.hosts.Enumerates hostOrder ∧ b.subnets.Enumerates subnetOrder)
  | _ => true

def apply (b : EntityBuffer) : BufferOp → EntityBuffer
  | pushSubnet subnet => b.pushSubnet subnet
  | markSubnetCreated pendingId actual => (b.markSubnetCreated pendingId actual).1
  | pushHost host => b.pushHost host
  | markHostCreated pendingId actual => b.markHostCreated pendingId actual
  | getPending _ _ => b
  | pushScannedVlans ids => b.pushScannedVlans ids

end BufferOp

def bufferSession : Lts EntityBuffer BufferOp where
  init := EntityBuffer.new
  step b op := if op.possible b then some (op.apply b) else none

theorem step_bufferSession {b b' : EntityBuffer} {op : BufferOp}
    (h : bufferSession.step b op = some b') : op.possible b = true ∧ b' = op.apply b := by
  simp only [bufferSession, Option.ite_none_right_eq_some, Option.some.injEq] at h
  exact ⟨h.1, h.2.symm⟩

end Scanopy
