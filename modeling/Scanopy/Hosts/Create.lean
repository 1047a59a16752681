import Scanopy.Daemon.Buffer
import Scanopy.Hosts.Matching
import Scanopy.Subnets.Placement
import Scanopy.Subnets.Service

/-! The creation of a host with its children. The host, its subnets and its addresses are modelled;
what the other children go through is a parameter, which can fail but writes none of these. -/

namespace Scanopy

inductive ConflictBehavior
  | error
  | upsert
  deriving DecidableEq

inductive CreateError
  /-- A host with matching IP addresses already exists. -/
  | matchingHost (name : String) (id : Uuid)
  | hostLimitReached (current limit : ℕ)
  /-- The host of this id belongs to another network than the daemon. -/
  | networkMismatch (name : String) (id hostNetwork daemonNetwork : Uuid)
  /-- The storage, or the creation of another child, has failed. -/
  | failed

structure CreateEnv where
  now : Timestamp
  newHostId : Uuid
  newSubnetId : ℕ → Uuid
  newIpAddressId : ℕ → Uuid
  /-- The `last_seen_at` of the submitted host. -/
  hostSeenAt : Timestamp
  mergeHost : HostBase → HostBase → HostBase

structure HostLimitContext where
  orgNetworkIds : List Uuid
  limit : ℕ

structure HostStore (R : Type) where
  hosts : RowTable HostBase
  subnets : RowTable SubnetBase
  ipAddresses : RowTable IPAddressBase
  rest : R

structure CreatedChildren where
  ports : List Port
  services : List Service
  interfaces : List Interface
  credentialAssignments : List CredentialAssignment

structure OtherStages (R : Type) where
  ports : DiscoveryHostRequest → Host → R → Option R
  owners : DiscoveryHostRequest → Host → R → Option (R × (Option Uuid → Option Uuid))
  children : DiscoveryHostRequest → Host → List (IPAddress × IPAddress) → HostStore R →
    Option (R × CreatedChildren)

/-- `create_unlocked`. The host keeps the network of the stored row that it is merged with. -/
def createUnlocked (env : CreateEnv) (hosts : RowTable HostBase) (host : Host) :
    Except CreateError (RowTable HostBase × Host) :=
  let host : Host := if host.id = Uuid.nil then
    ⟨env.newHostId, env.now, env.now, none, none, host.base⟩ else host
  let live := hosts.rows.filter fun h => h.isLive && h.base.networkId = host.base.networkId
  match live.find? (·.id = host.id) with
  | some existing =>
    let merged : Host := { existing.toRow with
      base := { env.mergeHost existing.base host.base with networkId := existing.base.networkId } }
    .ok (hosts.update [merged], merged)
  | none =>
    match hosts.rows.find? (·.id = host.id) with
    | some existing => .error (.networkMismatch existing.base.name host.id
        existing.base.networkId host.base.networkId)
    | none =>
      let host := { host with createdAt := env.hostSeenAt, validFrom := env.hostSeenAt }
      match hosts.insertMany [⟨host, none⟩] with
      | some hosts => .ok (hosts, host)
      | none => .error .failed

structure SubnetStage where
  subnets : RowTable SubnetBase
  subnetIdRemap : HashMap Uuid Uuid := HashMap.empty
  createdSubnetIds : List Uuid := []

def SubnetStage.step (env : CreateEnv) (host : Host) (owner : Option Uuid → Option Uuid)
    (s : SubnetStage) (subnet : Subnet) : Option SubnetStage :=
  let subnet : Subnet := { subnet with base := { subnet.base with
    networkId := host.base.networkId
    virtualizationServiceId := owner subnet.base.virtualizationServiceId } }
  let newId := env.newSubnetId s.createdSubnetIds.length
  (createSubnet newId env.now s.subnets subnet).map fun (subnets, created) =>
    { subnets
      subnetIdRemap := if created.id = subnet.id then s.subnetIdRemap
        else s.subnetIdRemap.insert subnet.id created.id
      createdSubnetIds := s.createdSubnetIds ++ [created.id] }

/-- What the addresses of a submission are stored by: all of it is fixed before the first one. -/
structure AddressContext where
  env : CreateEnv
  host : Host
  conflictBehavior : ConflictBehavior
  incoming : List IPAddress
  subnets : RowTable SubnetBase
  subnetIdRemap : HashMap Uuid Uuid
  createdSubnetIds : List Uuid

structure AddressStage where
  rows : RowTable IPAddressBase
  created : List IPAddress := []
  toRefresh : List IPAddress := []

namespace AddressContext
variable (c : AddressContext)

def networkLiveSubnets : List Subnet :=
  (c.subnets.rows.filter fun s => s.isLive && s.base.networkId = c.host.base.networkId).map
    (·.toRow)

def resolveSubnetId (a : IPAddress) : Uuid :=
  let subnetId := remapId c.subnetIdRemap a.base.subnetId
  if subnetId ∈ c.createdSubnetIds then subnetId
  else (resolveDanglingSubnetId c.networkLiveSubnets subnetId a.base.ipAddress).getD subnetId

def place (a : IPAddress) : IPAddress :=
  { a with base := { a.base with
      hostId := c.host.id
      networkId := c.host.base.networkId
      subnetId := c.resolveSubnetId a } }

def findByMac (rows : RowTable IPAddressBase) (a : IPAddress) :
    Option (StoredRow IPAddressBase) :=
  match a.base.macAddress with
  | none => none
  | some mac =>
    if macCount c.incoming mac = 1 then
      match rows.rows.filter fun r => r.isLive && r.base.hostId = a.base.hostId &&
          r.base.macAddress = some mac with
      | [r] => some r
      | _ => none
    else none

def findExisting (rows : RowTable IPAddressBase) (a : IPAddress) :
    Option (StoredRow IPAddressBase) :=
  (rows.rows.find? (·.id = a.id)).or
    (((rows.rows.filter fun r => r.isLive && r.base.hostId = a.base.hostId &&
      r.base.subnetId = a.base.subnetId).find? (·.base.ipAddress = a.base.ipAddress)).or
    (c.findByMac rows a))

def insertAddress (rows : RowTable IPAddressBase) (a : IPAddress) :
    Option (RowTable IPAddressBase) :=
  if c.subnets.rows.any (fun s => s.id = a.base.subnetId) &&
      !(a.validTo.isNone && rows.rows.any fun r => r.isLive && r.base.hostId = a.base.hostId &&
        r.base.subnetId = a.base.subnetId && r.base.ipAddress = a.base.ipAddress) then
    rows.insertMany [⟨a, none⟩]
  else none

def newRow (created : ℕ) (a : IPAddress) : IPAddress :=
  if a.id = Uuid.nil then
    ⟨c.env.newIpAddressId created, c.env.now, c.env.now, none, none,
      { a.base with lastSeenAt := c.env.now }⟩
  else { a with createdAt := a.base.lastSeenAt, validFrom := a.base.lastSeenAt }

def step (s : AddressStage) (a : IPAddress) : Option AddressStage :=
  let a := c.place a
  let existing := match c.conflictBehavior with
    | .upsert => c.findExisting s.rows a
    | .error => none
  match existing with
  | some r =>
    let refreshed : IPAddress := { r.toRow with
      base := { r.base with lastSeenAt := a.base.lastSeenAt } }
    some { s with
      created := s.created ++ [refreshed]
      toRefresh := s.toRefresh ++ [refreshed] }
  | none =>
    let a := c.newRow s.created.length a
    (c.insertAddress s.rows a).map fun rows => { s with rows, created := s.created ++ [a] }

/-- The loop over the addresses, and the write of those that were seen again. -/
def createIpAddresses (rows : RowTable IPAddressBase) :
    Option (RowTable IPAddressBase × List IPAddress) :=
  (c.incoming.foldlM c.step { rows }).map fun s => (s.rows.update s.toRefresh, s.created)

end AddressContext

structure PreparedHost (R : Type) where
  context : AddressContext
  hosts : RowTable HostBase
  rest : R

def alignHost {R : Type} (limitCtx : Option HostLimitContext)
    (conflictBehavior : ConflictBehavior) (request : DiscoveryHostRequest) (store : HostStore R) :
    Except CreateError Host :=
  match findMatchingHost store.hosts store.ipAddresses request.host.base.networkId
      request.ipAddresses with
  | some existing =>
    match conflictBehavior with
    | .error => .error (.matchingHost existing.base.name existing.id)
    | .upsert => .ok { request.host with id := existing.id }
  | none =>
    match limitCtx with
    | some ctx =>
      let current := (store.hosts.rows.filter fun h =>
        h.isLive && h.base.networkId ∈ ctx.orgNetworkIds).length
      if ctx.limit ≤ current then .error (.hostLimitReached current ctx.limit)
      else .ok request.host
    | none => .ok request.host

def prepareHost {R : Type} (env : CreateEnv) (others : OtherStages R)
    (limitCtx : Option HostLimitContext) (conflictBehavior : ConflictBehavior)
    (request : DiscoveryHostRequest) (store : HostStore R) :
    Except CreateError (PreparedHost R) := do
  let host ← alignHost limitCtx conflictBehavior request store
  let (hosts, host) ← createUnlocked env store.hosts host
  let rest ← (others.ports request host store.rest).elim (.error .failed) .ok
  let (rest, owner) ← (others.owners request host rest).elim (.error .failed) .ok
  let s ← (request.subnets.foldlM (SubnetStage.step env host owner)
    { subnets := store.subnets }).elim (.error .failed) .ok
  pure {
    context := {
      env, host, conflictBehavior, incoming := request.ipAddresses
      subnets := s.subnets
      subnetIdRemap := s.subnetIdRemap
      createdSubnetIds := s.createdSubnetIds }
    hosts, rest }

def createWithChildren {R : Type} (env : CreateEnv) (others : OtherStages R)
    (limitCtx : Option HostLimitContext) (conflictBehavior : ConflictBehavior)
    (request : DiscoveryHostRequest) (store : HostStore R) :
    Except CreateError (HostResponse × HostStore R) := do
  let p ← prepareHost env others limitCtx conflictBehavior request store
  let host := p.context.host
  let (ipAddresses, created) ←
    (p.context.createIpAddresses store.ipAddresses).elim (.error .failed) .ok
  let store : HostStore R := ⟨p.hosts, p.context.subnets, ipAddresses, p.rest⟩
  let (rest, children) ← (others.children request host (request.ipAddresses.zip created)
    store).elim (.error .failed) .ok
  pure (
    { id := host.id, createdAt := host.createdAt, name := host.base.name
      networkId := host.base.networkId, hostname := host.base.hostname
      description := host.base.description
      virtualizationServiceId := host.base.virtualizationServiceId, hidden := host.base.hidden
      credentialAssignments := children.credentialAssignments, ipAddresses := created
      ports := children.ports, services := children.services, interfaces := children.interfaces },
    { store with rest })

end Scanopy
