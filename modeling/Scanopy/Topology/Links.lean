import Scanopy.Topology.Resolver

/-! The resolution of the neighbours of a network. The LLDP and CDP pass first finds the device of
every port and which ports name each other; then it re-examines the bound ports and tries to bind
the others. The pass over the learned addresses follows. -/

namespace Scanopy

inductive PortBinding
  | stands
  /-- The two ports that name each other are others. -/
  | rebind (pairedId : Uuid)
  /-- The binding rests on a MAC that several ports of the device carry. -/
  | reopen (hostId : Uuid)
  deriving DecidableEq

namespace NetworkInventory

/-- `new_from_entity_ids(&[id]).live()`. -/
def liveInterface (inv : NetworkInventory) (id : Uuid) : Option SnmpInterface :=
  inv.interfaces.rows.find? fun i => i.isLive && i.id = id

def saveInterface (inv : NetworkInventory) (i : SnmpInterface) : NetworkInventory :=
  { inv with interfaces := inv.interfaces.updateMany [i] (·.id) (fun u _ => u) fun _ _ h => h }

/-- `lldp_neighbors_in_network`. -/
def namesNeighbor (networkId : Uuid) (i : SnmpInterface) : Bool :=
  i.isLive && i.base.networkId = networkId && (i.base.lldpChassisId.isSome ||
    i.base.cdpDeviceId.isSome || i.base.cdpAddress.isSome || i.base.neighbor.isSome)

section ParseMac
variable (parseMac : String → Option MacAddress)

def deviceVerdict (inv : NetworkInventory) (networkId : Uuid) (i : SnmpInterface) :
    IdentityResolution :=
  match i.base.neighbor with
  | some (.interface boundId) => .found ((inv.liveInterface boundId).map (·.base.hostId))
  | some (.host hostId) => .resolved hostId
  | none =>
    match i.base.lldpChassisId, i.base.cdpDeviceId with
    | some chassisId, _ => inv.resolveHostId parseMac chassisId networkId i.base.lldpSysName
    | none, some deviceId => .found (inv.findHostBySysName deviceId networkId)
    | none, none => .noStrategy

def portsBetween (inv : NetworkInventory) (networkId localHost remoteHost : Uuid) : List Uuid :=
  (inv.interfaces.rows.filter fun i => namesNeighbor networkId i && i.base.hostId = localHost &&
    inv.deviceVerdict parseMac networkId i = .resolved remoteHost &&
    remoteHost ≠ localHost).map (·.id)

def reciprocal (inv : NetworkInventory) (networkId : Uuid) (i : SnmpInterface) :
    Option (Uuid × Uuid) :=
  match inv.deviceVerdict parseMac networkId i with
  | .resolved remoteHost =>
    match inv.portsBetween parseMac networkId i.base.hostId remoteHost,
      inv.portsBetween parseMac networkId remoteHost i.base.hostId with
    | [_], [remotePort] => some (remotePort, remoteHost)
    | _, _ => none
  | _ => none

def reExaminePortBinding (inv : NetworkInventory) (pair : Option (Uuid × Uuid))
    (i : SnmpInterface) (boundId : Uuid) : PortBinding :=
  match pair with
  | some (pairedId, _) => if pairedId = boundId then .stands else .rebind pairedId
  | none =>
    if SnmpInterface.portBoundByMac i then
      match inv.liveInterface boundId with
      | some bound =>
        match bound.base.macAddress with
        | some mac =>
          if inv.findIfEntryByMacAddr mac bound.base.hostId = .ambiguous then
            .reopen bound.base.hostId
          else .stands
        | none => .stands
      | none => .stands
    else .stands

def advertisedPort (inv : NetworkInventory) (i : SnmpInterface) (hostId : Uuid) :
    IdentityResolution :=
  match i.base.lldpChassisId, i.base.cdpDeviceId with
  | some _, _ =>
    let port : IdentityResolution := match i.base.lldpPortId with
      | some portId => inv.resolveIfEntryId parseMac portId hostId
      | none => .noStrategy
    match port.id?, i.base.lldpPortDesc.filter fun desc => trim desc ≠ "" with
    | none, some desc =>
      match inv.findIfEntryByName desc hostId with
      | some id => .resolved id
      | none => port
    | _, _ => port
  | none, some _ =>
    match i.base.cdpPortId with
    | some portId => .found (inv.findIfEntryByName portId hostId)
    | none => .noStrategy
  | none, none => .noStrategy

/-- The port that names this one back stands in for a port that could not be identified. -/
def pairReciprocally (port : IdentityResolution) (pair : Option (Uuid × Uuid)) (hostId : Uuid) :
    IdentityResolution :=
  match port, pair with
  | .resolved id, _ => .resolved id
  | port, some (pairedId, pairedHost) => if pairedHost = hostId then .resolved pairedId else port
  | port, none => port

def recordPort (port : IdentityResolution) (hostId : Uuid) : Neighbor :=
  match port with
  | .resolved id => .interface id
  | _ => .host hostId

/-- The neighbour of a port that is not bound to a port, after the tiers have run. -/
def resolveTiers (inv : NetworkInventory) (hostOf : IdentityResolution)
    (pair : Option (Uuid × Uuid)) (i : SnmpInterface) (neighbor : Option Neighbor) :
    Option Neighbor :=
  if i.base.lldpChassisId.isSome || i.base.cdpDeviceId.isSome then
    let host : IdentityResolution := match neighbor with
      | some (.host hostId) => .resolved hostId
      | _ => hostOf
    match host with
    | .resolved hostId =>
      some (recordPort (pairReciprocally (inv.advertisedPort parseMac i hostId) pair hostId) hostId)
    | _ => neighbor
  else
    -- Only a management address, or nothing at all: there is nothing to resolve.
    neighbor

def resolveNeighbor (inv : NetworkInventory) (hostOf : IdentityResolution)
    (pair : Option (Uuid × Uuid)) (i : SnmpInterface) : Option Neighbor :=
  match i.base.neighbor with
  | some (.interface boundId) =>
    match inv.reExaminePortBinding pair i boundId with
    | .stands => i.base.neighbor
    | .rebind pairedId => some (.interface pairedId)
    | .reopen hostId => inv.resolveTiers parseMac hostOf pair i (some (.host hostId))
  | neighbor => inv.resolveTiers parseMac hostOf pair i neighbor

/-- A row is written only if its neighbour has changed. -/
def persistNeighbor (inv : NetworkInventory) (i : SnmpInterface) (neighbor : Option Neighbor) :
    NetworkInventory :=
  if neighbor ≠ i.base.neighbor then inv.saveInterface (SnmpInterface.setNeighbor i neighbor)
  else inv

/-- The devices and the pairs are those of the store before the pass; the lookups read what the
pass has written so far. -/
def resolveLldpLinks (inv : NetworkInventory) (networkId : Uuid) : NetworkInventory :=
  (inv.interfaces.rows.filter (namesNeighbor networkId)).foldl (fun current i =>
    current.persistNeighbor i (current.resolveNeighbor parseMac
      (inv.deviceVerdict parseMac networkId i) (inv.reciprocal parseMac networkId i) i)) inv

/-- `unresolved_fdb_in_network`. -/
def hasUnresolvedFdb (networkId : Uuid) (i : SnmpInterface) : Bool :=
  i.isLive && i.base.networkId = networkId && (i.base.fdbMacs.any fun macs => macs.length == 1) &&
    i.base.neighbor.isNone && i.base.lldpChassisId.isNone && i.base.cdpDeviceId.isNone

def fdbNeighbor (inv : NetworkInventory) (networkId : Uuid) (i : SnmpInterface) :
    Option Neighbor := do
  let [mac] ← i.base.fdbMacs | none
  let hostId ← inv.findHostByMac parseMac mac networkId
  some (recordPort (inv.findIfEntryByMac parseMac mac hostId) hostId)

def resolveFdbLinks (inv : NetworkInventory) (networkId : Uuid) : NetworkInventory :=
  (inv.interfaces.rows.filter (hasUnresolvedFdb networkId)).foldl (fun current i =>
    match current.fdbNeighbor parseMac networkId i with
    | some neighbor => current.saveInterface (SnmpInterface.setNeighbor i (some neighbor))
    | none => current) inv

end ParseMac
end NetworkInventory
end Scanopy
