import Scanopy.Interfaces.Service

/-! Which stored host or interface an advertised identifier stands for, among live rows. Some
lookups count their matches and answer only if there is one, the others take the first row. -/

namespace Scanopy
open Lookup

/-- The tables that a resolution reads, each in the order in which the store returns its rows. -/
structure NetworkInventory where
  hosts : Table fun h : SnmpHost => h.id
  ipAddresses : Table fun a : IPAddress => a.id
  interfaces : Table fun i : SnmpInterface => i.id

inductive IdentityResolution
  | resolved (id : Uuid)
  /-- No lookup applies to the identifier. -/
  | noStrategy
  /-- A lookup has matched nothing. -/
  | notFound
  /-- A lookup has matched more than one entity. -/
  | ambiguous
  deriving DecidableEq

namespace IdentityResolution

def found : Option Uuid → IdentityResolution
  | some id => resolved id
  | none => notFound

def id? : IdentityResolution → Option Uuid
  | resolved id => some id
  | _ => none

end IdentityResolution

/-- `physical_if_types`. -/
def SnmpInterface.isPhysical (i : SnmpInterface) : Bool := !excludedIfTypes.contains i.base.ifType

namespace NetworkInventory
variable (inv : NetworkInventory)

def findHostByIp (ip : IpAddr) (networkId : Uuid) : Option Uuid :=
  (inv.ipAddresses.rows.find? fun a =>
    a.isLive && a.base.networkId = networkId && a.base.ipAddress = ip).map (·.base.hostId)

def findHostByIfName (name : String) (networkId : Uuid) : Option Uuid :=
  (inv.interfaces.rows.find? fun i =>
    i.isLive && i.base.networkId = networkId && i.base.ifDescr = name).map (·.base.hostId)

def findHostByChassisId (chassisId : String) (networkId : Uuid) : Option Uuid :=
  (onlyMatch (inv.hosts.rows.filter fun h =>
    h.isLive && h.base.networkId = networkId && h.base.chassisId = some chassisId)).map (·.id)

def findHostBySysName (sysName : String) (networkId : Uuid) : Option Uuid :=
  (onlyMatch (inv.hosts.rows.filter fun h =>
    h.isLive && h.base.networkId = networkId && h.base.sysName = some sysName)).map (·.id)

def interfacesByMac (mac : MacAddress) (hostId : Uuid) : List SnmpInterface :=
  inv.interfaces.rows.filter fun i =>
    i.isLive && i.base.hostId = hostId && i.base.macAddress = some mac && i.isPhysical

def nameColumns : List (SnmpInterfaceBase → Option String) :=
  [fun b => some b.ifDescr, (·.ifName), (·.ifAlias)]

def advertisedNames (name : String) : List String :=
  name :: ((afterLastSlash name).filter (· ≠ "")).toList

/-- The conditions on a row that a lookup by name tries, in order. -/
def nameTiers (name : String) (hostId : Uuid) : List (SnmpInterface → Bool) :=
  (advertisedNames name).flatMap fun name => nameColumns.map fun column i =>
    i.isLive && i.base.hostId = hostId && column i.base = some name

def findIfEntryByName (name : String) (hostId : Uuid) : Option Uuid :=
  firstOfTiers (nameTiers name hostId) (·.id) inv.interfaces.rows

def ifIndexTier (ifIndex : ℤ) (hostId : Uuid) (i : SnmpInterface) : Bool :=
  i.isLive && i.base.hostId = hostId && i.base.ifIndex = ifIndex

def findIfEntryByIfIndex (ifIndex : ℤ) (hostId : Uuid) : Option Uuid :=
  (inv.interfaces.rows.find? (ifIndexTier ifIndex hostId)).map (·.id)

def addressTier (ip : IpAddr) (hostId : Uuid) (a : IPAddress) : Bool :=
  a.isLive && a.base.hostId = hostId && a.base.ipAddress = ip

def linkedTier (ipAddressId : Uuid) (i : SnmpInterface) : Bool :=
  i.isLive && i.base.ipAddressId = some ipAddressId

def findIfEntryByIp (ip : IpAddr) (hostId : Uuid) : Option Uuid := do
  let ipAddress ← inv.ipAddresses.rows.find? (addressTier ip hostId)
  (inv.interfaces.rows.find? (linkedTier ipAddress.id)).map (·.id)

/-- `resolve_device_local_port`: the id as a name, then as an index. -/
def resolveDeviceLocalPort (id : String) (hostId : Uuid) : IdentityResolution :=
  let id := trim id
  if id = "" then .noStrategy else
  match inv.findIfEntryByName id hostId with
  | some interfaceId => .resolved interfaceId
  | none =>
    match parseI32 id with
    | some ifIndex => .found (inv.findIfEntryByIfIndex ifIndex hostId)
    | none => .notFound

section ParseMac
-- `MacAddress::from_str`, of another crate.
variable (parseMac : String → Option MacAddress)

def findHostByMac (mac : String) (networkId : Uuid) : Option Uuid := do
  let macAddr ← parseMac mac
  let byAddress := (inv.ipAddresses.rows.find? fun a =>
    a.isLive && a.base.networkId = networkId && a.base.macAddress = some macAddr).map
      (·.base.hostId)
  byAddress.or (onlyMatch ((inv.interfaces.rows.filter fun i =>
    i.isLive && i.base.networkId = networkId && i.base.macAddress = some macAddr).map
      (·.base.hostId)).dedup)

/-- `find_if_entry_by_mac` on a MAC that has been parsed. -/
def findIfEntryByMacAddr (mac : MacAddress) (hostId : Uuid) : IdentityResolution :=
  match inv.interfacesByMac mac hostId with
  | [] => .notFound
  | [i] => .resolved i.id
  | _ => .ambiguous

def findIfEntryByMac (mac : String) (hostId : Uuid) : IdentityResolution :=
  match parseMac mac with
  | some macAddr => inv.findIfEntryByMacAddr macAddr hostId
  | none => .notFound

def findHostBySubtype (networkId : Uuid) : LldpChassisId → Option Uuid
  | .macAddress mac => inv.findHostByMac parseMac mac networkId
  | .networkAddress ip => inv.findHostByIp ip networkId
  | .interfaceName name => inv.findHostByIfName name networkId
  | .chassisComponent id | .locallyAssigned id => inv.findHostByChassisId id networkId
  | .interfaceAlias _ | .portComponent _ => none

def hasSubtypeStrategy : LldpChassisId → Bool
  | .interfaceAlias _ | .portComponent _ => false
  | _ => true

def resolveHostId (chassisId : LldpChassisId) (networkId : Uuid) (sysName : Option String) :
    IdentityResolution :=
  let bySubtype := inv.findHostBySubtype parseMac networkId chassisId
  let identifier := chassisId.identifier
  let byIdentifier :=
    if identifier ≠ "" then inv.findHostByChassisId identifier networkId else none
  let sysName := (sysName.map trim).filter (· ≠ "")
  let bySysName := sysName.bind fun sysName => inv.findHostBySysName sysName networkId
  match bySubtype.or (byIdentifier.or bySysName) with
  | some hostId => .resolved hostId
  | none =>
    if hasSubtypeStrategy chassisId || identifier ≠ "" || sysName.isSome then .notFound
    else .noStrategy

def resolveIfEntryId (portId : LldpPortId) (hostId : Uuid) : IdentityResolution :=
  match portId with
  | .macAddress mac => inv.findIfEntryByMac parseMac mac hostId
  | .networkAddress ip => .found (inv.findIfEntryByIp ip hostId)
  | .interfaceAlias id | .interfaceName id | .portComponent id | .agentCircuitId id
  | .locallyAssigned id => inv.resolveDeviceLocalPort id hostId

end ParseMac
end NetworkInventory
end Scanopy
