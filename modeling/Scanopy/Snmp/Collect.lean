import Scanopy.Snmp.Queries

/-! One SNMP scan of a device: the interfaces that it reports, and which of their groups of data it
vouches for. Neighbours are attached to the ports by index. -/

namespace Scanopy

section LocalPorts

inductive LocalPortEvidence
  | interfaceIndex
  | uniqueMac
  | portIdName
  | portIdSuffix
  | portDescName
  | portDescWord
  deriving DecidableEq

/-- `unique_interface_macs`, as a lookup: the interface that has the address alone. The address of
zeros is none. -/
def uniqueInterfaceMac (entries : List IfTableEntry) (mac : MacAddress) : Option ℤ :=
  if mac = 0 then none
  else match entries.filter fun e => e.ifPhysAddress = some mac with
    | [e] => some e.ifIndex
    | _ => none

def IfTableEntry.hasName (e : IfTableEntry) (text : String) : Bool :=
  e.ifName = some text || e.ifDescr = some text

def findNamed (entries : List IfTableEntry) (text : String) : Option ℤ :=
  if trim text = "" then none else (entries.find? (·.hasName (trim text))).map (·.ifIndex)

def endsWith (s suffix : String) : Bool := suffix.toList.isSuffixOf s.toList

def endsAtBoundary (id : String) (name : Option String) : Bool :=
  name.any fun n => endsWith n (":" ++ id) || endsWith n ("/" ++ id)

def findBySuffix (entries : List IfTableEntry) (portId : String) : Option ℤ :=
  let id := trim portId
  if id = "" then none
  else (entries.find? fun e => endsAtBoundary id e.ifName || endsAtBoundary id e.ifDescr).map
    (·.ifIndex)

def splitWhitespace (s : String) : List String :=
  ((s.toList.splitBy fun a b => isWhitespace a == isWhitespace b).filter fun word =>
    word.any fun c => !isWhitespace c).map String.ofList

def findByWord (entries : List IfTableEntry) (desc : String) : Option ℤ :=
  let indexes := (splitWhitespace desc).flatMap fun word =>
    (entries.filter (·.hasName word)).map (·.ifIndex)
  match indexes.dedup with
  | [only] => some only
  | _ => none

/-- `resolve_lldp_local_port`: the interface of a local port, by the first column that tells. -/
def resolveLldpLocalPort (localPortNum : ℤ) (locPorts : HashMap ℤ LldpLocalPort)
    (entries : List IfTableEntry) : Option (ℤ × LocalPortEvidence) :=
  (locPorts.get localPortNum).bind fun p =>
    let byIndex := if p.portIdSubtype = some 2 then
        (p.portId.bind fun id => parseI32 (trim id)).map fun i => (i, LocalPortEvidence.interfaceIndex)
      else none
    let byMac := if p.portIdSubtype = some 3 then
        (p.portIdMac.bind (uniqueInterfaceMac entries)).map fun i => (i, .uniqueMac)
      else none
    let byName := (p.portId.bind (findNamed entries)).map fun i => (i, .portIdName)
    let bySuffix := (p.portId.bind (findBySuffix entries)).map fun i => (i, .portIdSuffix)
    let byDesc := (p.portDesc.bind (findNamed entries)).map fun i => (i, .portDescName)
    let byWord := (p.portDesc.bind (findByWord entries)).map fun i => (i, .portDescWord)
    byIndex.or (byMac.or (byName.or (bySuffix.or (byDesc.or byWord))))

/-- `remap_lldp_local_ports`: the neighbours with the index of their interface. Without a table of
local ports the numbers are taken for indexes. -/
def remapLldpLocalPorts (neighbors : List LldpNeighbor) (locPorts : HashMap ℤ LldpLocalPort)
    (entries : List IfTableEntry) : List LldpNeighbor :=
  if locPorts.keys = ∅ then neighbors
  else neighbors.map fun n => match resolveLldpLocalPort n.localPortIndex locPorts entries with
    | some (ifIndex, _) => { n with localPortIndex := ifIndex }
    | none => n

end LocalPorts

structure SnmpRecords where
  lldpNeighbors : List LldpNeighbor := []
  cdpNeighbors : List CdpNeighbor := []
  bridgeFdb : List BridgeFdbEntry := []
  portVlanMembership : List PortVlanMembership := []
  vlanNumberToUuid : HashMap (BitVec 16) Uuid := HashMap.empty

structure MacText where
  parse : String → Option MacAddress
  format : MacAddress → String

/-- `convert_snmp_if_entry`, with the id and the time that the new row draws. -/
def convertSnmpIfEntry (macText : MacText) (newId : Uuid) (now : Timestamp) (entry : IfTableEntry)
    (networkId : Uuid) (records : SnmpRecords) : SnmpInterface :=
  let lldp := records.lldpNeighbors.find? (·.localPortIndex = entry.ifIndex)
  let cdp := records.cdpNeighbors.find? (·.localPortIndex = entry.ifIndex)
  let vlans := records.portVlanMembership.find? (·.ifIndex = entry.ifIndex)
  let macs := (records.bridgeFdb.filter fun f => f.ifIndex = some entry.ifIndex && f.status = 3).map
    fun f => macText.format f.macAddress
  let uuidOf := records.vlanNumberToUuid.get
  ⟨newId, now, now, none, none, {
    hostId := Uuid.nil
    networkId := networkId
    ifIndex := entry.ifIndex
    ifDescr := entry.ifDescr.getD ""
    macAddress := entry.ifPhysAddress
    ipAddressId := none
    neighbor := none
    nativeVlanId := (vlans.bind (·.nativeVlan)).bind uuidOf
    vlanIds := (vlans.map fun m => m.taggedVlans.filterMap uuidOf).filter fun v => !v.isEmpty
    ifName := entry.ifName
    ifAlias := entry.ifAlias
    ifType := entry.ifType.getD 1
    lldpChassisId := lldp.bind fun n => n.remoteChassisIdSubtype.bind fun subtype =>
      n.remoteChassisIdBytes.bind (LldpChassisId.fromSnmp macText.parse subtype)
    lldpPortId := lldp.bind fun n => n.remotePortIdSubtype.bind fun subtype =>
      n.remotePortIdBytes.bind (LldpPortId.fromSnmp macText.parse subtype)
    lldpSysName := lldp.bind (·.remoteSysName)
    lldpPortDesc := lldp.bind (·.remotePortDesc)
    lldpMgmtAddr := lldp.bind (·.remoteMgmtAddr)
    lldpSysDesc := lldp.bind (·.remoteSysDesc)
    cdpDeviceId := cdp.bind (·.remoteDeviceId)
    cdpPortId := cdp.bind (·.remotePortId)
    cdpPlatform := cdp.bind (·.remotePlatform)
    cdpAddress := cdp.bind (·.remoteAddress)
    fdbMacs := if macs.isEmpty then none else some macs }⟩

inductive SnmpQuery
  | ifTable | lldp | lldpLocalPorts | cdp | bridgePortMapping | bridgeFdb | vlanTable
  | portVlanMembership
  deriving DecidableEq

/-- All that one scan depends on beside the device: what the walks have read and where they have
stopped, which queries have run out of time, how the maps are iterated over, what the server
answers to the VLANs, and what the new rows draw. -/
structure SnmpScan where
  walks : Walks
  timedOut : SnmpQuery → Bool
  lldpOrder : List (ℤ × ℤ)
  cdpOrder : List (ℤ × ℤ)
  fdbOrder : List (List ℕ)
  portOrder : List ℤ
  upsertVlans : List VlanInfo → Option (HashMap (BitVec 16) Uuid)
  newId : ℤ → Uuid
  now : Timestamp

namespace SnmpScan
variable (macText : MacText) (scan : SnmpScan)

def queryOrDefault {T : Type} (q : SnmpQuery) (empty : T) (result : SnmpCollection T) :
    SnmpCollection T :=
  if scan.timedOut q then .failed empty else result

def ifTable : IfTableWalk := if scan.timedOut .ifTable then {} else walkIfTable scan.walks

def lldp : SnmpCollection (List LldpNeighbor) :=
  scan.queryOrDefault .lldp [] (queryLldpNeighbors scan.walks scan.lldpOrder)

/-- Not asked for without a neighbour to place. -/
def lldpLocalPorts : SnmpCollection (HashMap ℤ LldpLocalPort) :=
  if scan.lldp.records.isEmpty then .skipped HashMap.empty
  else scan.queryOrDefault .lldpLocalPorts HashMap.empty
    (queryLldpLocalPorts macText.parse scan.walks)

def cdp : SnmpCollection (List CdpNeighbor) :=
  scan.queryOrDefault .cdp [] (queryCdpNeighbors scan.walks scan.cdpOrder)

def bridgePorts : SnmpCollection (HashMap ℤ ℤ) :=
  scan.queryOrDefault .bridgePortMapping HashMap.empty (queryBridgePortMapping scan.walks)

def bridgeFdb : SnmpCollection (List BridgeFdbEntry) :=
  scan.queryOrDefault .bridgeFdb [] (queryBridgeFdb scan.walks scan.bridgePorts scan.fdbOrder)

def vlanTable : SnmpCollection (List VlanInfo) :=
  scan.queryOrDefault .vlanTable [] (queryVlanTable scan.walks)

/-- The ids of the VLANs; without names, or if the server refuses them, there are none. -/
def vlanNumberToUuid : HashMap (BitVec 16) Uuid :=
  if scan.vlanTable.records.isEmpty then HashMap.empty
  else (scan.upsertVlans scan.vlanTable.records).getD HashMap.empty

def portVlanMembership : SnmpCollection (List PortVlanMembership) :=
  scan.queryOrDefault .portVlanMembership []
    (queryPortVlanMembership scan.walks scan.bridgePorts scan.portOrder)

def records : SnmpRecords where
  lldpNeighbors := remapLldpLocalPorts scan.lldp.records (scan.lldpLocalPorts macText).records
    scan.ifTable.entries
  cdpNeighbors := scan.cdp.records
  bridgeFdb := scan.bridgeFdb.records
  portVlanMembership := scan.portVlanMembership.records
  vlanNumberToUuid := scan.vlanNumberToUuid

/-- The groups that the server may take for the whole truth. -/
def dataComplete : InterfaceDataComplete where
  lldp := scan.lldp.complete && !scan.lldp.unsupported
  cdp := scan.cdp.complete
  fdb := scan.bridgeFdb.complete
  vlanMembership := scan.portVlanMembership.complete

def convert (networkId : Uuid) (records : SnmpRecords) (entry : IfTableEntry) : SnmpInterface :=
  convertSnmpIfEntry macText (scan.newId entry.ifIndex) scan.now entry networkId records

/-- The interfaces as they are sent first, before the slower queries, with no group vouched for. -/
def checkpoint (networkId : Uuid) : List SnmpInterface :=
  scan.ifTable.entries.map (scan.convert macText networkId {})

def interfaces (networkId : Uuid) : List SnmpInterface :=
  scan.ifTable.entries.map (scan.convert macText networkId (scan.records macText))

end SnmpScan

end Scanopy
