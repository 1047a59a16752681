import Scanopy.Lib.BTreeMap
import Scanopy.Snmp.Values

/-! The queries of an SNMP scan. Each assembles records from the columns of a table; a walk that is
cut short has read the first rows of its column and says that it is not complete. -/

namespace Scanopy

inductive SnmpColumn
  | ifIndex | ifDescr | ifType | ifMtu | ifSpeed | ifPhysAddress | ifAdminStatus | ifOperStatus
  | ifName | ifHighSpeed | ifAlias
  | lldpRemChassisIdSubtype | lldpRemChassisId | lldpRemPortIdSubtype | lldpRemPortId
  | lldpRemPortDesc | lldpRemSysName | lldpRemSysDesc | lldpRemManAddrIfSubtype
  | lldpLocPortIdSubtype | lldpLocPortId | lldpLocPortDesc
  | cdpCacheDeviceId | cdpCacheDevicePort | cdpCachePlatform | cdpCacheAddress
  | dot1dBasePortIfIndex | dot1dTpFdbAddress | dot1dTpFdbPort | dot1dTpFdbStatus
  | dot1qTpFdbPort | dot1qTpFdbStatus
  | dot1qVlanStaticName | vtpVlanName
  | dot1qPvid | dot1qVlanCurrentEgressPorts | dot1qVlanCurrentUntaggedPorts
  deriving DecidableEq

inductive WalkStop
  | endOfSubtree
  | endOfMibView
  | entryCap
  | transport
  | emptyResponse
  | nonAdvancingOid
  | staleResponse
  deriving DecidableEq

inductive ShortfallReason
  | entryCap (limit : ℕ)
  | noAnswer
  | desynchronised
  | unsupported
  deriving DecidableEq

def maxWalkEntries : ℕ := 10000

namespace WalkStop

def isTruncation : WalkStop → Bool
  | endOfSubtree | endOfMibView => false
  | _ => true

def isComplete (stop : WalkStop) : Bool := !stop.isTruncation

def isUnsupported : WalkStop → Bool
  | endOfMibView => true
  | _ => false

def shortfallReason : WalkStop → Option ShortfallReason
  | endOfSubtree => none
  | endOfMibView => some .unsupported
  | entryCap => some (.entryCap maxWalkEntries)
  | nonAdvancingOid | staleResponse => some .desynchronised
  | transport | emptyResponse => some .noAnswer

end WalkStop

structure ColumnWalk where
  rows : List (List ℕ × SnmpValue)
  stop : WalkStop

abbrev Walks := SnmpColumn → ColumnWalk

/-- What the columns of a query have managed so far. -/
structure Shortfall where
  complete : Bool := true
  reason : Option ShortfallReason := none
  deriving DecidableEq

namespace Shortfall

def record (s : Shortfall) (stop : WalkStop) : Shortfall :=
  if stop.isComplete then s
  else ⟨false, s.reason.or stop.shortfallReason⟩

def recordAll (walks : Walks) (columns : List SnmpColumn) (s : Shortfall) : Shortfall :=
  columns.foldl (fun s c => s.record (walks c).stop) s

theorem complete_record (s : Shortfall) (stop : WalkStop) :
    (s.record stop).complete = (s.complete && stop.isComplete) := by
  unfold record
  split_ifs with h
  · rw [h, Bool.and_true]
  · rw [Bool.not_eq_true] at h
    rw [h, Bool.and_false]

theorem complete_recordAll (walks : Walks) (columns : List SnmpColumn) (s : Shortfall) :
    (s.recordAll walks columns).complete = true ↔
      s.complete = true ∧ ∀ c ∈ columns, (walks c).stop.isComplete = true := by
  unfold recordAll
  induction columns generalizing s with
  | nil => simp
  | cons c columns ih =>
    rw [List.foldl_cons, ih, complete_record, Bool.and_eq_true, List.forall_mem_cons, and_assoc]

end Shortfall

structure SnmpCollection (T : Type) where
  records : T
  complete : Bool
  /-- The agent does not have the table at all. -/
  unsupported : Bool := false
  reason : Option ShortfallReason := none
  /-- Rows that were read and could not be used. -/
  discarded : ℕ := 0

namespace SnmpCollection

/-- The outcome of a query that has not come back. -/
def failed {T : Type} (empty : T) : SnmpCollection T := ⟨empty, false, false, some .noAnswer, 0⟩

/-- The outcome of a query that was not asked. -/
def skipped {T : Type} (empty : T) : SnmpCollection T := ⟨empty, true, false, none, 0⟩

def fromWalk {T : Type} (records : T) (s : Shortfall) : SnmpCollection T :=
  ⟨records, s.complete, false, s.reason, 0⟩

end SnmpCollection

section IfTable

structure IfTableEntry where
  ifIndex : ℤ
  ifDescr : Option String := none
  ifType : Option ℤ := none
  ifMtu : Option ℤ := none
  ifSpeed : Option ℕ := none
  ifPhysAddress : Option MacAddress := none
  ifAdminStatus : Option ℤ := none
  ifOperStatus : Option ℤ := none
  ifName : Option String := none
  ifAlias : Option String := none
  deriving DecidableEq

def ifColumns : List SnmpColumn :=
  [.ifIndex, .ifDescr, .ifType, .ifMtu, .ifSpeed, .ifPhysAddress, .ifAdminStatus, .ifOperStatus,
    .ifName, .ifHighSpeed, .ifAlias]

/-- What a value of a column says of an interface. The high speed is in megabits. -/
def IfTableEntry.read (column : SnmpColumn) (value : SnmpValue) (e : IfTableEntry) :
    IfTableEntry :=
  match column with
  | .ifDescr => { e with ifDescr := value.toText }
  | .ifType => { e with ifType := value.toI32 }
  | .ifMtu => { e with ifMtu := value.toI32 }
  | .ifSpeed => if e.ifSpeed.isNone then { e with ifSpeed := value.toU64 } else e
  | .ifPhysAddress => { e with ifPhysAddress := value.toMac }
  | .ifAdminStatus => { e with ifAdminStatus := value.toI32 }
  | .ifOperStatus => { e with ifOperStatus := value.toI32 }
  | .ifName => { e with ifName := value.toText }
  | .ifHighSpeed => match value.toU64 with
    | some mbps => { e with ifSpeed := some (mbps * 1000000 % 2 ^ 64) }
    | none => e
  | .ifAlias => { e with ifAlias := value.toText }
  | _ => e

structure IfTableWalk where
  entries : List IfTableEntry := []
  setComplete : Bool := false
  attributesComplete : Bool := false

structure IfTableStage where
  entries : BTreeMap ℤ IfTableEntry := BTreeMap.empty
  /-- The interfaces that the index column lists, if it lists any. -/
  knownIfIndexes : Option (List ℤ) := none
  foreignRows : ℕ := 0
  complete : Bool := true
  indexColumnComplete : Option Bool := none

/-- One column of the table. A row of an interface that the index column does not list is foreign
and left out. -/
def IfTableStage.walkColumn (walks : Walks) (s : IfTableStage) (column : SnmpColumn) :
    IfTableStage :=
  let walk := walks column
  let rows := walk.rows.filterMap fun (suffix, value) =>
    suffix.getLast?.map fun i => (asI32 i, value)
  let (known, foreign) := rows.partition fun (i, _) => s.knownIfIndexes.all fun l => i ∈ l
  { entries := known.foldl (fun m (i, value) => m.alter i { ifIndex := i }
      (IfTableEntry.read column value)) s.entries
    knownIfIndexes := if column = .ifIndex && !rows.isEmpty then some (rows.map (·.1))
      else s.knownIfIndexes
    foreignRows := s.foreignRows + foreign.length
    complete := s.complete && walk.stop.isComplete && foreign.isEmpty
    indexColumnComplete := if column = .ifIndex then some walk.stop.isComplete
      else s.indexColumnComplete }

def walkIfTable (walks : Walks) : IfTableWalk :=
  let s := ifColumns.foldl (IfTableStage.walkColumn walks) {}
  { entries := s.entries.values
    setComplete := match s.indexColumnComplete with
      | some true => s.foreignRows = 0
      | some false => false
      | none => s.complete
    attributesComplete := s.complete }

end IfTable

section Neighbors

structure LldpNeighbor where
  localPortIndex : ℤ
  remoteChassisIdSubtype : Option Byte := none
  remoteChassisIdBytes : Option (List Byte) := none
  remotePortIdSubtype : Option Byte := none
  remotePortIdBytes : Option (List Byte) := none
  remotePortDesc : Option String := none
  remoteSysName : Option String := none
  remoteSysDesc : Option String := none
  remoteMgmtAddr : Option IpAddr := none
  deriving DecidableEq

def lldpColumns : List SnmpColumn :=
  [.lldpRemChassisIdSubtype, .lldpRemChassisId, .lldpRemPortIdSubtype, .lldpRemPortId,
    .lldpRemPortDesc, .lldpRemSysName, .lldpRemSysDesc]

/-- What a value of a column says of a neighbour. A chassis id of a wrong type is passed over. -/
def LldpNeighbor.read (column : SnmpColumn) (value : SnmpValue) (n : LldpNeighbor) :
    LldpNeighbor :=
  match column with
  | .lldpRemChassisIdSubtype =>
    { n with remoteChassisIdSubtype := value.toSubtype.or n.remoteChassisIdSubtype }
  | .lldpRemChassisId => { n with remoteChassisIdBytes := value.toBytes.or n.remoteChassisIdBytes }
  | .lldpRemPortIdSubtype => { n with remotePortIdSubtype := value.toSubtype }
  | .lldpRemPortId => { n with remotePortIdBytes := value.toBytes.or n.remotePortIdBytes }
  | .lldpRemPortDesc => { n with remotePortDesc := value.toText }
  | .lldpRemSysName => { n with remoteSysName := value.toText }
  | .lldpRemSysDesc => { n with remoteSysDesc := value.toText }
  | _ => n

def lldpKey (suffix : List ℕ) : Option (ℤ × ℤ) :=
  match suffix.reverse with
  | remIndex :: localPort :: _ => some (asI32 localPort, asI32 remIndex)
  | _ => none

def readLldpRow (column : SnmpColumn) (m : HashMap (ℤ × ℤ) LldpNeighbor)
    (row : List ℕ × SnmpValue) : HashMap (ℤ × ℤ) LldpNeighbor :=
  match lldpKey row.1 with
  | some key => m.alter key { localPortIndex := key.1 } (LldpNeighbor.read column row.2)
  | none => m

/-- One management address, for a neighbour that is there already. -/
def readLldpManAddr (m : HashMap (ℤ × ℤ) LldpNeighbor) (row : List ℕ × SnmpValue) :
    HashMap (ℤ × ℤ) LldpNeighbor :=
  match splitLldpManAddrIndex row.1 with
  | some (localPort, remIndex, bytes) =>
    match parseLldpMgmtAddr bytes, m.get (localPort, remIndex) with
    | some addr, some n => m.insert (localPort, remIndex) { n with remoteMgmtAddr := some addr }
    | _, _ => m
  | none => m

def lldpTable (walks : Walks) : HashMap (ℤ × ℤ) LldpNeighbor :=
  (walks .lldpRemManAddrIfSubtype).rows.foldl readLldpManAddr
    (lldpColumns.foldl (fun m c => (walks c).rows.foldl (readLldpRow c) m) HashMap.empty)

def lldpShortIndex (walks : Walks) : ℕ :=
  (lldpColumns.map fun c => ((walks c).rows.filter fun row => (lldpKey row.1).isNone).length).sum

def LldpNeighbor.hasChassisId (n : LldpNeighbor) : Bool :=
  n.remoteChassisIdSubtype.isSome && n.remoteChassisIdBytes.isSome

/-- `query_lldp_neighbors`. The walk of the management addresses does not count. -/
def queryLldpNeighbors (walks : Walks) (order : List (ℤ × ℤ)) :
    SnmpCollection (List LldpNeighbor) :=
  let neighbors := ((lldpTable walks).iterate order).map Prod.snd
  let records := neighbors.filter LldpNeighbor.hasChassisId
  let discarded := (neighbors.length - records.length) + lldpShortIndex walks
  let shortfall := Shortfall.recordAll walks lldpColumns {}
  { records
    complete := shortfall.complete && discarded = 0
    unsupported := lldpColumns.all (fun c => (walks c).stop.isUnsupported) && records.isEmpty
    reason := shortfall.reason
    discarded }

structure LldpLocalPort where
  portIdSubtype : Option Byte := none
  portId : Option String := none
  portIdMac : Option MacAddress := none
  portDesc : Option String := none
  deriving DecidableEq

def lldpLocColumns : List SnmpColumn := [.lldpLocPortIdSubtype, .lldpLocPortId, .lldpLocPortDesc]

/-- What a value of a column says of a local port. An id is read as text and as an address. -/
def LldpLocalPort.read (parseMac : String → Option MacAddress) (column : SnmpColumn)
    (value : SnmpValue) (p : LldpLocalPort) : LldpLocalPort :=
  match column with
  | .lldpLocPortIdSubtype => { p with portIdSubtype := value.toSubtype }
  | .lldpLocPortId =>
    { p with
      portId := value.toText
      portIdMac := value.toMac.or ((value.toText.bind (canonicalMac parseMac)).bind parseMac) }
  | .lldpLocPortDesc => { p with portDesc := value.toText }
  | _ => p

def queryLldpLocalPorts (parseMac : String → Option MacAddress) (walks : Walks) :
    SnmpCollection (HashMap ℤ LldpLocalPort) :=
  let ports := lldpLocColumns.foldl (fun m c => (walks c).rows.foldl (fun m row =>
    match row.1.head? with
    | some num => m.alter (asI32 num) {} (LldpLocalPort.read parseMac c row.2)
    | none => m) m) HashMap.empty
  .fromWalk ports (Shortfall.recordAll walks lldpLocColumns {})

structure CdpNeighbor where
  localPortIndex : ℤ
  remoteDeviceId : Option String := none
  remotePortId : Option String := none
  remotePlatform : Option String := none
  remoteAddress : Option IpAddr := none
  deriving DecidableEq

def cdpColumns : List SnmpColumn :=
  [.cdpCacheDeviceId, .cdpCacheDevicePort, .cdpCachePlatform, .cdpCacheAddress]

def CdpNeighbor.read (column : SnmpColumn) (value : SnmpValue) (n : CdpNeighbor) : CdpNeighbor :=
  match column with
  | .cdpCacheDeviceId => { n with remoteDeviceId := value.toText }
  | .cdpCacheDevicePort => { n with remotePortId := value.toText }
  | .cdpCachePlatform => { n with remotePlatform := value.toText }
  | .cdpCacheAddress => { n with remoteAddress := value.toIpv4.or n.remoteAddress }
  | _ => n

def cdpTable (walks : Walks) : HashMap (ℤ × ℤ) CdpNeighbor :=
  cdpColumns.foldl (fun m c => (walks c).rows.foldl (fun m row =>
    match row.1 with
    | ifIndex :: deviceIndex :: _ =>
      m.alter (asI32 ifIndex, asI32 deviceIndex) { localPortIndex := asI32 ifIndex }
        (CdpNeighbor.read c row.2)
    | _ => m) m) HashMap.empty

def queryCdpNeighbors (walks : Walks) (order : List (ℤ × ℤ)) :
    SnmpCollection (List CdpNeighbor) :=
  let neighbors := ((cdpTable walks).iterate order).map Prod.snd
  let records := neighbors.filter fun n => n.remoteDeviceId.isSome
  let discarded := neighbors.length - records.length
  let shortfall := Shortfall.recordAll walks cdpColumns {}
  { records
    complete := shortfall.complete && discarded = 0
    unsupported := cdpColumns.all (fun c => (walks c).stop.isUnsupported) && records.isEmpty
    reason := shortfall.reason
    discarded }

end Neighbors

section Bridge

/-- `query_bridge_port_mapping`: the interface of each port of the bridge. -/
def queryBridgePortMapping (walks : Walks) : SnmpCollection (HashMap ℤ ℤ) :=
  let ports := (walks .dot1dBasePortIfIndex).rows.foldl (fun m (suffix, value) =>
    match suffix.getLast?, value.toI32 with
    | some port, some ifIndex => m.insert (asI32 port) ifIndex
    | _, _ => m) HashMap.empty
  .fromWalk ports (Shortfall.recordAll walks [.dot1dBasePortIfIndex] {})

structure FdbBuilder where
  macAddress : Option MacAddress := none
  port : Option ℤ := none
  status : Option ℤ := none
  deriving DecidableEq

structure BridgeFdbEntry where
  macAddress : MacAddress
  bridgePort : ℤ
  ifIndex : Option ℤ
  status : ℤ
  deriving DecidableEq

def fdbColumns : List SnmpColumn := [.dot1dTpFdbAddress, .dot1dTpFdbPort, .dot1dTpFdbStatus]

def qbridgeFdbColumns : List SnmpColumn := [.dot1qTpFdbPort, .dot1qTpFdbStatus]

def FdbBuilder.read (column : SnmpColumn) (value : SnmpValue) (b : FdbBuilder) : FdbBuilder :=
  match column with
  | .dot1dTpFdbAddress => { b with macAddress := value.toMac }
  | .dot1dTpFdbPort | .dot1qTpFdbPort => { b with port := value.toI32 }
  | .dot1dTpFdbStatus | .dot1qTpFdbStatus => { b with status := value.toI32 }
  | _ => b

def legacyFdb (walks : Walks) : HashMap (List ℕ) FdbBuilder :=
  fdbColumns.foldl (fun m c => (walks c).rows.foldl (fun m row =>
    if row.1.length = 6 then m.alter row.1 {} (FdbBuilder.read c row.2) else m) m) HashMap.empty

/-- `walk_qbridge_fdb`: the table of the VLAN-aware bridge, whose index ends with the address. -/
def walkQbridgeFdb (walks : Walks) : HashMap (List ℕ) FdbBuilder :=
  qbridgeFdbColumns.foldl (fun m c => (walks c).rows.foldl (fun m row =>
    match qbridgeFdbIndexToMac row.1 with
    | some mac => m.alter row.1.tail {} fun b =>
      FdbBuilder.read c row.2 { b with macAddress := some mac }
    | none => m) m) HashMap.empty

/-- The row of the result, for learned addresses and those of the bridge itself. -/
def FdbBuilder.build (ports : HashMap ℤ ℤ) (b : FdbBuilder) : Option BridgeFdbEntry :=
  let status := b.status.getD 0
  if status ≠ 3 ∧ status ≠ 5 then none
  else b.port.bind fun port => b.macAddress.map fun mac => ⟨mac, port, ports.get port, status⟩

/-- `query_bridge_fdb`, after the walk of the ports, whose shortfall it starts from. -/
def queryBridgeFdb (walks : Walks) (bridgePorts : SnmpCollection (HashMap ℤ ℤ))
    (order : List (List ℕ)) : SnmpCollection (List BridgeFdbEntry) :=
  let legacy := Shortfall.recordAll walks fdbColumns ⟨bridgePorts.complete, bridgePorts.reason⟩
  let qbridge := Shortfall.recordAll walks qbridgeFdbColumns {}
  let entries := (legacyFdb walks).orInsertAll (walkQbridgeFdb walks)
  { records := (entries.iterate order).filterMap fun (_, b) => b.build bridgePorts.records
    complete := legacy.complete && qbridge.complete
    reason := legacy.reason }

end Bridge

section Vlans

structure VlanInfo where
  vlanId : BitVec 16
  name : String
  deriving DecidableEq

def readVlanNames (rows : List (List ℕ × SnmpValue)) : List VlanInfo :=
  rows.filterMap fun (suffix, value) => suffix.getLast?.bind fun vlan =>
    value.toText.map fun name => ⟨BitVec.ofNat 16 vlan, name⟩

/-- `query_vlan_table`. Without names in the first table the second one is walked, and the first
walk is forgotten. -/
def queryVlanTable (walks : Walks) : SnmpCollection (List VlanInfo) :=
  let vlans := readVlanNames (walks .dot1qVlanStaticName).rows
  if vlans.isEmpty then
    .fromWalk (readVlanNames (walks .vtpVlanName).rows)
      (Shortfall.recordAll walks [.vtpVlanName] {})
  else .fromWalk vlans (Shortfall.recordAll walks [.dot1qVlanStaticName] {})

structure PortVlanMembership where
  ifIndex : ℤ
  nativeVlan : Option (BitVec 16)
  taggedVlans : List (BitVec 16)
  deriving DecidableEq

def membershipColumns : List SnmpColumn :=
  [.dot1qPvid, .dot1qVlanCurrentEgressPorts, .dot1qVlanCurrentUntaggedPorts]

def readNativeVlans (rows : List (List ℕ × SnmpValue)) : HashMap ℤ (BitVec 16) :=
  rows.foldl (fun m (suffix, value) =>
    match suffix.getLast?, value.toU16 with
    | some port, some vlan => m.insert (asI32 port) vlan
    | _, _ => m) HashMap.empty

def readPortVlans (rows : List (List ℕ × SnmpValue)) : HashMap ℤ (List (BitVec 16)) :=
  rows.foldl (fun m (suffix, value) =>
    match suffix.getLast?, value.toBytes with
    | some vlan, some bytes => (parsePortlistBitmap bytes).foldl (fun m port =>
        m.alter port [] fun vlans => vlans ++ [BitVec.ofNat 16 vlan]) m
    | _, _ => m) HashMap.empty

/-- `query_port_vlan_membership`, after the walk of the ports. The tagged VLANs of a port are those
that it sends, less those that it sends untagged. -/
def queryPortVlanMembership (walks : Walks) (bridgePorts : SnmpCollection (HashMap ℤ ℤ))
    (order : List ℤ) : SnmpCollection (List PortVlanMembership) :=
  let start : Shortfall := ⟨bridgePorts.complete, bridgePorts.reason⟩
  if bridgePorts.records.keys = ∅ then .fromWalk [] start
  else
    let native := readNativeVlans (walks .dot1qPvid).rows
    let egress := readPortVlans (walks .dot1qVlanCurrentEgressPorts).rows
    let untagged := readPortVlans (walks .dot1qVlanCurrentUntaggedPorts).rows
    .fromWalk ((bridgePorts.records.iterate order).filterMap fun (port, ifIndex) =>
      let nativeVlan := native.get port
      let taggedVlans := ((egress.get port).getD []).filter fun v =>
        v ∉ (untagged.get port).getD []
      if nativeVlan.isSome || !taggedVlans.isEmpty then some ⟨ifIndex, nativeVlan, taggedVlans⟩
      else none) (start.recordAll walks membershipColumns)

end Vlans

end Scanopy
