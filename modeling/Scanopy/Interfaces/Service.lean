import Scanopy.Lib.Lookup
import Scanopy.Shared.Text
import Scanopy.Snapshots.Clone

/-! The interfaces of a device as SNMP reports them, with the neighbours that it has heard of. A
reported one is matched with a stored one by its name, else by its index, else by a MAC that no
other has. -/

namespace Scanopy

open List Option

inductive LldpChassisId
  | chassisComponent (id : String)
  | interfaceAlias (id : String)
  | portComponent (id : String)
  | macAddress (mac : String)
  | networkAddress (ip : IpAddr)
  | interfaceName (name : String)
  | locallyAssigned (id : String)
  deriving DecidableEq

def LldpChassisId.identifier : LldpChassisId → String
  | networkAddress addr => addr.toText
  | chassisComponent s | interfaceAlias s | portComponent s | macAddress s | interfaceName s
  | locallyAssigned s => s

inductive LldpPortId
  | interfaceAlias (id : String)
  | portComponent (id : String)
  | macAddress (mac : String)
  | networkAddress (ip : IpAddr)
  | interfaceName (id : String)
  | agentCircuitId (id : String)
  | locallyAssigned (id : String)
  deriving DecidableEq

/-- The identity of a device that its own SNMP agent reports. -/
structure SnmpHostBase extends HostBase where
  chassisId : Option String := none
  sysName : Option String := none
  deriving DecidableEq

abbrev SnmpHost := Row SnmpHostBase

structure SnmpInterfaceBase extends InterfaceBase where
  ifName : Option String := none
  ifAlias : Option String := none
  ifType : ℤ := 1
  lldpChassisId : Option LldpChassisId := none
  lldpPortId : Option LldpPortId := none
  lldpSysName : Option String := none
  lldpPortDesc : Option String := none
  lldpMgmtAddr : Option IpAddr := none
  lldpSysDesc : Option String := none
  cdpDeviceId : Option String := none
  cdpPortId : Option String := none
  cdpPlatform : Option String := none
  cdpAddress : Option IpAddr := none
  fdbMacs : Option (List String) := none
  lastSeenAt : Timestamp := 0
  deriving DecidableEq

abbrev SnmpInterface := Row SnmpInterfaceBase

/-- Loopbacks, tunnels, bridges, VLANs and wireless interfaces: never the end of a cable. -/
def excludedIfTypes : List ℤ := [24, 53, 71, 131, 135, 136, 209]

namespace SnmpInterface

def setNeighbor (i : SnmpInterface) (n : Option Neighbor) : SnmpInterface :=
  { i with base := { i.base with neighbor := n } }

/-- Keep the stored values of every group that the scan has not read to its end. -/
def preserveUncollectedData (i existing : SnmpInterface) (collected : InterfaceDataComplete) :
    SnmpInterface :=
  let b := i.base
  let e := existing.base
  let b := if collected.lldp then b else
    { b with lldpChassisId := e.lldpChassisId, lldpPortId := e.lldpPortId,
             lldpSysName := e.lldpSysName, lldpPortDesc := e.lldpPortDesc,
             lldpMgmtAddr := e.lldpMgmtAddr, lldpSysDesc := e.lldpSysDesc }
  let b := if collected.cdp then b else
    { b with cdpDeviceId := e.cdpDeviceId, cdpPortId := e.cdpPortId,
             cdpPlatform := e.cdpPlatform, cdpAddress := e.cdpAddress }
  let b := if collected.fdb then b else { b with fdbMacs := e.fdbMacs }
  let b := if collected.vlanMembership then b else
    { b with nativeVlanId := e.nativeVlanId, vlanIds := e.vlanIds }
  { i with base := b }

def preserveImmutableFields (i existing : SnmpInterface) : SnmpInterface :=
  { i with
    createdAt := existing.createdAt
    base := { i.base with
      macAddress := existing.base.macAddress.or i.base.macAddress
      ifName := i.base.ifName.or existing.base.ifName
      neighbor := i.base.neighbor.or existing.base.neighbor } }

def normalizeBlankIdentity (i : SnmpInterface) : SnmpInterface :=
  { i with base := { i.base with
      ifName := i.base.ifName.filter fun s => trim s ≠ ""
      ifAlias := i.base.ifAlias.filter fun s => trim s ≠ "" } }

def portBoundByMac (i : SnmpInterface) : Bool :=
  match i.base.lldpPortId with
  | some (.macAddress _) => true
  | _ => i.base.lldpChassisId.isNone && i.base.cdpDeviceId.isNone &&
      i.base.fdbMacs.any fun macs => macs.length == 1

theorem preserveUncollectedData_frame (i existing : SnmpInterface)
    (collected : InterfaceDataComplete) :
    (preserveUncollectedData i existing collected).base.hostId = i.base.hostId ∧
      (preserveUncollectedData i existing collected).base.networkId = i.base.networkId ∧
      (preserveUncollectedData i existing collected).base.neighbor = i.base.neighbor ∧
      (preserveUncollectedData i existing collected).base.ipAddressId = i.base.ipAddressId := by
  obtain ⟨lldp, cdp, fdb, vlanMembership⟩ := collected
  unfold preserveUncollectedData
  cases lldp <;> cases cdp <;> cases fdb <;> cases vlanMembership <;> exact ⟨rfl, rfl, rfl, rfl⟩

theorem preserveUncollectedData_of_collected (i existing : SnmpInterface)
    (vlanMembership : Bool) :
    (preserveUncollectedData i existing ⟨true, true, true, vlanMembership⟩).base.lldpChassisId =
        i.base.lldpChassisId ∧
      (preserveUncollectedData i existing ⟨true, true, true, vlanMembership⟩).base.lldpSysName =
        i.base.lldpSysName ∧
      (preserveUncollectedData i existing ⟨true, true, true, vlanMembership⟩).base.cdpDeviceId =
        i.base.cdpDeviceId ∧
      (preserveUncollectedData i existing ⟨true, true, true, vlanMembership⟩).base.fdbMacs =
        i.base.fdbMacs := by
  unfold preserveUncollectedData
  cases vlanMembership <;> exact ⟨rfl, rfl, rfl, rfl⟩

end SnmpInterface

open Lookup

abbrev InterfaceTable := Table fun i : SnmpInterface => i.id

structure IngestEnv where
  scanTime : Timestamp
  now : Timestamp
  newId : Uuid

namespace InterfaceTable
variable (t : InterfaceTable)

def getForHost (hostId : Uuid) : List SnmpInterface :=
  (t.rows.filter fun i => i.isLive && i.base.hostId = hostId).insertionSort fun a b =>
    a.base.ifIndex ≤ b.base.ifIndex

/-- `idx_interfaces_host_name_live`: another live row of the host has this name. -/
def ifNameTaken (i : SnmpInterface) : Bool :=
  i.isLive && i.base.ifName.isSome && t.rows.any fun j =>
    j.id ≠ i.id && j.isLive && j.base.hostId = i.base.hostId && j.base.ifName = i.base.ifName

/-- `UPDATE`, refused if the index of names would hold a name twice. -/
def update (i : SnmpInterface) : Option InterfaceTable :=
  if t.ifNameTaken i then none
  else some (t.updateMany [i] (·.id) (fun u _ => u) fun _ _ h => h)

/-- `INSERT`, refused also if the id is taken. -/
def insert (i : SnmpInterface) : Option InterfaceTable :=
  if t.ifNameTaken i then none else t.insertMany [i]

end InterfaceTable

def matchExistingInterface (entry : SnmpInterface) (existing : List SnmpInterface)
    (claimed : List Uuid) : Option Uuid :=
  let available := existing.filter fun e => !claimed.contains e.id
  let byName := entry.base.ifName.bind fun ifName =>
    (available.find? fun e => e.base.ifName = some ifName).map (·.id)
  let byIndex := (available.find? fun e => e.base.ifIndex = entry.base.ifIndex).map (·.id)
  let byMac := entry.base.macAddress.bind fun mac =>
    (onlyMatch (available.filter fun e => e.base.macAddress = some mac)).map (·.id)
  byName.or (byIndex.or byMac)

namespace InterfaceTable

def findMatchingExisting (t : InterfaceTable) (entry : SnmpInterface) (claimed : List Uuid) :
    Option SnmpInterface :=
  let existing := t.getForHost entry.base.hostId
  (matchExistingInterface entry existing claimed).bind fun id => existing.find? (·.id = id)

/-- The row that a report becomes, over the stored row that it is matched with. -/
def mergeReport (entry existing : SnmpInterface) (collected : InterfaceDataComplete) :
    SnmpInterface :=
  SnmpInterface.preserveUncollectedData
    (SnmpInterface.preserveImmutableFields { entry with id := existing.id } existing) existing
    collected

def newReport (env : IngestEnv) (entry : SnmpInterface) : SnmpInterface :=
  if entry.id = Uuid.nil then
    ⟨env.newId, env.now, env.now, none, none, { entry.base with lastSeenAt := env.now }⟩
  else { entry with createdAt := env.scanTime, validFrom := env.scanTime }

def createOrUpdateFromDiscovery (t : InterfaceTable) (env : IngestEnv) (entry : SnmpInterface)
    (claimed : List Uuid) (collected : InterfaceDataComplete) :
    Option (InterfaceTable × SnmpInterface) :=
  let entry := SnmpInterface.normalizeBlankIdentity entry
  match t.findMatchingExisting entry claimed with
  | some existing =>
    let updated := mergeReport entry existing collected
    (t.update updated).map (·, updated)
  | none =>
    let created := newReport env entry
    (t.insert created).map (·, created)

variable {t t' : InterfaceTable} {env : IngestEnv} {entry row : SnmpInterface}
  {claimed : List Uuid} {collected : InterfaceDataComplete}

variable {i : SnmpInterface}

theorem mem_getForHost {hostId : Uuid} :
    i ∈ t.getForHost hostId ↔ i ∈ t ∧ i.isLive = true ∧ i.base.hostId = hostId := by
  unfold getForHost
  rw [mem_insertionSort, mem_filter, Bool.and_eq_true, decide_eq_true_eq]
  rfl

theorem of_findMatchingExisting {existing : SnmpInterface}
    (h : t.findMatchingExisting entry claimed = some existing) :
    existing ∈ t ∧ existing.isLive = true ∧ existing.base.hostId = entry.base.hostId := by
  obtain ⟨id, -, hfind⟩ := bind_eq_some_iff.mp h
  exact mem_getForHost.mp (mem_of_find?_eq_some hfind)

theorem rows_update (h : t.update i = some t') :
    t'.rows = t.rows.map fun j => if i.id = j.id then i else j := by
  unfold update at h
  split_ifs at h
  cases h
  rfl

theorem rows_insert (h : t.insert i = some t') :
    t'.rows = t.rows ++ [i] ∧ ∀ j ∈ t, j.id ≠ i.id := by
  unfold insert at h
  split_ifs at h
  obtain ⟨hrows, -, hfresh⟩ := Table.insertMany_eq_some h
  exact ⟨hrows, fun j hj => hfresh j hj i (mem_singleton_self i)⟩

theorem createOrUpdateFromDiscovery_cases
    (h : t.createOrUpdateFromDiscovery env entry claimed collected = some (t', row)) :
    (∃ existing, t.findMatchingExisting (SnmpInterface.normalizeBlankIdentity entry) claimed =
        some existing ∧
      row = mergeReport (SnmpInterface.normalizeBlankIdentity entry) existing collected ∧
      t'.rows = t.rows.map fun j => if row.id = j.id then row else j) ∨
    (t.findMatchingExisting (SnmpInterface.normalizeBlankIdentity entry) claimed = none ∧
      row = newReport env (SnmpInterface.normalizeBlankIdentity entry) ∧
      t'.rows = t.rows ++ [row] ∧ ∀ j ∈ t, j.id ≠ row.id) := by
  unfold createOrUpdateFromDiscovery at h
  cases hmatch : t.findMatchingExisting (SnmpInterface.normalizeBlankIdentity entry) claimed with
  | some existing =>
    simp only [hmatch] at h
    obtain ⟨t₁, ht₁, heq⟩ := map_eq_some_iff.mp h
    cases heq
    exact .inl ⟨existing, rfl, rfl, rows_update ht₁⟩
  | none =>
    simp only [hmatch] at h
    obtain ⟨t₁, ht₁, heq⟩ := map_eq_some_iff.mp h
    cases heq
    exact .inr ⟨rfl, rfl, rows_insert ht₁⟩

end InterfaceTable
end Scanopy
