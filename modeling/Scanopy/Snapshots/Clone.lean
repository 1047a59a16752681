import Mathlib.Data.List.Sort
import Scanopy.Lib.HashMap
import Scanopy.Lib.Table
import Scanopy.Shared.BulkInserts
import Scanopy.Shared.Entities

/-! Close-and-clone: a snapshot of a network inserts a closed copy of every live row, table after
table, so that copies can refer to the copies made before them. `newId` says which id a copy gets.
-/

namespace Scanopy

inductive SnapshotTable
  | subnet | vlan | host | ipAddress | port | service | interface | binding | subnetVlan
  | dependency | dependencyMember | entityTag
  deriving DecidableEq

/-- The columns of each table besides those of every version. -/
abbrev SnapshotTable.Base : SnapshotTable → Type
  | subnet => SubnetBase
  | vlan => VlanBase
  | host => HostBase
  | ipAddress => IPAddressBase
  | port => PortBase
  | service => ServiceBase
  | interface => InterfaceBase
  | binding => BindingBase
  | subnetVlan => SubnetVlanRecordBase
  | dependency => DependencyBase
  | dependencyMember => DependencyMemberRecordBase
  | entityTag => EntityTagBase

/-- A row as it is stored: the column `snapshot_id` is not part of the entity. -/
structure StoredRow (B : Type) extends Row B where
  snapshotId : Option Uuid
  deriving DecidableEq

abbrev RowTable (B : Type) := Table fun r : StoredRow B => r.id

abbrev NetworkRows := (k : SnapshotTable) → RowTable k.Base

/-- The ids of the closed copies, by the ids of the live rows. -/
structure FkMaps where
  hosts : HashMap Uuid Uuid := HashMap.empty
  subnets : HashMap Uuid Uuid := HashMap.empty
  vlans : HashMap Uuid Uuid := HashMap.empty
  services : HashMap Uuid Uuid := HashMap.empty
  ipAddresses : HashMap Uuid Uuid := HashMap.empty
  ports : HashMap Uuid Uuid := HashMap.empty
  interfaces : HashMap Uuid Uuid := HashMap.empty
  bindings : HashMap Uuid Uuid := HashMap.empty
  dependencies : HashMap Uuid Uuid := HashMap.empty

def remapId (map : HashMap Uuid Uuid) (id : Uuid) : Uuid := (map.get id).getD id

def FkMaps.lookupByEntityType (maps : FkMaps) (entityType : EntityDiscriminants) (liveId : Uuid) :
    Option Uuid :=
  match entityType with
  | .host => maps.hosts.get liveId
  | .service => maps.services.get liveId
  | .subnet => maps.subnets.get liveId
  | .dependency => maps.dependencies.get liveId
  | _ => none

class Snapshotable (B : Type) where
  /-- The number of columns of `to_params`. -/
  columnCount : Fin (maxBindParams + 1)
  /-- The foreign key to the table of the row itself. -/
  ownReference : B → Option Uuid := fun _ => none
  remapFksForClone : FkMaps → B → B := fun _ b => b
  remapOwnCloneRefs : HashMap Uuid Uuid → B → B := fun _ b => b

export Snapshotable (columnCount ownReference remapFksForClone remapOwnCloneRefs)

instance : Snapshotable SubnetBase := { columnCount := 16 }
instance : Snapshotable VlanBase := { columnCount := 15 }
instance : Snapshotable HostBase := { columnCount := 28 }
instance : Snapshotable DependencyBase := { columnCount := 14 }

instance : Snapshotable IPAddressBase where
  columnCount := 16
  remapFksForClone maps b := { b with
    hostId := remapId maps.hosts b.hostId
    subnetId := remapId maps.subnets b.subnetId }

instance : Snapshotable PortBase where
  columnCount := 14
  remapFksForClone maps b := { b with hostId := remapId maps.hosts b.hostId }

instance : Snapshotable ServiceBase where
  columnCount := 17
  remapFksForClone maps b := { b with hostId := remapId maps.hosts b.hostId }

instance : Snapshotable InterfaceBase where
  columnCount := 36
  ownReference b := match b.neighbor with
    | some (.interface id) => some id
    | _ => none
  -- `vlanIds` may point outside of the snapshot and stays as it is
  remapFksForClone maps b := { b with
    hostId := remapId maps.hosts b.hostId
    ipAddressId := b.ipAddressId.map (remapId maps.ipAddresses)
    nativeVlanId := b.nativeVlanId.map (remapId maps.vlans)
    neighbor := match b.neighbor with
      | some (.host id) => some (.host (remapId maps.hosts id))
      | neighbor => neighbor }
  remapOwnCloneRefs ownMap b := { b with
    neighbor := match b.neighbor with
      | some (.interface id) => some (.interface (remapId ownMap id))
      | neighbor => neighbor }

instance : Snapshotable BindingBase where
  columnCount := 14
  remapFksForClone maps b := { b with
    serviceId := remapId maps.services b.serviceId
    bindingType := match b.bindingType with
      | .ipAddress ipAddressId => .ipAddress (remapId maps.ipAddresses ipAddressId)
      | .port portId ipAddressId =>
        .port (remapId maps.ports portId) (ipAddressId.map (remapId maps.ipAddresses)) }

instance : Snapshotable SubnetVlanRecordBase where
  columnCount := 7
  remapFksForClone maps b := { b with
    subnetId := remapId maps.subnets b.subnetId
    vlanId := remapId maps.vlans b.vlanId }

instance : Snapshotable DependencyMemberRecordBase where
  columnCount := 9
  remapFksForClone maps b := { b with
    dependencyId := remapId maps.dependencies b.dependencyId
    serviceId := remapId maps.services b.serviceId
    bindingId := b.bindingId.map (remapId maps.bindings) }

instance : Snapshotable EntityTagBase where
  columnCount := 8
  -- `tagId` stays with the live tag
  remapFksForClone maps b := { b with
    entityId := (maps.lookupByEntityType b.entityType b.entityId).getD b.entityId }

/-- The entities that refer to the service that virtualizes them. -/
class VirtualizationServiceRef (B : Type) where
  virtualizationServiceId : B → Option Uuid
  setVirtualizationServiceId : B → Uuid → B

export VirtualizationServiceRef (virtualizationServiceId setVirtualizationServiceId)

instance : VirtualizationServiceRef HostBase where
  virtualizationServiceId := (·.virtualizationServiceId)
  setVirtualizationServiceId b id := { b with virtualizationServiceId := some id }

instance : VirtualizationServiceRef ServiceBase where
  virtualizationServiceId := (·.virtualizationServiceId)
  setVirtualizationServiceId b id := { b with virtualizationServiceId := some id }

instance : VirtualizationServiceRef SubnetBase where
  virtualizationServiceId := (·.virtualizationServiceId)
  setVirtualizationServiceId b id := { b with virtualizationServiceId := some id }

def remapVirtualizationServiceId {B : Type} [VirtualizationServiceRef B]
    (services : HashMap Uuid Uuid) (b : B) : Option B :=
  ((virtualizationServiceId b).bind services.get).map (setVirtualizationServiceId b)

variable {B : Type}

namespace Row

def makeClosedCopy (r : Row B) (closeAt : Timestamp) : Row B :=
  { r with lineageId := some r.id, validTo := some closeAt }

/-- The `live()` filter. -/
def isLive (r : Row B) : Bool := r.validTo.isNone

end Row

namespace RowTable

/-- `update_many_in_tx`: every column but `snapshot_id`. -/
def update (t : RowTable B) (rows : List (Row B)) : RowTable B :=
  t.updateMany rows (·.id) (fun u r => ⟨u, r.snapshotId⟩) fun _ _ h => h

/-- `UPDATE … SET snapshot_id = $1 WHERE id = ANY($2)`. -/
def stamp (t : RowTable B) (snapshotId : Uuid) (ids : List Uuid) : RowTable B :=
  t.modify (fun r => if r.id ∈ ids then { r with snapshotId := some snapshotId } else r) (by
    intro r
    show (if r.id ∈ ids then { r with snapshotId := some snapshotId } else r).id = r.id
    split_ifs <;> rfl)

def copy [Snapshotable B] (takenAt : Timestamp) (maps : FkMaps) (newId : Uuid → Uuid)
    (original : Row B) : Row B :=
  let closed := original.makeClosedCopy takenAt
  { closed with id := newId original.id, base := remapFksForClone maps closed.base }

/-- One `INSERT`. The foreign keys to the table itself are checked at its end, those to other tables
refer to rows that are there before. -/
def insertChunk [Snapshotable B] (t : RowTable B) (chunk : List (Row B)) : Option (RowTable B) :=
  (t.insertMany (chunk.map (⟨·, none⟩))).filter fun t' => chunk.all fun r =>
    (ownReference r.base).all fun id => t'.rows.any fun r' => r'.id = id

def chunkSize (B : Type) [Snapshotable B] : ℕ := maxBindParams / max (columnCount B).val 1

def createManyInTx [Snapshotable B] (t : RowTable B) (entities : List (Row B)) :
    Option (RowTable B) := (entities.chunks (chunkSize B)).foldlM insertChunk t

/-- `get_all_in_tx`, `ORDER BY created_at`. Rows of the same time come in any order. -/
def getAllInTx (t : RowTable B) (filter : StoredRow B → Bool) : List (StoredRow B) :=
  (t.rows.filter filter).insertionSort fun r r' => r.createdAt ≤ r'.createdAt

/-- `close_and_clone_for` on the live rows of the table that satisfy `filter`; `none` if an insert
is refused and the transaction rolls back. -/
def closeAndCloneFor [Snapshotable B] (t : RowTable B) (filter : B → Bool) (takenAt : Timestamp)
    (snapshotId : Uuid) (parentMaps : FkMaps) (newId : Uuid → Uuid) :
    Option (RowTable B × HashMap Uuid Uuid) :=
  let live := t.getAllInTx fun r => r.isLive && filter r.base
  if live.isEmpty then some (t, HashMap.empty)
  else
    let mapping := live.foldl (fun m r => m.insert r.id (newId r.id)) HashMap.empty
    let closed := (live.map fun r => copy takenAt parentMaps newId r.toRow).map fun r =>
      { r with base := remapOwnCloneRefs mapping r.base }
    (t.createManyInTx closed).map fun t =>
      let stamped := RowTable.stamp t snapshotId (closed.map (·.id))
      (stamped.update (live.map fun r => { r.toRow with validFrom := takenAt }), mapping)

/-- `remap_virtualization_service_ids` on the rows of the snapshot. -/
def remapVirtualizationServiceIds [VirtualizationServiceRef B] (t : RowTable B)
    (snapshotId : Uuid) (services : HashMap Uuid Uuid) : RowTable B :=
  let rows := t.getAllInTx fun r => r.snapshotId = some snapshotId
  t.update (rows.filterMap fun r =>
    (remapVirtualizationServiceId services r.base).map fun b => { r.toRow with base := b })

end RowTable

structure CloneState where
  rows : NetworkRows
  maps : FkMaps := {}

structure SnapshotRun where
  networkId : Uuid
  takenAt : Timestamp
  snapshotId : Uuid
  newId : SnapshotTable → Uuid → Uuid

namespace SnapshotRun

def clone (run : SnapshotRun) (k : SnapshotTable) [Snapshotable k.Base] (filter : k.Base → Bool)
    (setMap : FkMaps → HashMap Uuid Uuid → FkMaps) (s : CloneState) : Option CloneState :=
  ((s.rows k).closeAndCloneFor filter run.takenAt run.snapshotId s.maps (run.newId k)).map
    fun (t, mapping) => ⟨Function.update s.rows k t, setMap s.maps mapping⟩

def remapVirtualization (run : SnapshotRun) (k : SnapshotTable) [VirtualizationServiceRef k.Base]
    (s : CloneState) : CloneState :=
  let t := (s.rows k).remapVirtualizationServiceIds run.snapshotId s.maps.services
  { s with rows := Function.update s.rows k t }

/-- The ids that `host_ids.chain(service_ids)…` collects. -/
def isTaggedId (maps : FkMaps) (id : Uuid) : Bool :=
  maps.hosts.contains id || maps.services.contains id || maps.subnets.contains id ||
    maps.dependencies.contains id

def runCloseAndClone (run : SnapshotRun) (rows : NetworkRows) : Option NetworkRows := do
  let n := run.networkId
  let s : CloneState := ⟨rows, {}⟩
  let s ← run.clone .subnet (·.networkId = n) (fun maps m => { maps with subnets := m }) s
  let s ← run.clone .vlan (·.networkId = n) (fun maps m => { maps with vlans := m }) s
  let s ← run.clone .host (·.networkId = n) (fun maps m => { maps with hosts := m }) s
  let s ← run.clone .ipAddress (·.networkId = n)
    (fun maps m => { maps with ipAddresses := m }) s
  let s ← run.clone .port (fun b => s.maps.hosts.contains b.hostId)
    (fun maps m => { maps with ports := m }) s
  let s ← run.clone .service (·.networkId = n) (fun maps m => { maps with services := m }) s
  let s := run.remapVirtualization .host s
  let s := run.remapVirtualization .service s
  let s := run.remapVirtualization .subnet s
  let s ← run.clone .interface (fun b => s.maps.hosts.contains b.hostId)
    (fun maps m => { maps with interfaces := m }) s
  let s ← run.clone .binding (fun b => s.maps.services.contains b.serviceId)
    (fun maps m => { maps with bindings := m }) s
  let s ← run.clone .subnetVlan (fun b => s.maps.subnets.contains b.subnetId)
    (fun maps _ => maps) s
  let s ← run.clone .dependency (·.networkId = n)
    (fun maps m => { maps with dependencies := m }) s
  let s ← run.clone .dependencyMember (fun b => s.maps.dependencies.contains b.dependencyId)
    (fun maps _ => maps) s
  let s ← run.clone .entityTag (fun b => isTaggedId s.maps b.entityId) (fun maps _ => maps) s
  pure s.rows

end SnapshotRun

end Scanopy
