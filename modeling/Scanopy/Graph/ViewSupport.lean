import Scanopy.Credentials.Types
import Scanopy.Graph.BuildGraph
import Scanopy.Tags.Filtering
import Scanopy.Tags.History

/-! Which views a network has data for. The loader answers from live entities that are not hidden;
for a share the tables are asked as they stand, with closed rows and all tags of the organization.
-/

namespace Scanopy

open List Function

open Graph (TopologyView)

@[ext] structure TopologyViewSupport where
  /-- Some interface has a neighbour. -/
  l2Physical : Bool
  /-- Some entity of the network has an application tag. -/
  application : Bool
  deriving DecidableEq

def Graph.TopologyView.isSupported (support : TopologyViewSupport) : TopologyView → Bool
  | .l3Logical => true
  | .l2Physical => support.l2Physical
  | .workloads => true
  | .application => support.application

namespace TopologyViewSupport

def availableViews (support : TopologyViewSupport) : List TopologyView :=
  TopologyView.all.filter fun view => view.isSupported support

def ofLoaded (interfaces : List Interface) (tags : List Tag) : TopologyViewSupport where
  l2Physical := interfaces.any fun i => i.base.neighbor.isSome
  application := tags.any fun t => t.base.isApplication

theorem ext_iff_true {a b : TopologyViewSupport} :
    a = b ↔ (a.l2Physical = true ↔ b.l2Physical = true) ∧
      (a.application = true ↔ b.application = true) := by
  rw [← Bool.eq_iff_iff, ← Bool.eq_iff_iff]
  exact TopologyViewSupport.ext_iff

end TopologyViewSupport

section Queries
variable {B : Type}

abbrev RowFilter (B : Type) := StoredRow B → Bool

namespace RowFilter

def networkIds (networkId : B → Uuid) (ids : List Uuid) : RowFilter B :=
  fun r => decide (networkId r.base ∈ ids)

def hiddenIs (hidden : B → Bool) (value : Bool) (f : RowFilter B) : RowFilter B :=
  fun r => f r && decide (hidden r.base = value)

def live (f : RowFilter B) : RowFilter B := fun r => f r && r.isLive

def ofSnapshot (id : Uuid) (f : RowFilter B) : RowFilter B :=
  fun r => f r && decide (r.snapshotId = some id)

def applySnapshot (snapshotId : Option Uuid) (f : RowFilter B) : RowFilter B :=
  match snapshotId with
  | none => f.live
  | some id => f.ofSnapshot id

end RowFilter

def RowTable.getAll (t : RowTable B) (f : RowFilter B) : List (Row B) :=
  (t.rows.filter f).map (·.toRow)

theorem RowTable.any_getAll {t : RowTable B} {f : RowFilter B} {p : Row B → Bool} :
    (t.getAll f).any p = true ↔ ∃ r ∈ t, f r = true ∧ p r.toRow = true := by
  rw [getAll, any_map, any_filter, List.any_eq_true]
  refine exists_congr fun r => and_congr_right fun _ => ?_
  rw [comp_apply, Bool.and_eq_true]

structure Tagged (B : Type) where
  entity : Row B
  tags : List Uuid := []

namespace EntityTagTable
variable (t : EntityTagTable)

/-- `get_for_entities`, of a snapshot if it is given. -/
def getTagsMap (entityIds : List Uuid) (entityType : EntityDiscriminants) :
    Option Uuid → HashMap Uuid (List Uuid)
  | none => t.getForEntities entityIds entityType
  | some id =>
    (t.getAll (RowFilter.ofSnapshot id fun r => decide (r.base.entityId ∈ entityIds) &&
      decide (r.base.entityType = entityType))).foldl (fun result r =>
        result.alter r.base.entityId [] fun tagIds => tagIds ++ [r.base.tagId]) HashMap.empty

def bulkHydrateTags (entityType : EntityDiscriminants) (snapshotId : Option Uuid)
    (entities : List (Tagged B)) : List (Tagged B) :=
  let tagsMap := t.getTagsMap (entities.map (·.entity.id)) entityType snapshotId
  entities.map fun e => { e with tags := (tagsMap.get e.entity.id).getD e.tags }

def getAllAsOfSnapshot (rows : RowTable B) (entityType : EntityDiscriminants) (f : RowFilter B)
    (snapshotId : Option Uuid) : List (Tagged B) :=
  let all := t.bulkHydrateTags entityType none ((rows.getAll f).map fun r => { entity := r })
  if snapshotId.isSome then t.bulkHydrateTags entityType snapshotId all else all

variable {t} {rows : RowTable B} {entityType : EntityDiscriminants} {f : RowFilter B}

theorem mem_tags_getAllAsOfSnapshot {tagId : Uuid} :
    tagId ∈ (t.getAllAsOfSnapshot rows entityType f none).flatMap (·.tags) ↔
      ∃ r ∈ rows, f r = true ∧ tagId ∈ t.getForEntity (r.id, entityType) := by
  have hshown : ∀ r ∈ rows.getAll f,
      (((t.getForEntities ((rows.getAll f).map (·.id)) entityType).get r.id).getD []) =
        t.getForEntity (r.id, entityType) :=
    fun r hr => get_getForEntities (mem_map_of_mem hr)
  rw [getAllAsOfSnapshot, Option.isSome_none, if_neg Bool.false_ne_true, bulkHydrateTags,
    mem_flatMap]
  simp only [map_map, comp_def, getTagsMap, mem_map]
  constructor
  · rintro ⟨e, ⟨r, hr, rfl⟩, htag⟩
    rw [hshown r hr] at htag
    obtain ⟨stored, hstored, rfl⟩ := mem_map.mp hr
    obtain ⟨hmem, hf⟩ := mem_filter.mp hstored
    exact ⟨stored, hmem, hf, htag⟩
  · rintro ⟨r, hr, hf, htag⟩
    have hloaded : r.toRow ∈ rows.getAll f := mem_map_of_mem (mem_filter.mpr ⟨hr, hf⟩)
    refine ⟨_, ⟨r.toRow, hloaded, rfl⟩, ?_⟩
    rw [hshown r.toRow hloaded]
    exact htag

end EntityTagTable

end Queries

structure TopologyData where
  hosts : List (Tagged HostBase)
  ipAddresses : List IPAddress
  subnets : List (Tagged SubnetBase)
  dependencies : List Dependency
  ports : List Port
  bindings : List Binding
  interfaces : List Interface
  services : List (Tagged ServiceBase)
  vlans : List Vlan
  tags : List Tag
  availableViews : List TopologyView

structure TopologyStore where
  rows : NetworkRows
  tags : TagTable
  networks : Table fun n : Network => n.id

namespace TopologyStore
variable (s : TopologyStore)
variable {p : Tag → Bool}

def getEntityTags (hosts : List (Tagged HostBase)) (services : List (Tagged ServiceBase))
    (subnets : List (Tagged SubnetBase)) : List Tag :=
  let tagIds := (hosts.flatMap (·.tags) ++ services.flatMap (·.tags) ++
    subnets.flatMap (·.tags)).dedup
  if tagIds.isEmpty then [] else s.tags.getAll (RowFilter.live fun r => decide (r.id ∈ tagIds))

def getTopologyData (networkId : Uuid) (snapshotId : Option Uuid) : TopologyData :=
  let entityTags : EntityTagTable := s.rows .entityTag
  let hosts := entityTags.getAllAsOfSnapshot (s.rows .host) .host
    (((RowFilter.networkIds HostBase.networkId [networkId]).hiddenIs HostBase.hidden
      false).applySnapshot snapshotId) snapshotId
  let subnets := entityTags.getAllAsOfSnapshot (s.rows .subnet) .subnet
    ((RowFilter.networkIds SubnetBase.networkId [networkId]).applySnapshot snapshotId) snapshotId
  let interfaces := RowTable.getAll (s.rows .interface)
    ((RowFilter.networkIds InterfaceBase.networkId [networkId]).applySnapshot snapshotId)
  let services := entityTags.getAllAsOfSnapshot (s.rows .service) .service
    ((RowFilter.networkIds ServiceBase.networkId [networkId]).applySnapshot snapshotId) snapshotId
  let tags := s.getEntityTags hosts services subnets
  { hosts
    ipAddresses := RowTable.getAll (s.rows .ipAddress)
      ((RowFilter.networkIds IPAddressBase.networkId [networkId]).applySnapshot snapshotId)
    subnets
    dependencies := RowTable.getAll (s.rows .dependency)
      ((RowFilter.networkIds DependencyBase.networkId [networkId]).applySnapshot snapshotId)
    ports := RowTable.getAll (s.rows .port)
      ((RowFilter.networkIds PortBase.networkId [networkId]).applySnapshot snapshotId)
    bindings := RowTable.getAll (s.rows .binding)
      ((RowFilter.networkIds BindingBase.networkId [networkId]).applySnapshot snapshotId)
    interfaces
    services
    vlans := RowTable.getAll (s.rows .vlan)
      ((RowFilter.networkIds VlanBase.networkId [networkId]).applySnapshot snapshotId)
    tags
    availableViews := (TopologyViewSupport.ofLoaded interfaces tags).availableViews }

def getViewSupport (networkId : Uuid) : TopologyViewSupport where
  l2Physical :=
    (RowTable.getAll (s.rows .interface)
      (RowFilter.networkIds InterfaceBase.networkId [networkId])).any fun i =>
        i.base.neighbor.isSome
  application :=
    match s.networks.find networkId with
    | some network =>
      (s.tags.getAll fun r => decide (r.base.organizationId = network.organizationId)).any fun t =>
        t.base.isApplication
    | none => false

/-- Both answers have the same flags, and admit the same views. -/
def ViewSupportAgrees (networkId : Uuid) : Prop :=
  let data := s.getTopologyData networkId none
  s.getViewSupport networkId = TopologyViewSupport.ofLoaded data.interfaces data.tags ∧
    (s.getViewSupport networkId).availableViews = data.availableViews

def Assigned (networkId tagId : Uuid) : Prop :=
  (∃ r ∈ s.rows .host, r.base.networkId = networkId ∧ r.base.hidden = false ∧ r.isLive = true ∧
      tagId ∈ EntityTagTable.getForEntity (s.rows .entityTag) (r.id, .host)) ∨
    (∃ r ∈ s.rows .service, r.base.networkId = networkId ∧ r.isLive = true ∧
      tagId ∈ EntityTagTable.getForEntity (s.rows .entityTag) (r.id, .service)) ∨
    ∃ r ∈ s.rows .subnet, r.base.networkId = networkId ∧ r.isLive = true ∧
      tagId ∈ EntityTagTable.getForEntity (s.rows .entityTag) (r.id, .subnet)

structure ShowsSupport (network : Network) : Prop where
  links : (∃ r ∈ s.rows .interface, r.base.networkId = network.id ∧
      r.base.neighbor.isSome = true) →
    ∃ r ∈ s.rows .interface, r.base.networkId = network.id ∧ r.base.neighbor.isSome = true ∧
      r.isLive = true
  applications : (∃ r ∈ s.tags, r.base.organizationId = network.organizationId ∧
      r.base.isApplication = true) ↔
    ∃ r ∈ s.tags, r.isLive = true ∧ r.base.isApplication = true ∧ s.Assigned network.id r.id

variable {s} {networkId : Uuid} {network : Network}

theorem any_getEntityTags {hosts : List (Tagged HostBase)} {services : List (Tagged ServiceBase)}
    {subnets : List (Tagged SubnetBase)} :
    (s.getEntityTags hosts services subnets).any p = true ↔
      ∃ r ∈ s.tags, r.isLive = true ∧ p r.toRow = true ∧ (r.id ∈ hosts.flatMap (·.tags) ∨
        r.id ∈ services.flatMap (·.tags) ∨ r.id ∈ subnets.flatMap (·.tags)) := by
  have hmem : ∀ id, id ∈ (hosts.flatMap (·.tags) ++ services.flatMap (·.tags) ++
      subnets.flatMap (·.tags)).dedup ↔ (id ∈ hosts.flatMap (·.tags) ∨
        id ∈ services.flatMap (·.tags) ∨ id ∈ subnets.flatMap (·.tags)) := by
    intro id
    rw [mem_dedup, mem_append, mem_append, or_assoc]
  simp only [getEntityTags]
  split_ifs with hempty
  · rw [any_nil]
    refine iff_of_false Bool.false_ne_true ?_
    rintro ⟨r, -, -, -, htag⟩
    have hnot := (hmem r.id).mpr htag
    rw [List.isEmpty_iff.mp hempty] at hnot
    exact absurd hnot not_mem_nil
  · rw [RowTable.any_getAll]
    refine exists_congr fun r => and_congr_right fun _ => ?_
    rw [RowFilter.live, Bool.and_eq_true, decide_eq_true_iff, hmem]
    tauto

theorem any_tags_getTopologyData :
    (s.getTopologyData networkId none).tags.any p = true ↔
      ∃ r ∈ s.tags, r.isLive = true ∧ p r.toRow = true ∧ s.Assigned networkId r.id := by
  refine Iff.trans any_getEntityTags (exists_congr fun r => ?_)
  refine and_congr_right fun _ => and_congr_right fun _ => and_congr_right fun _ => ?_
  rw [EntityTagTable.mem_tags_getAllAsOfSnapshot, EntityTagTable.mem_tags_getAllAsOfSnapshot,
    EntityTagTable.mem_tags_getAllAsOfSnapshot]
  simp only [RowFilter.applySnapshot, RowFilter.live, RowFilter.hiddenIs, RowFilter.networkIds,
    mem_singleton, Bool.and_eq_true, decide_eq_true_eq, and_assoc, Assigned]

theorem any_interfaces_getTopologyData {p : Interface → Bool} :
    (s.getTopologyData networkId none).interfaces.any p = true ↔
      ∃ r ∈ s.rows .interface, r.base.networkId = networkId ∧ p r.toRow = true ∧
        r.isLive = true := by
  refine Iff.trans RowTable.any_getAll (exists_congr fun r => and_congr_right fun _ => ?_)
  simp only [RowFilter.applySnapshot, RowFilter.live, RowFilter.networkIds, mem_singleton,
    Bool.and_eq_true, decide_eq_true_eq]
  tauto

theorem l2Physical_getViewSupport :
    (s.getViewSupport networkId).l2Physical = true ↔
      ∃ r ∈ s.rows .interface, r.base.networkId = networkId ∧ r.base.neighbor.isSome = true := by
  refine Iff.trans RowTable.any_getAll (exists_congr fun r => and_congr_right fun _ => ?_)
  simp only [RowFilter.networkIds, mem_singleton, decide_eq_true_eq]

theorem application_getViewSupport (h : network ∈ s.networks) :
    (s.getViewSupport network.id).application = true ↔
      ∃ r ∈ s.tags, r.base.organizationId = network.organizationId ∧
        r.base.isApplication = true := by
  have hfind : s.networks.find network.id = some network := Table.find_eq_some.mpr ⟨h, rfl⟩
  rw [getViewSupport, hfind]
  refine Iff.trans RowTable.any_getAll (exists_congr fun r => and_congr_right fun _ => ?_)
  rw [decide_eq_true_iff]

/-- When a share admits the views that the topology has. -/
theorem viewSupportAgrees_iff (s : TopologyStore) (network : Network) (h : network ∈ s.networks) :
    s.ViewSupportAgrees network.id ↔ s.ShowsSupport network := by
  have hviews : s.ViewSupportAgrees network.id ↔ s.getViewSupport network.id =
      TopologyViewSupport.ofLoaded (s.getTopologyData network.id none).interfaces
        (s.getTopologyData network.id none).tags :=
    ⟨fun hagrees => hagrees.1, fun heq => ⟨heq, congrArg TopologyViewSupport.availableViews heq⟩⟩
  have happlication : (s.getViewSupport network.id).application = true ↔ _ :=
    application_getViewSupport h
  have hlinks : (TopologyViewSupport.ofLoaded (s.getTopologyData network.id none).interfaces
      (s.getTopologyData network.id none).tags).l2Physical = true ↔ _ :=
    any_interfaces_getTopologyData
  have htags : (TopologyViewSupport.ofLoaded (s.getTopologyData network.id none).interfaces
      (s.getTopologyData network.id none).tags).application = true ↔ _ :=
    any_tags_getTopologyData
  rw [hviews, TopologyViewSupport.ext_iff_true, l2Physical_getViewSupport, happlication, hlinks,
    htags]
  constructor
  · rintro ⟨hlink, happ⟩
    exact ⟨hlink.mp, happ⟩
  · rintro ⟨hlink, happ⟩
    refine ⟨⟨hlink, ?_⟩, happ⟩
    -- the live links are among the links
    rintro ⟨r, hr, hnetwork, hneighbor, -⟩
    exact ⟨r, hr, hnetwork, hneighbor⟩

end TopologyStore

section Depot

def depot : Network := ⟨2, 1⟩

def depotTags : TagTable :=
  ⟨[⟨⟨7, 0, 0, none, none, ⟨"Depot", none, 1, true⟩⟩, none⟩], by decide⟩

def depotRows : NetworkRows
  | .host => ⟨[⟨⟨20, 0, 0, none, none, ⟨"depot", 2, none, none, none, false, []⟩⟩, none⟩], by decide⟩
  | .interface => ⟨[
      ⟨⟨30, 0, 0, none, none, ⟨20, 2, 1, "eth0", none, none, some (.host 21), none, none⟩⟩, none⟩,
      ⟨⟨31, 0, 0, some 5, some 30, ⟨20, 2, 1, "eth0", none, none, some (.host 21), none, none⟩⟩,
        some 9⟩], by decide⟩
  | .entityTag => ⟨[⟨⟨40, 0, 0, none, none, ⟨20, .host, 7⟩⟩, none⟩], by decide⟩
  | _ => ⟨[], List.nodup_nil⟩

def depotStore : TopologyStore := ⟨depotRows, depotTags, ⟨[depot], by decide⟩⟩

theorem viewSupportAgrees_depot :
    depot ∈ depotStore.networks ∧ depotStore.ViewSupportAgrees depot.id := by
  have hmem : depot ∈ depotStore.networks := mem_singleton_self depot
  refine ⟨hmem, (TopologyStore.viewSupportAgrees_iff depotStore depot hmem).mpr ⟨fun _ => ?_, ?_⟩⟩
  · exact ⟨_, mem_cons_self, rfl, rfl, rfl⟩
  · refine iff_of_true ⟨_, mem_singleton_self _, rfl, rfl⟩ ?_
    refine ⟨_, mem_singleton_self _, rfl, rfl, .inl ?_⟩
    exact ⟨_, mem_singleton_self _, rfl, rfl, rfl, by decide⟩

def bareStore : TopologyStore :=
  ⟨fun _ => ⟨[], List.nodup_nil⟩, depotTags, ⟨[depot], by decide⟩⟩

theorem not_viewSupportAgrees : ¬ ∀ (s : TopologyStore) (network : Network),
    network ∈ s.networks → s.ViewSupportAgrees network.id := by
  intro h
  have hflags := (h bareStore depot (mem_singleton_self depot)).1
  have hshared : (bareStore.getViewSupport depot.id).application = true := by decide
  have hloaded : (bareStore.getTopologyData depot.id none).tags = [] := by decide
  rw [hflags, TopologyViewSupport.ofLoaded, hloaded] at hshared
  exact absurd hshared (by decide)

end Depot

end Scanopy
