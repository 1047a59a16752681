import Scanopy.Snapshots.TableEffects

/-! A snapshot is an isomorphic copy of the live rows of its network: each row has one closed copy,
and the copies refer to each other as the live rows do (`renameRefs`, `references`). The copies of
the interfaces are inserted by several statements if there are many: one that refers to a copy of a
later statement fails the snapshot. -/

namespace Scanopy

open List Option Bool RowTable

def EntityDiscriminants.snapshotTable : EntityDiscriminants → Option SnapshotTable
  | .host => some .host
  | .service => some .service
  | .subnet => some .subnet
  | .dependency => some .dependency
  | _ => none

namespace SnapshotTable

/-- The references of a row. An interface's list of VLANs and the tag of an entity tag are left
out: they stay with the live rows on purpose. The bindings of a service and the credential
assignments of a host are not columns of theirs, they are read from other tables. -/
def references : (k : SnapshotTable) → k.Base → List (SnapshotTable × Uuid)
  | subnet, b => b.virtualizationServiceId.toList.map (service, ·)
  | vlan, _ => []
  | host, b => b.virtualizationServiceId.toList.map (service, ·)
  | ipAddress, b => [(host, b.hostId), (subnet, b.subnetId)]
  | port, b => [(host, b.hostId)]
  | service, b => (host, b.hostId) :: b.virtualizationServiceId.toList.map (service, ·)
  | interface, b => (host, b.hostId) :: b.ipAddressId.toList.map (ipAddress, ·) ++
      b.nativeVlanId.toList.map (vlan, ·) ++ match b.neighbor with
      | some (.interface id) => [(interface, id)]
      | some (.host id) => [(host, id)]
      | none => []
  | binding, b => (service, b.serviceId) :: match b.bindingType with
      | .ipAddress id => [(ipAddress, id)]
      | .port portId ipId => (port, portId) :: ipId.toList.map (ipAddress, ·)
  | subnetVlan, b => [(subnet, b.subnetId), (vlan, b.vlanId)]
  | dependency, _ => []
  | dependencyMember, b => (dependency, b.dependencyId) :: (service, b.serviceId) ::
      b.bindingId.toList.map (binding, ·)
  | entityTag, b => b.entityType.snapshotTable.toList.map (·, b.entityId)

def renameRefs (ρ : SnapshotTable → Uuid → Uuid) : (k : SnapshotTable) → k.Base → k.Base
  | subnet, b =>
    { b with virtualizationServiceId := b.virtualizationServiceId.map (ρ service) }
  | vlan, b => b
  | host, b => { b with virtualizationServiceId := b.virtualizationServiceId.map (ρ service) }
  | ipAddress, b => { b with hostId := ρ host b.hostId, subnetId := ρ subnet b.subnetId }
  | port, b => { b with hostId := ρ host b.hostId }
  | service, b => { b with
      hostId := ρ host b.hostId
      virtualizationServiceId := b.virtualizationServiceId.map (ρ service) }
  | interface, b => { b with
      hostId := ρ host b.hostId
      ipAddressId := b.ipAddressId.map (ρ ipAddress)
      nativeVlanId := b.nativeVlanId.map (ρ vlan)
      neighbor := b.neighbor.map fun
        | .interface id => .interface (ρ interface id)
        | .host id => .host (ρ host id) }
  | binding, b => { b with
      serviceId := ρ service b.serviceId
      bindingType := match b.bindingType with
        | .ipAddress id => .ipAddress (ρ ipAddress id)
        | .port portId ipId => .port (ρ port portId) (ipId.map (ρ ipAddress)) }
  | subnetVlan, b => { b with subnetId := ρ subnet b.subnetId, vlanId := ρ vlan b.vlanId }
  | dependency, b => b
  | dependencyMember, b => { b with
      dependencyId := ρ dependency b.dependencyId
      serviceId := ρ service b.serviceId
      bindingId := b.bindingId.map (ρ binding) }
  | entityTag, b => { b with entityId := match b.entityType.snapshotTable with
      | some j => ρ j b.entityId
      | none => b.entityId }

theorem toList_map_rename (ρ : SnapshotTable → Uuid → Uuid) (j : SnapshotTable)
    (o : Option Uuid) :
    (o.map (ρ j)).toList.map (j, ·) =
      (o.toList.map (j, ·)).map fun p : SnapshotTable × Uuid => (p.1, ρ p.1 p.2) := by
  cases o <;> rfl

theorem references_renameRefs (ρ : SnapshotTable → Uuid → Uuid) (k : SnapshotTable) (b : k.Base) :
    references k (renameRefs ρ k b) = (references k b).map fun p => (p.1, ρ p.1 p.2) := by
  cases k with
  | subnet | host => exact toList_map_rename ρ service b.virtualizationServiceId
  | vlan | dependency | ipAddress | port | subnetVlan => rfl
  | service => exact congrArg (_ :: ·) (toList_map_rename ρ service b.virtualizationServiceId)
  | interface =>
    simp only [references, renameRefs, map_cons, map_append, toList_map_rename]
    match b.neighbor with
    | some (.interface _) | some (.host _) | none => rfl
  | binding =>
    simp only [references, renameRefs, map_cons]
    match b.bindingType with
    | .ipAddress _ => rfl
    | .port _ ipId =>
      simp only [map_cons, toList_map_rename]
  | dependencyMember =>
    exact congrArg (_ :: _ :: ·) (toList_map_rename ρ binding b.bindingId)
  | entityTag =>
    simp only [references, renameRefs]
    match b.entityType.snapshotTable with
    | some _ | none => rfl

end SnapshotTable

def HasLive {B : Type} (t : RowTable B) (networkOf : B → Uuid) (n id : Uuid) : Prop :=
  ∃ r ∈ t, r.isLive = true ∧ networkOf r.base = n ∧ r.id = id

theorem HasLive.network_eq {B : Type} {t : RowTable B} {networkOf : B → Uuid} {n n' id : Uuid}
    (h : HasLive t networkOf n id) (h' : HasLive t networkOf n' id) : n = n' := by
  obtain ⟨r, hr, -, rfl, rfl⟩ := h
  obtain ⟨r', hr', -, rfl, hid⟩ := h'
  cases t.eq_of_key hr' hr hid
  rfl

namespace NetworkRows

/-- The row belongs to the network: by its own column, or by what it joins or tags. -/
def InNetwork (rows : NetworkRows) (n : Uuid) : (k : SnapshotTable) → k.Base → Prop
  | .subnet, b => b.networkId = n
  | .vlan, b => b.networkId = n
  | .host, b => b.networkId = n
  | .ipAddress, b => b.networkId = n
  | .port, b => b.networkId = n
  | .service, b => b.networkId = n
  | .interface, b => b.networkId = n
  | .binding, b => b.networkId = n
  | .subnetVlan, b => HasLive (rows .subnet) (·.networkId) n b.subnetId
  | .dependency, b => b.networkId = n
  | .dependencyMember, b => HasLive (rows .dependency) (·.networkId) n b.dependencyId
  | .entityTag, b => match b.entityType with
    | .host => HasLive (rows .host) (·.networkId) n b.entityId
    | .service => HasLive (rows .service) (·.networkId) n b.entityId
    | .subnet => HasLive (rows .subnet) (·.networkId) n b.entityId
    | .dependency => HasLive (rows .dependency) (·.networkId) n b.entityId
    | _ => False

structure LiveKeysConsistent (rows : NetworkRows) : Prop where
  neighbor : ∀ i ∈ rows .interface, i.isLive = true → ∀ id, ownReference i.base = some id →
    ∃ j ∈ rows .interface, j.id = id
  port : ∀ p ∈ rows .port, p.isLive = true →
    HasLive (rows .host) (·.networkId) p.base.networkId p.base.hostId
  interface : ∀ i ∈ rows .interface, i.isLive = true →
    HasLive (rows .host) (·.networkId) i.base.networkId i.base.hostId
  binding : ∀ b ∈ rows .binding, b.isLive = true →
    HasLive (rows .service) (·.networkId) b.base.networkId b.base.serviceId
  tag : ∀ t ∈ rows .entityTag, t.isLive = true → ∀ n,
    (HasLive (rows .host) (·.networkId) n t.base.entityId → t.base.entityType = .host) ∧
    (HasLive (rows .service) (·.networkId) n t.base.entityId → t.base.entityType = .service) ∧
    (HasLive (rows .subnet) (·.networkId) n t.base.entityId → t.base.entityType = .subnet) ∧
    (HasLive (rows .dependency) (·.networkId) n t.base.entityId →
      t.base.entityType = .dependency)

end NetworkRows

open NetworkRows

namespace SnapshotRun
variable (run : SnapshotRun) (before : NetworkRows)

structure FreshIds : Prop where
  new : ∀ k, ∀ r ∈ before k, ∀ r' ∈ before k, r'.isLive = true → r.id ≠ run.newId k r'.id
  distinct : ∀ k, ∀ r ∈ before k, ∀ r' ∈ before k, r.isLive = true → r'.isLive = true →
    run.newId k r.id = run.newId k r'.id → r = r'
  snapshot : ∀ k, ∀ r ∈ before k, r.snapshotId ≠ some run.snapshotId

def liveInterfaces : List (StoredRow InterfaceBase) :=
  (before .interface).getAllInTx fun i => i.isLive && decide (i.base.networkId = run.networkId)

/-- Of the statements that insert the interfaces, none has a neighbour in a later one. -/
def NeighborsInserted : Prop :=
  ((run.liveInterfaces before).chunks (RowTable.chunkSize InterfaceBase)).Pairwise
    fun chunk later => ∀ i ∈ chunk, ∀ j ∈ later, i.base.neighbor ≠ some (.interface j.id)

def Covers (k : SnapshotTable) (r : StoredRow k.Base) : Prop :=
  r.isLive = true ∧ InNetwork before run.networkId k r.base

def CoversId (k : SnapshotTable) (id : Uuid) : Prop :=
  ∃ r ∈ before k, run.Covers before k r ∧ r.id = id

open Classical in
/-- The id of the closed copy for the rows that are covered, the same id for the others. -/
noncomputable def rename (k : SnapshotTable) (id : Uuid) : Uuid :=
  if run.CoversId before k id then run.newId k id else id

/-- A closed copy of `r` whose references are those of `base`. -/
def closedWith (k : SnapshotTable) (r : StoredRow k.Base) (base : k.Base) : StoredRow k.Base where
  id := run.newId k r.id
  createdAt := r.createdAt
  validFrom := r.validFrom
  validTo := some run.takenAt
  lineageId := some r.id
  base := base
  snapshotId := some run.snapshotId

/-- The closed copy of a row: its data, its references renamed. -/
noncomputable def closedCopy (k : SnapshotTable) (r : StoredRow k.Base) : StoredRow k.Base :=
  run.closedWith k r (k.renameRefs (run.rename before) r.base)

/-- `m` maps the ids of the covered rows to those of their copies. -/
def IsMapOf (k : SnapshotTable) (m : HashMap Uuid Uuid) : Prop :=
  (∀ id, m.contains id = true ↔ run.CoversId before k id) ∧
    ∀ id, remapId m id = run.rename before k id

/-- The table holds the rows from before, those that are covered with a new start, and the copies
of those with `remap` applied. -/
def IsClone (k : SnapshotTable) (remap : k.Base → k.Base) (t : RowTable k.Base) : Prop :=
  ∀ c, c ∈ t ↔
    (∃ r ∈ before k, run.Covers before k r ∧ c = RowTable.advance run.takenAt r) ∨
    (c ∈ before k ∧ ¬run.Covers before k c) ∨
    ∃ r ∈ before k, run.Covers before k r ∧ c = run.closedWith k r (remap r.base)

variable {run before} {k : SnapshotTable} {s : CloneState} {filter : k.Base → Bool}

theorem IsClone.congr {remap remap' : k.Base → k.Base} {t : RowTable k.Base}
    (h : run.IsClone before k remap t) (heq : remap = remap') : run.IsClone before k remap' t := by
  rw [← heq]
  exact h

theorem isMapOf_cloneMap
    (hfilter : ∀ r ∈ before k, RowTable.isCloned filter r = true ↔ run.Covers before k r) :
    run.IsMapOf before k
      (cloneMap (run.newId k) ((before k).getAllInTx (RowTable.isCloned filter))) := by
  have hmem : ∀ id, id ∈ ((before k).getAllInTx (RowTable.isCloned filter)).map (·.id) ↔
      run.CoversId before k id := by
    intro id
    rw [List.mem_map]
    constructor
    · rintro ⟨r, hr, rfl⟩
      obtain ⟨hr, hcloned⟩ := mem_getAllInTx.mp hr
      exact ⟨r, hr, (hfilter r hr).mp hcloned, rfl⟩
    · rintro ⟨r, hr, hcovers, rfl⟩
      exact ⟨r, mem_getAllInTx.mpr ⟨hr, (hfilter r hr).mpr hcovers⟩, rfl⟩
  refine ⟨fun id => ?_, fun id => ?_⟩
  · rw [← hmem, HashMap.contains, get_cloneMap]
    split_ifs with h
    · exact iff_of_true rfl h
    · exact iff_of_false Bool.false_ne_true h
  · rw [remapId, rename, get_cloneMap]
    by_cases h : run.CoversId before k id
    · rw [if_pos ((hmem id).mpr h), if_pos h]
      rfl
    · rw [if_neg (mt (hmem id).mp h), if_neg h]
      rfl

theorem isCloned_iff_covers
    (hfilter : ∀ r ∈ before k, r.isLive = true →
      (filter r.base = true ↔ InNetwork before run.networkId k r.base)) :
    ∀ r ∈ before k, RowTable.isCloned filter r = true ↔ run.Covers before k r := by
  intro r hr
  rw [RowTable.isCloned, and_eq_true]
  exact and_congr_right fun hlive => hfilter r hr hlive

/-- What the clone of one table does with a filter that selects the rows of the network. -/
theorem clone_spec [Snapshotable k.Base] {setMap : FkMaps → HashMap Uuid Uuid → FkMaps}
    {s' : CloneState} (hrows : s.rows k = before k)
    (hfilter : ∀ r ∈ before k, r.isLive = true →
      (filter r.base = true ↔ InNetwork before run.networkId k r.base))
    (h : run.clone k filter setMap s = some s') :
    ∃ t m, s' = ⟨Function.update s.rows k t, setMap s.maps m⟩ ∧ run.IsMapOf before k m ∧
      run.IsClone before k (RowTable.cloneBase s.maps m) t := by
  have hcloned := isCloned_iff_covers hfilter
  obtain ⟨⟨t, m⟩, hclone, rfl⟩ := map_eq_some_iff.mp h
  rw [hrows] at hclone
  refine ⟨t, m, rfl, ?_, fun c => ?_⟩
  · rw [(closeAndCloneFor_eq_some hclone).1]
    exact isMapOf_cloneMap hcloned
  · rw [mem_closeAndCloneFor hclone]
    constructor
    · rintro (⟨r, hr, h, rfl⟩ | ⟨hc, h⟩ | ⟨r, hr, h, rfl⟩)
      · exact .inl ⟨r, hr, (hcloned r hr).mp h, rfl⟩
      · exact .inr (.inl ⟨hc, mt (hcloned c hc).mpr h⟩)
      · exact .inr (.inr ⟨r, hr, (hcloned r hr).mp h, rfl⟩)
    · rintro (⟨r, hr, hcovers, rfl⟩ | ⟨hc, hcovers⟩ | ⟨r, hr, hcovers, rfl⟩)
      · exact .inl ⟨r, hr, (hcloned r hr).mpr hcovers, rfl⟩
      · exact .inr (.inl ⟨hc, mt (hcloned c hc).mp hcovers⟩)
      · exact .inr (.inr ⟨r, hr, (hcloned r hr).mpr hcovers, rfl⟩)

section Success
variable [Snapshotable k.Base] (hfresh : run.FreshIds before)
  (setMap : FkMaps → HashMap Uuid Uuid → FkMaps) (hrows : s.rows k = before k)
include hfresh hrows

theorem exists_clone_iff {m : HashMap Uuid Uuid}
    (hm : m = cloneMap (run.newId k) ((before k).getAllInTx (RowTable.isCloned filter)))
    (hrefs : ∀ r ∈ before k, RowTable.isCloned filter r = true → ∀ id,
      ownReference (RowTable.cloneBase s.maps m r.base) = some id → ∃ r' ∈ before k,
        r'.id = id ∨ (RowTable.isCloned filter r' = true ∧ run.newId k r'.id = id)) :
    (∃ s', run.clone k filter setMap s = some s') ↔
      (((before k).getAllInTx (RowTable.isCloned filter)).chunks
        (RowTable.chunkSize k.Base)).Pairwise fun chunk later => ∀ r ∈ chunk, ∀ r' ∈ later,
          ownReference (RowTable.cloneBase s.maps m r.base) ≠ some (run.newId k r'.id) := by
  subst hm
  rw [← exists_closeAndCloneFor_iff (before k) filter run.takenAt run.snapshotId s.maps
    (run.newId k)
    (fun r hr r' hr' h => hfresh.new k r hr r' hr' (and_eq_true_iff.mp h).1)
    (fun r hr r' hr' h h' => hfresh.distinct k r hr r' hr' (and_eq_true_iff.mp h).1
      (and_eq_true_iff.mp h').1) hrefs, clone, hrows]
  constructor
  · rintro ⟨s', h⟩
    obtain ⟨⟨t, m⟩, h, -⟩ := map_eq_some_iff.mp h
    exact ⟨t, m, h⟩
  · rintro ⟨t, m, h⟩
    exact ⟨_, map_eq_some_iff.mpr ⟨(t, m), h, rfl⟩⟩

theorem exists_clone (hnone : ∀ b : k.Base, ownReference b = none) :
    ∃ s', run.clone k filter setMap s = some s' := by
  refine (exists_clone_iff hfresh setMap hrows rfl fun r _ _ id href => ?_).mpr
    (pairwise_of_forall fun _ _ r _ r' _ => ?_)
  · exact absurd ((hnone _).symm.trans href) (some_ne_none id).symm
  · rw [hnone]
    exact (some_ne_none _).symm

end Success

theorem IsClone.remapVirtualization [VirtualizationServiceRef k.Base] {remap : k.Base → k.Base}
    {t : RowTable k.Base} (h : run.IsClone before k remap t) (hfresh : run.FreshIds before)
    (services : HashMap Uuid Uuid) :
    run.IsClone before k (fun b => RowTable.remappedBase services (remap b))
      (t.remapVirtualizationServiceIds run.snapshotId services) := by
  intro c
  show c ∈ (t.remapVirtualizationServiceIds run.snapshotId services).rows ↔ _
  rw [rows_remapVirtualizationServiceIds, List.mem_map]
  constructor
  · rintro ⟨r, hr, rfl⟩
    obtain ⟨r₀, hr₀, hcovers, rfl⟩ | ⟨hr₀, hcovers⟩ | ⟨r₀, hr₀, hcovers, rfl⟩ := (h r).mp hr
    · rw [if_neg (show (RowTable.advance run.takenAt r₀).snapshotId ≠ _ from
        hfresh.snapshot k r₀ hr₀)]
      exact .inl ⟨r₀, hr₀, hcovers, rfl⟩
    · rw [if_neg (hfresh.snapshot k r hr₀)]
      exact .inr (.inl ⟨hr₀, hcovers⟩)
    · exact .inr (.inr ⟨r₀, hr₀, hcovers, if_pos rfl⟩)
  · rintro (⟨r, hr, hcovers, rfl⟩ | ⟨hc, hcovers⟩ | ⟨r, hr, hcovers, rfl⟩)
    · refine ⟨RowTable.advance run.takenAt r, (h _).mpr (.inl ⟨r, hr, hcovers, rfl⟩), ?_⟩
      exact if_neg (hfresh.snapshot k r hr)
    · exact ⟨c, (h c).mpr (.inr (.inl ⟨hc, hcovers⟩)), if_neg (hfresh.snapshot k c hc)⟩
    · refine ⟨run.closedWith k r (remap r.base), (h _).mpr (.inr (.inr ⟨r, hr, hcovers, rfl⟩)), ?_⟩
      exact if_pos rfl

section Remap
variable {maps : FkMaps} {m k' : HashMap Uuid Uuid}

theorem IsMapOf.remapId_eq (h : run.IsMapOf before k m) : remapId m = run.rename before k :=
  funext h.2

theorem remap_ipAddress (hhosts : run.IsMapOf before .host maps.hosts)
    (hsubnets : run.IsMapOf before .subnet maps.subnets) :
    (fun b : IPAddressBase => remapOwnCloneRefs m (remapFksForClone maps b)) =
      SnapshotTable.renameRefs (run.rename before) .ipAddress := by
  funext b
  simp only [remapFksForClone, remapOwnCloneRefs, hhosts.remapId_eq, hsubnets.remapId_eq]
  rfl

theorem remap_port (hhosts : run.IsMapOf before .host maps.hosts) :
    (fun b : PortBase => remapOwnCloneRefs m (remapFksForClone maps b)) =
      SnapshotTable.renameRefs (run.rename before) .port := by
  funext b
  simp only [remapFksForClone, remapOwnCloneRefs, hhosts.remapId_eq]
  rfl

theorem remap_interface (hhosts : run.IsMapOf before .host maps.hosts)
    (hips : run.IsMapOf before .ipAddress maps.ipAddresses)
    (hvlans : run.IsMapOf before .vlan maps.vlans) (hm : run.IsMapOf before .interface m) :
    (fun b : InterfaceBase => remapOwnCloneRefs m (remapFksForClone maps b)) =
      SnapshotTable.renameRefs (run.rename before) .interface := by
  funext b
  simp only [remapFksForClone, remapOwnCloneRefs, hhosts.remapId_eq, hips.remapId_eq,
    hvlans.remapId_eq, hm.remapId_eq, SnapshotTable.renameRefs]
  match b.neighbor with
  | some (.interface _) | some (.host _) | none => rfl

theorem remap_binding (hservices : run.IsMapOf before .service maps.services)
    (hips : run.IsMapOf before .ipAddress maps.ipAddresses)
    (hports : run.IsMapOf before .port maps.ports) :
    (fun b : BindingBase => remapOwnCloneRefs m (remapFksForClone maps b)) =
      SnapshotTable.renameRefs (run.rename before) .binding := by
  funext b
  simp only [remapFksForClone, remapOwnCloneRefs, hservices.remapId_eq, hips.remapId_eq,
    hports.remapId_eq]
  rfl

theorem remap_subnetVlan (hsubnets : run.IsMapOf before .subnet maps.subnets)
    (hvlans : run.IsMapOf before .vlan maps.vlans) :
    (fun b : SubnetVlanRecordBase => remapOwnCloneRefs m (remapFksForClone maps b)) =
      SnapshotTable.renameRefs (run.rename before) .subnetVlan := by
  funext b
  simp only [remapFksForClone, remapOwnCloneRefs, hsubnets.remapId_eq, hvlans.remapId_eq]
  rfl

theorem remap_dependencyMember
    (hdependencies : run.IsMapOf before .dependency maps.dependencies)
    (hservices : run.IsMapOf before .service maps.services)
    (hbindings : run.IsMapOf before .binding maps.bindings) :
    (fun b : DependencyMemberRecordBase => remapOwnCloneRefs m (remapFksForClone maps b)) =
      SnapshotTable.renameRefs (run.rename before) .dependencyMember := by
  funext b
  simp only [remapFksForClone, remapOwnCloneRefs, hdependencies.remapId_eq, hservices.remapId_eq,
    hbindings.remapId_eq]
  rfl

theorem remap_entityTag (hhosts : run.IsMapOf before .host maps.hosts)
    (hservices : run.IsMapOf before .service maps.services)
    (hsubnets : run.IsMapOf before .subnet maps.subnets)
    (hdependencies : run.IsMapOf before .dependency maps.dependencies) :
    (fun b : EntityTagBase => remapOwnCloneRefs m (remapFksForClone maps b)) =
      SnapshotTable.renameRefs (run.rename before) .entityTag := by
  funext b
  obtain ⟨entityId, entityType, tagId⟩ := b
  have hentity : (maps.lookupByEntityType entityType entityId).getD entityId =
      match entityType.snapshotTable with
      | some j => run.rename before j entityId
      | none => entityId := by
    cases entityType with
    | host => exact hhosts.2 entityId
    | service => exact hservices.2 entityId
    | subnet => exact hsubnets.2 entityId
    | dependency => exact hdependencies.2 entityId
    | _ => rfl
  simp only [remapFksForClone, remapOwnCloneRefs, SnapshotTable.renameRefs, hentity]

theorem remappedBase_host (hm : run.IsMapOf before .service m) :
    (fun b : HostBase =>
      RowTable.remappedBase m (remapOwnCloneRefs k' (remapFksForClone maps b))) =
      SnapshotTable.renameRefs (run.rename before) .host := by
  funext b
  obtain ⟨name, networkId, hostname, description, virtualization, hidden, credentials⟩ := b
  refine (remappedBase_eq m ?_).trans ?_
  · rintro id hid
    cases hid
    rfl
  · rw [hm.remapId_eq]
    cases virtualization <;> rfl

theorem remappedBase_subnet (hm : run.IsMapOf before .service m) :
    (fun b : SubnetBase =>
      RowTable.remappedBase m (remapOwnCloneRefs k' (remapFksForClone maps b))) =
      SnapshotTable.renameRefs (run.rename before) .subnet := by
  funext b
  obtain ⟨cidr, networkId, name, description, subnetType, virtualization, source, lastSeenAt⟩ := b
  refine (remappedBase_eq m ?_).trans ?_
  · rintro id hid
    cases hid
    rfl
  · rw [hm.remapId_eq]
    cases virtualization <;> rfl

theorem remappedBase_service (hhosts : run.IsMapOf before .host maps.hosts)
    (hm : run.IsMapOf before .service m) :
    (fun b : ServiceBase =>
      RowTable.remappedBase m (remapOwnCloneRefs k' (remapFksForClone maps b))) =
      SnapshotTable.renameRefs (run.rename before) .service := by
  funext b
  obtain ⟨hostId, networkId, definition, name, bindings, virtualization, position⟩ := b
  refine (remappedBase_eq m ?_).trans ?_
  · rintro id hid
    cases hid
    rfl
  · simp only [remapFksForClone, remapOwnCloneRefs, hhosts.remapId_eq, hm.remapId_eq]
    cases virtualization <;> rfl

end Remap

section Filters
variable {m : HashMap Uuid Uuid} {maps : FkMaps} {id : Uuid}

theorem coversId_of_networkId {networkOf : k.Base → Uuid}
    (h : ∀ b, InNetwork before run.networkId k b ↔ networkOf b = run.networkId) :
    run.CoversId before k id ↔ HasLive (before k) networkOf run.networkId id := by
  constructor
  · rintro ⟨r, hr, ⟨hlive, hnetwork⟩, hid⟩
    exact ⟨r, hr, hlive, (h r.base).mp hnetwork, hid⟩
  · rintro ⟨r, hr, hlive, hnetwork, hid⟩
    exact ⟨r, hr, ⟨hlive, (h r.base).mpr hnetwork⟩, hid⟩

theorem IsMapOf.contains_iff {networkOf : k.Base → Uuid} (hm : run.IsMapOf before k m)
    (h : ∀ b, InNetwork before run.networkId k b ↔ networkOf b = run.networkId) :
    m.contains id = true ↔ HasLive (before k) networkOf run.networkId id :=
  (hm.1 id).trans (coversId_of_networkId h)

theorem contains_iff_of_consistent {networkOf : k.Base → Uuid} {n : Uuid}
    (hm : run.IsMapOf before k m)
    (h : ∀ b, InNetwork before run.networkId k b ↔ networkOf b = run.networkId)
    (hparent : HasLive (before k) networkOf n id) :
    m.contains id = true ↔ n = run.networkId := by
  rw [hm.contains_iff h]
  constructor
  · exact fun hcontains => hparent.network_eq hcontains
  · rintro rfl
    exact hparent

theorem isTaggedId_iff (hconsistent : LiveKeysConsistent before)
    (hhosts : run.IsMapOf before .host maps.hosts)
    (hservices : run.IsMapOf before .service maps.services)
    (hsubnets : run.IsMapOf before .subnet maps.subnets)
    (hdependencies : run.IsMapOf before .dependency maps.dependencies)
    {t : StoredRow EntityTagBase} (ht : t ∈ before .entityTag) (hlive : t.isLive = true) :
    isTaggedId maps t.base.entityId = true ↔ InNetwork before run.networkId .entityTag t.base := by
  have htag := hconsistent.tag t ht hlive run.networkId
  obtain ⟨htag_host, htag_service, htag_subnet, htag_dependency⟩ := htag
  rw [isTaggedId, or_eq_true, or_eq_true, or_eq_true,
    hhosts.contains_iff (fun _ => Iff.rfl), hservices.contains_iff (fun _ => Iff.rfl),
    hsubnets.contains_iff (fun _ => Iff.rfl), hdependencies.contains_iff (fun _ => Iff.rfl)]
  constructor
  · rintro (((h | h) | h) | h)
    · simpa only [InNetwork, htag_host h] using h
    · simpa only [InNetwork, htag_service h] using h
    · simpa only [InNetwork, htag_subnet h] using h
    · simpa only [InNetwork, htag_dependency h] using h
  · intro h
    simp only [InNetwork] at h
    split at h
    · exact .inl (.inl (.inl h))
    · exact .inl (.inl (.inr h))
    · exact .inl (.inr h)
    · exact .inr h
    · exact h.elim

end Filters

section Interfaces
variable {maps : FkMaps} {m : HashMap Uuid Uuid}

theorem ownReference_eq_some {b : InterfaceBase} {id : Uuid} :
    ownReference b = some id ↔ b.neighbor = some (.interface id) := by
  obtain ⟨_, _, _, _, _, _, neighbor, _, _⟩ := b
  match neighbor with
  | some (.interface _) =>
    exact ⟨fun h => some.inj h ▸ rfl, fun h => Neighbor.interface.inj (some.inj h) ▸ rfl⟩
  | some (.host _) => exact iff_of_false (some_ne_none id).symm fun h => nomatch h
  | none => exact iff_of_false (some_ne_none id).symm fun h => nomatch h

theorem ownReference_cloneBase (maps : FkMaps) (m : HashMap Uuid Uuid) (b : InterfaceBase) :
    ownReference (RowTable.cloneBase maps m b) = (ownReference b).map (remapId m) := by
  obtain ⟨_, _, _, _, _, _, neighbor, _, _⟩ := b
  match neighbor with
  | some (.interface _) | some (.host _) | none => rfl

theorem exists_clone_interface_iff (hconsistent : LiveKeysConsistent before)
    (hfresh : run.FreshIds before) (setMap : FkMaps → HashMap Uuid Uuid → FkMaps)
    {filter : InterfaceBase → Bool} (hrows : s.rows .interface = before .interface)
    (hfilter : ∀ i ∈ before .interface, i.isLive = true →
      (filter i.base = true ↔ i.base.networkId = run.networkId)) :
    (∃ s', run.clone .interface filter setMap s = some s') ↔ run.NeighborsInserted before := by
  have hcloned := isCloned_iff_covers (k := .interface) hfilter
  have hlive : (before .interface).getAllInTx (RowTable.isCloned filter) =
      run.liveInterfaces before := by
    refine congrArg (List.insertionSort _) (filter_congr fun i hi => ?_)
    rw [Bool.eq_iff_iff, hcloned i hi, and_eq_true, decide_eq_true_iff]
    rfl
  set m := cloneMap (run.newId .interface) ((before .interface).getAllInTx
    (RowTable.isCloned filter)) with hmap
  have hm : run.IsMapOf before .interface m := isMapOf_cloneMap hcloned
  have hremap : ∀ j ∈ before .interface, run.Covers before .interface j →
      remapId m j.id = run.newId .interface j.id :=
    fun j hj hcovers => (hm.2 j.id).trans (if_pos ⟨j, hj, hcovers, rfl⟩)
  have hsame : ∀ i ∈ before .interface, RowTable.isCloned filter i = true → ∀ id,
      ownReference i.base = some id → ∃ j ∈ before .interface, j.id = id ∧
        (run.Covers before .interface j ∨ remapId m id = id) := by
    intro i hi hicloned id href
    obtain ⟨j, hj, rfl⟩ := hconsistent.neighbor i hi (and_eq_true_iff.mp hicloned).1 id href
    refine ⟨j, hj, rfl, or_iff_not_imp_left.mpr fun hcovers => (hm.2 j.id).trans (if_neg ?_)⟩
    rintro ⟨j', hj', hcovers', hid⟩
    rw [(before .interface).eq_of_key hj' hj hid] at hcovers'
    exact hcovers hcovers'
  rw [exists_clone_iff hfresh setMap hrows hmap fun i hi hicloned id href => ?_, hlive]
  · refine List.Pairwise.iff_of_mem fun hchunk hlater => forall₂_congr fun i hi =>
      forall₂_congr fun j hj => not_congr ?_
    have hmem : ∀ {chunk : List (StoredRow InterfaceBase)} {i : StoredRow InterfaceBase},
        chunk ∈ (run.liveInterfaces before).chunks (chunkSize InterfaceBase) →
        i ∈ chunk → i ∈ before .interface ∧ RowTable.isCloned filter i = true := by
      intro chunk i hchunk hi
      have hi := mem_flatten_of_mem hchunk hi
      rw [List.flatten_chunks chunkSize_pos, ← hlive] at hi
      exact mem_getAllInTx.mp hi
    obtain ⟨hi, hicloned⟩ := hmem hchunk hi
    obtain ⟨hj, hjcloned⟩ := hmem hlater hj
    have hjcovers := (hcloned j hj).mp hjcloned
    rw [ownReference_cloneBase, ← ownReference_eq_some, map_eq_some_iff]
    constructor
    · rintro ⟨id, href, hid⟩
      obtain ⟨j', hj', rfl, hcovers | hkept⟩ := hsame i hi hicloned id href
      · rw [hremap j' hj' hcovers] at hid
        rw [href, hfresh.distinct _ j' hj' j hj hcovers.1 hjcovers.1 hid]
      · exact absurd (hkept.symm.trans hid) (hfresh.new _ j' hj' j hj hjcovers.1)
    · exact fun href => ⟨j.id, href, hremap j hj hjcovers⟩
  · rw [ownReference_cloneBase, map_eq_some_iff] at href
    obtain ⟨id, href, rfl⟩ := href
    obtain ⟨j, hj, rfl, hcovers | hkept⟩ := hsame i hi hicloned id href
    · exact ⟨j, hj, .inr ⟨(hcloned j hj).mpr hcovers, (hremap j hj hcovers).symm⟩⟩
    · exact ⟨j, hj, .inl hkept.symm⟩

end Interfaces

variable (run before) in
structure Outcome (result : Option NetworkRows) : Prop where
  copied : run.NeighborsInserted before → ∃ after, result = some after ∧
    ∀ k, run.IsClone before k (k.renameRefs (run.rename before)) (after k)
  refused : ¬run.NeighborsInserted before → result = none

section Outcome
variable [Snapshotable k.Base] {setMap : FkMaps → HashMap Uuid Uuid → FkMaps}
  {rest : CloneState → Option NetworkRows}

theorem outcome_of_clone (hfresh : run.FreshIds before)
    (hnone : ∀ b : k.Base, ownReference b = none)
    (hrows : s.rows k = before k)
    (hfilter : ∀ r ∈ before k, r.isLive = true →
      (filter r.base = true ↔ InNetwork before run.networkId k r.base))
    (hrest : ∀ t m, run.IsMapOf before k m → run.IsClone before k (RowTable.cloneBase s.maps m) t →
      run.Outcome before (rest ⟨Function.update s.rows k t, setMap s.maps m⟩)) :
    run.Outcome before (run.clone k filter setMap s >>= rest) := by
  obtain ⟨s', hclone⟩ : ∃ s', run.clone k filter setMap s = some s' :=
    exists_clone hfresh setMap hrows hnone
  obtain ⟨t, m, rfl, hm, ht⟩ := clone_spec hrows hfilter hclone
  rw [hclone]
  exact hrest t m hm ht

theorem outcome_of_clone_interface {filter : InterfaceBase → Bool}
    (hconsistent : LiveKeysConsistent before) (hfresh : run.FreshIds before)
    (hrows : s.rows .interface = before .interface)
    (hfilter : ∀ i ∈ before .interface, i.isLive = true →
      (filter i.base = true ↔ i.base.networkId = run.networkId))
    (hrest : run.NeighborsInserted before → ∀ t m, run.IsMapOf before .interface m →
      run.IsClone before .interface (RowTable.cloneBase (B := InterfaceBase) s.maps m) t →
      run.Outcome before (rest ⟨Function.update s.rows .interface t, setMap s.maps m⟩)) :
    run.Outcome before (run.clone .interface filter setMap s >>= rest) := by
  have hiff := exists_clone_interface_iff hconsistent hfresh setMap hrows hfilter
  cases hclone : run.clone .interface filter setMap s with
  | none =>
    have hnot : ¬run.NeighborsInserted before := fun hinserted => by
      obtain ⟨s', hs'⟩ := hiff.mpr hinserted
      cases hclone.symm.trans hs'
    exact ⟨fun hinserted => absurd hinserted hnot, fun _ => rfl⟩
  | some s' =>
    obtain ⟨t, m, rfl, hm, ht⟩ := clone_spec (k := .interface) hrows hfilter hclone
    exact hrest (hiff.mp ⟨_, hclone⟩) t m hm ht

end Outcome

theorem outcome_runCloseAndClone (hconsistent : LiveKeysConsistent before)
    (hfresh : run.FreshIds before) : run.Outcome before (run.runCloseAndClone before) := by
  have hnetwork : ∀ n : Uuid, (decide (n = run.networkId) = true ↔ n = run.networkId) :=
    fun n => decide_eq_true_iff
  rw [runCloseAndClone]
  refine outcome_of_clone hfresh (fun _ => rfl) rfl (fun r _ _ => hnetwork r.base.networkId) ?_
  intro subnets ms hms hsubnets
  refine outcome_of_clone hfresh (fun _ => rfl) rfl (fun r _ _ => hnetwork r.base.networkId) ?_
  intro vlans mv hmv hvlans
  refine outcome_of_clone hfresh (fun _ => rfl) rfl (fun r _ _ => hnetwork r.base.networkId) ?_
  intro hosts mh hmh hhosts
  refine outcome_of_clone hfresh (fun _ => rfl) rfl (fun r _ _ => hnetwork r.base.networkId) ?_
  intro ips mi hmi hips
  refine outcome_of_clone hfresh (fun _ => rfl) rfl (fun r hr hlive =>
    contains_iff_of_consistent hmh (fun _ => Iff.rfl) (hconsistent.port r hr hlive)) ?_
  intro ports mp hmp hports
  refine outcome_of_clone hfresh (fun _ => rfl) rfl (fun r _ _ => hnetwork r.base.networkId) ?_
  intro services msv hmsv hservices
  refine outcome_of_clone_interface hconsistent hfresh rfl (fun r hr hlive =>
    contains_iff_of_consistent hmh (fun _ => Iff.rfl) (hconsistent.interface r hr hlive)) ?_
  intro hinserted interfaces mif hmif hinterfaces
  refine outcome_of_clone hfresh (fun _ => rfl) rfl (fun r hr hlive =>
    contains_iff_of_consistent hmsv (fun _ => Iff.rfl) (hconsistent.binding r hr hlive)) ?_
  intro bindings mb hmb hbindings
  refine outcome_of_clone hfresh (fun _ => rfl) rfl
    (fun r _ _ => hms.contains_iff fun _ => Iff.rfl) ?_
  intro subnetVlans _ _ hsubnetVlans
  refine outcome_of_clone hfresh (fun _ => rfl) rfl (fun r _ _ => hnetwork r.base.networkId) ?_
  intro dependencies md hmd hdependencies
  refine outcome_of_clone hfresh (fun _ => rfl) rfl
    (fun r _ _ => hmd.contains_iff fun _ => Iff.rfl) ?_
  intro members _ _ hmembers
  refine outcome_of_clone hfresh (fun _ => rfl) rfl
    (fun r hr hlive => isTaggedId_iff hconsistent hmh hmsv hms hmd hr hlive) ?_
  intro tags _ _ htags
  refine ⟨fun _ => ⟨_, rfl, fun k => ?_⟩, fun h => absurd hinserted h⟩
  cases k with
  | subnet => exact (hsubnets.remapVirtualization hfresh msv).congr (remappedBase_subnet hmsv)
  | vlan => exact hvlans
  | host => exact (hhosts.remapVirtualization hfresh msv).congr (remappedBase_host hmsv)
  | ipAddress => exact hips.congr (remap_ipAddress hmh hms)
  | port => exact hports.congr (remap_port hmh)
  | service =>
    exact (hservices.remapVirtualization hfresh msv).congr (remappedBase_service hmh hmsv)
  | interface => exact hinterfaces.congr (remap_interface hmh hmi hmv hmif)
  | binding => exact hbindings.congr (remap_binding hmsv hmi hmp)
  | subnetVlan => exact hsubnetVlans.congr (remap_subnetVlan hms hmv)
  | dependency => exact hdependencies
  | dependencyMember => exact hmembers.congr (remap_dependencyMember hmd hmsv hmb)
  | entityTag => exact htags.congr (remap_entityTag hmh hmsv hms hmd)

variable (run before) in
def IsCopiedRef (after : NetworkRows) (ref ref' : SnapshotTable × Uuid) : Prop :=
  ref'.1 = ref.1 ∧
    (∀ target ∈ before ref.1, run.Covers before ref.1 target → target.id = ref.2 →
      run.closedCopy before ref.1 target ∈ after ref.1 ∧
        ref'.2 = (run.closedCopy before ref.1 target).id ∧
        ∀ live ∈ after ref.1, live.isLive = true → live.id ≠ ref'.2) ∧
    (¬run.CoversId before ref.1 ref.2 → ref'.2 = ref.2)

variable (run before) in
structure IsIsomorphicCopy (after : NetworkRows) : Prop where
  bijective : ∀ k, Set.BijOn (run.closedCopy before k) {r | r ∈ before k ∧ run.Covers before k r}
    {c | c ∈ after k ∧ c.snapshotId = some run.snapshotId}
  closed : ∀ k, ∀ c ∈ after k, c.snapshotId = some run.snapshotId → c.isLive = false
  refers : ∀ k, ∀ r ∈ before k, run.Covers before k r →
    List.Forall₂ (run.IsCopiedRef before after) (k.references r.base)
      (k.references (run.closedCopy before k r).base)

section Copy
variable {after : NetworkRows} {remap : k.Base → k.Base} {t : RowTable k.Base}
  {r : StoredRow k.Base}

theorem IsClone.mem_snapshot_iff (h : run.IsClone before k remap t) (hfresh : run.FreshIds before)
    {c : StoredRow k.Base} :
    (c ∈ t ∧ c.snapshotId = some run.snapshotId) ↔
      ∃ r ∈ before k, run.Covers before k r ∧ c = run.closedWith k r (remap r.base) := by
  rw [h c]
  constructor
  · rintro ⟨⟨r, hr, -, rfl⟩ | ⟨hc, -⟩ | hcopy, hsnapshot⟩
    · exact absurd hsnapshot (hfresh.snapshot k r hr)
    · exact absurd hsnapshot (hfresh.snapshot k c hc)
    · exact hcopy
  · intro hcopy
    refine ⟨.inr (.inr hcopy), ?_⟩
    obtain ⟨r, -, -, rfl⟩ := hcopy
    rfl

theorem rename_of_covers (hr : r ∈ before k) (hcovers : run.Covers before k r) :
    run.rename before k r.id = run.newId k r.id :=
  if_pos ⟨r, hr, hcovers, rfl⟩

theorem IsClone.id_ne_of_isLive (h : run.IsClone before k remap t) (hr : r ∈ before k)
    (hcovers : run.Covers before k r) {live : StoredRow k.Base} (hlive : live ∈ t)
    (hopen : live.isLive = true) : live.id ≠ run.newId k r.id := by
  intro hid
  have hcopy : run.closedWith k r (remap r.base) ∈ t :=
    (h _).mpr (.inr (.inr ⟨r, hr, hcovers, rfl⟩))
  cases t.eq_of_key hlive hcopy hid
  exact Bool.false_ne_true hopen

theorem isCopiedRef (h : ∀ k, run.IsClone before k (k.renameRefs (run.rename before)) (after k))
    (ref : SnapshotTable × Uuid) :
    run.IsCopiedRef before after ref (ref.1, run.rename before ref.1 ref.2) := by
  refine ⟨rfl, fun target htarget hcovers hid => ?_, fun hcovers => if_neg hcovers⟩
  have hrename : run.rename before ref.1 ref.2 = run.newId ref.1 target.id := by
    rw [← hid]
    exact rename_of_covers htarget hcovers
  refine ⟨(h ref.1 _).mpr (.inr (.inr ⟨target, htarget, hcovers, rfl⟩)), hrename, ?_⟩
  intro live hlive hopen
  rw [hrename]
  exact (h ref.1).id_ne_of_isLive htarget hcovers hlive hopen

end Copy

theorem isIsomorphicCopy_of_isClone (hfresh : run.FreshIds before) {after : NetworkRows}
    (hclone : ∀ k, run.IsClone before k (k.renameRefs (run.rename before)) (after k)) :
    run.IsIsomorphicCopy before after := by
  refine ⟨fun k => ⟨?_, ?_, ?_⟩, ?_, ?_⟩
  · rintro r ⟨hr, hcovers⟩
    exact ((hclone k).mem_snapshot_iff hfresh).mpr ⟨r, hr, hcovers, rfl⟩
  · rintro r ⟨hr, hcovers⟩ r' ⟨hr', hcovers'⟩ heq
    have hid : run.newId k r.id = run.newId k r'.id := congrArg (fun c => c.id) heq
    exact hfresh.distinct k r hr r' hr' hcovers.1 hcovers'.1 hid
  · intro c hc
    obtain ⟨r, hr, hcovers, rfl⟩ := ((hclone k).mem_snapshot_iff hfresh).mp hc
    exact ⟨r, ⟨hr, hcovers⟩, rfl⟩
  · intro k c hc hsnapshot
    obtain ⟨r, -, -, rfl⟩ := ((hclone k).mem_snapshot_iff hfresh).mp ⟨hc, hsnapshot⟩
    rfl
  · intro k r hr hcovers
    have hrefs : k.references (run.closedCopy before k r).base =
        (k.references r.base).map fun p => (p.1, run.rename before p.1 p.2) :=
      k.references_renameRefs (run.rename before) r.base
    rw [hrefs, forall₂_map_right_iff, forall₂_same]
    exact fun ref _ => isCopiedRef hclone ref

/-- With consistent keys and fresh ids, a snapshot succeeds and copies the live rows of its network
exactly if no interface has a neighbour that is inserted by a later statement. -/
theorem isIsomorphicCopy_runCloseAndClone_iff (run : SnapshotRun) (before : NetworkRows)
    (hconsistent : LiveKeysConsistent before) (hfresh : run.FreshIds before) :
    (∃ after, run.runCloseAndClone before = some after ∧ run.IsIsomorphicCopy before after) ↔
      run.NeighborsInserted before := by
  have houtcome := outcome_runCloseAndClone hconsistent hfresh
  constructor
  · rintro ⟨after, hrun, -⟩
    by_contra hnot
    cases (houtcome.refused hnot).symm.trans hrun
  · intro hinserted
    obtain ⟨after, hrun, hclone⟩ := houtcome.copied hinserted
    exact ⟨after, hrun, isIsomorphicCopy_of_isClone hfresh hclone⟩

example : RowTable.chunkSize InterfaceBase = 1820 := by decide

theorem neighborsInserted_of_length_le
    (h : (run.liveInterfaces before).length ≤ RowTable.chunkSize InterfaceBase) :
    run.NeighborsInserted before := by
  unfold NeighborsInserted
  by_cases hnil : run.liveInterfaces before = []
  · rw [hnil, List.chunks_nil chunkSize_pos]
    exact .nil
  · rw [List.chunks_of_ne_nil chunkSize_pos hnil, drop_of_length_le h,
      List.chunks_nil chunkSize_pos]
    exact pairwise_singleton _ _

def rackRows : NetworkRows
  | .host => ⟨[⟨⟨1, 0, 0, none, none, ⟨"hypervisor", 9, none, none, some 4, false, []⟩⟩, none⟩],
      by decide⟩
  | .subnet => ⟨[⟨⟨2, 0, 0, none, none,
      ⟨.v4 ⟨0, 0, by decide, rfl⟩, 9, "", none, .lan, none, .discovery, 0⟩⟩, none⟩], by decide⟩
  | .ipAddress => ⟨[⟨⟨3, 0, 0, none, none, ⟨9, 1, 2, .v4 5, none, none, 0, 0⟩⟩, none⟩], by decide⟩
  | .service => ⟨[⟨⟨4, 0, 0, none, none, ⟨1, 9, "Proxmox", "", [], none, 0⟩⟩, none⟩], by decide⟩
  | .interface => ⟨[
      ⟨⟨5, 0, 0, none, none,
        ⟨1, 9, 1, "eth0", none, some 3, some (.interface 6), none, none⟩⟩, none⟩,
      ⟨⟨6, 0, 0, none, none,
        ⟨1, 9, 2, "eth1", none, none, some (.interface 5), none, none⟩⟩, none⟩], by decide⟩
  | .entityTag => ⟨[⟨⟨7, 0, 0, none, none, ⟨1, .host, 8⟩⟩, none⟩], by decide⟩
  | _ => ⟨[], List.nodup_nil⟩

def rackRun : SnapshotRun := ⟨9, 10, 100, fun _ id => BitVec.not id⟩

theorem rackRows_fresh (k : SnapshotTable) : ∀ r ∈ rackRows k,
    r.snapshotId = none ∧ ∀ r' ∈ rackRows k, r.id ≠ rackRun.newId k r'.id := by
  have hall : ((rackRows k).rows.all fun r => r.snapshotId = none ∧
      (rackRows k).rows.all (fun r' => r.id ≠ rackRun.newId k r'.id)) = true := by
    cases k <;> decide
  intro r hr
  have hr := of_decide_eq_true (List.all_eq_true.mp hall r hr)
  exact ⟨hr.1, fun r' hr' => of_decide_eq_true (List.all_eq_true.mp hr.2 r' hr')⟩

theorem freshIds_rackRun {rows : NetworkRows} (h : ∀ k, ∀ r ∈ rows k,
    r.snapshotId = none ∧ ∀ r' ∈ rows k, r.id ≠ rackRun.newId k r'.id) : rackRun.FreshIds rows where
  new := fun k r hr r' hr' _ => (h k r hr).2 r' hr'
  distinct := fun k _ hr _ hr' _ _ hid => (rows k).eq_of_key hr hr' (BitVec.not_inj.mp hid)
  snapshot := fun k r hr hsnapshot =>
    absurd ((h k r hr).1.symm.trans hsnapshot) (some_ne_none _).symm

theorem liveKeysConsistent_rackRows : LiveKeysConsistent rackRows where
  neighbor := by
    intro i hi _ id hid
    obtain rfl | hi := mem_cons.mp hi
    · cases hid
      exact ⟨_, mem_cons_of_mem _ mem_cons_self, rfl⟩
    · cases mem_singleton.mp hi
      cases hid
      exact ⟨_, mem_cons_self, rfl⟩
  port := fun _ hp => (not_mem_nil hp).elim
  interface := by
    intro i hi _
    obtain rfl | hi := mem_cons.mp hi
    · exact ⟨_, mem_cons_self, rfl, rfl, rfl⟩
    · cases mem_singleton.mp hi
      exact ⟨_, mem_cons_self, rfl, rfl, rfl⟩
  binding := fun _ hb => (not_mem_nil hb).elim
  tag := by
    intro t ht _ n
    cases mem_singleton.mp ht
    refine ⟨fun _ => rfl, ?_, ?_, ?_⟩
    · rintro ⟨r, hr, -, -, hid⟩
      cases mem_singleton.mp hr
      exact absurd hid (by decide)
    · rintro ⟨r, hr, -, -, hid⟩
      cases mem_singleton.mp hr
      exact absurd hid (by decide)
    · rintro ⟨r, hr, -⟩
      exact (not_mem_nil hr).elim

theorem isIsomorphicCopy_runCloseAndClone_rack :
    ∃ after, rackRun.runCloseAndClone rackRows = some after ∧
      rackRun.IsIsomorphicCopy rackRows after :=
  (isIsomorphicCopy_runCloseAndClone_iff rackRun rackRows liveKeysConsistent_rackRows
    (freshIds_rackRun rackRows_fresh)).mpr (neighborsInserted_of_length_le (by decide))

section Chassis

@[irreducible] def lastPort : ℕ := RowTable.chunkSize InterfaceBase

def chassisPort (n : ℕ) : StoredRow InterfaceBase :=
  ⟨⟨BitVec.ofNat 128 n, 0, 0, none, none, ⟨1, 9, n, "port", none, none,
    if n = 0 then some (.interface (BitVec.ofNat 128 lastPort)) else none, none, none⟩⟩, none⟩

theorem toNat_id_chassisPort {n : ℕ} (hn : n ≤ lastPort) :
    BitVec.toNat (chassisPort n).id = n ∧ n ≤ maxBindParams := by
  have hle : n ≤ maxBindParams := by
    rw [lastPort] at hn
    exact hn.trans (Nat.div_le_self _ _)
  exact ⟨Nat.mod_eq_of_lt (hle.trans_lt (by decide)), hle⟩

@[irreducible] def chassisPorts : List (StoredRow InterfaceBase) :=
    (List.range (lastPort + 1)).map chassisPort

theorem mem_chassisPorts {i : StoredRow InterfaceBase} :
    i ∈ chassisPorts ↔ ∃ n ≤ lastPort, chassisPort n = i := by
  rw [chassisPorts, List.mem_map]
  exact exists_congr fun n => and_congr_left fun _ => mem_range.trans Nat.lt_succ_iff

theorem nodup_chassisPorts : (chassisPorts.map (·.id)).Nodup := by
  rw [chassisPorts, List.map_map]
  refine (nodup_map_iff_inj_on nodup_range).mpr fun n hn m hm hid => ?_
  rw [← (toNat_id_chassisPort (Nat.lt_succ_iff.mp (mem_range.mp hn))).1,
    ← (toNat_id_chassisPort (Nat.lt_succ_iff.mp (mem_range.mp hm))).1]
  exact congrArg BitVec.toNat hid

def chassisRows : NetworkRows
  | .host => ⟨[⟨⟨1, 0, 0, none, none, ⟨"chassis", 9, none, none, none, false, []⟩⟩, none⟩],
      List.nodup_singleton _⟩
  | .interface => ⟨chassisPorts, nodup_chassisPorts⟩
  | _ => ⟨[], List.nodup_nil⟩

theorem chassisRows_fresh (k : SnapshotTable) : ∀ r ∈ chassisRows k,
    r.snapshotId = none ∧ ∀ r' ∈ chassisRows k, r.id ≠ rackRun.newId k r'.id := by
  intro r hr
  cases k with
  | host =>
    cases mem_singleton.mp hr
    refine ⟨rfl, fun r' hr' => ?_⟩
    cases mem_singleton.mp hr'
    decide
  | interface =>
    obtain ⟨n, hn, rfl⟩ := mem_chassisPorts.mp hr
    refine ⟨rfl, fun r' hr' hid => ?_⟩
    obtain ⟨m, hm, rfl⟩ := mem_chassisPorts.mp hr'
    obtain ⟨hnat, hle⟩ := toNat_id_chassisPort hn
    obtain ⟨hnat', hle'⟩ := toNat_id_chassisPort hm
    have hnot : n = 2 ^ 128 - 1 - m := by
      rw [← hnat, ← hnat']
      exact (congrArg BitVec.toNat hid).trans BitVec.toNat_not
    simp only [maxBindParams] at hle hle'
    omega
  | _ => exact absurd hr not_mem_nil

theorem liveKeysConsistent_chassisRows : LiveKeysConsistent chassisRows where
  neighbor := by
    intro i hi _ id hid
    obtain ⟨n, -, rfl⟩ := mem_chassisPorts.mp hi
    obtain ⟨-, heq⟩ := ite_none_right_eq_some.mp (ownReference_eq_some.mp hid)
    cases heq
    exact ⟨chassisPort lastPort, mem_chassisPorts.mpr ⟨lastPort, le_rfl, rfl⟩, rfl⟩
  port := fun _ hp => (not_mem_nil hp).elim
  interface := by
    intro i hi _
    obtain ⟨n, -, rfl⟩ := mem_chassisPorts.mp hi
    exact ⟨_, mem_cons_self, rfl, rfl, rfl⟩
  binding := fun _ hb => (not_mem_nil hb).elim
  tag := fun _ ht => (not_mem_nil ht).elim

theorem liveInterfaces_chassisRows : rackRun.liveInterfaces chassisRows = chassisPorts := by
  have hall : chassisPorts.filter (fun i => i.isLive && decide (i.base.networkId = 9)) =
      chassisPorts := by
    refine filter_eq_self.mpr fun i hi => ?_
    obtain ⟨n, -, rfl⟩ := mem_chassisPorts.mp hi
    rfl
  refine (congrArg (List.insertionSort _) hall).trans (List.Pairwise.insertionSort_eq ?_)
  rw [chassisPorts, pairwise_map]
  exact pairwise_of_forall fun _ _ => le_rfl

theorem not_neighborsInserted_chassisRows : ¬rackRun.NeighborsInserted chassisRows := by
  have hsize : chunkSize InterfaceBase = lastPort := by rw [lastPort]
  have hpos : 0 < lastPort := hsize ▸ chunkSize_pos
  rw [NeighborsInserted, liveInterfaces_chassisRows, hsize]
  have hfirst : chassisPort 0 ∈ chassisPorts.take lastPort := by
    rw [chassisPorts, ← map_take, take_range]
    exact List.mem_map_of_mem (mem_range.mpr (lt_min hpos (Nat.succ_pos _)))
  have hlast : chassisPort lastPort ∈ chassisPorts.drop lastPort := by
    rw [chassisPorts, ← map_drop, range_succ, drop_left' length_range]
    exact mem_singleton_self _
  have hne : chassisPorts ≠ [] := ne_nil_of_mem (mem_of_mem_take hfirst)
  rw [List.chunks_of_ne_nil hpos hne, pairwise_cons]
  rintro ⟨hall, -⟩
  rw [← List.flatten_chunks hpos (l := chassisPorts.drop lastPort)] at hlast
  obtain ⟨later, hlater, hlast⟩ := mem_flatten.mp hlast
  exact hall later hlater _ hfirst _ hlast rfl

/-- The first of the ports is cabled to the last, which is inserted by a statement of its own. -/
theorem not_isIsomorphicCopy_runCloseAndClone :
    LiveKeysConsistent chassisRows ∧ rackRun.FreshIds chassisRows ∧
      ¬∃ after, rackRun.runCloseAndClone chassisRows = some after ∧
        rackRun.IsIsomorphicCopy chassisRows after := by
  have hfresh := freshIds_rackRun chassisRows_fresh
  refine ⟨liveKeysConsistent_chassisRows, hfresh, fun ⟨after, hrun, _⟩ => ?_⟩
  have hrefused := (outcome_runCloseAndClone liveKeysConsistent_chassisRows hfresh).refused
    not_neighborsInserted_chassisRows
  cases hrefused.symm.trans hrun

end Chassis

end SnapshotRun

end Scanopy
