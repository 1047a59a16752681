import Scanopy.Daemon.Controllers

/-! The interfaces that a daemon makes of a UniFi device. Three tables tell what is at the far end
of a port, and are applied one after another, from the least to the most trusted. -/

namespace Scanopy

open List Option FirstMatch

structure UnifiPort where
  portIdx : Option FlexInt := none
  name : Option String := none
  up : Option FlexBool := none
  enable : Option FlexBool := none
  speed : Option FlexInt := none
  mac : Option String := none
  macTable : List (Option String) := []

structure UnifiLldpEntry where
  chassisId : Option String := none
  portId : Option String := none
  localPortIdx : Option FlexInt := none

structure UnifiDownlink where
  mac : Option String := none
  portIdx : Option FlexInt := none

structure UnifiUplink where
  name : Option String := none
  mac : Option String := none
  portIdx : Option FlexInt := none
  uplinkMac : Option String := none
  uplinkRemotePort : Option FlexInt := none
  uplinkDeviceName : Option String := none

structure UnifiTables where
  portTable : List UnifiPort := []
  lldpTable : List UnifiLldpEntry := []
  downlinkTable : List UnifiDownlink := []
  uplink : Option UnifiUplink := none

namespace UnifiTables
variable (parseMac : String → Option MacAddress) (tables : UnifiTables)
  (byMac : HashMap String (UnifiDevice UnifiTables)) (networkId : Uuid)
  (deviceMac : Option String)

def portToInterface (port : UnifiPort) : SwitchPort :=
  let ifIndex := (port.portIdx.map (·.asI32)).getD 0
  let name := ((port.name.map trim).filter fun n => !n.isEmpty).getD s!"Port {ifIndex}"
  -- a MAC that is the chassis' own is not the port's
  let mac := ((port.mac.bind (canonicalMac parseMac)).filter fun m => deviceMac ≠ some m).bind parseMac
  let fdbMacs := (port.macTable.filterMap fun m => m.bind (canonicalMac parseMac)).filter fun m =>
    deviceMac ≠ some m
  { SwitchPort.named networkId ifIndex name with
    speedBps := speedBps port.speed
    adminStatus := if port.enable = some false then .down else .up
    operStatus := if port.up = some true then .up else .down
    macAddress := mac
    fdbMacs := if fdbMacs.isEmpty then none else some fdbMacs }

def uplinkInterface (uplink : UnifiUplink) : SwitchPort :=
  { SwitchPort.named networkId ((uplink.portIdx.map (·.asI32)).getD 1)
      ((nonBlank uplink.name).getD "uplink") with
    macAddress := (uplink.mac.bind (canonicalMac parseMac)).bind parseMac }

def applyUplink (interfaces : List SwitchPort) : List SwitchPort :=
  match tables.uplink with
  | none => interfaces
  | some uplink =>
    match uplink.uplinkMac.bind (canonicalMac parseMac), uplink.portIdx with
    | some parentMac, some portIdx => updatePort interfaces portIdx.asI32 fun i => { i with
        lldpChassisId := some (.macAddress parentMac)
        lldpPortId := uplink.uplinkRemotePort.map fun p => .locallyAssigned (toString p.asI32)
        lldpSysName := nonBlank uplink.uplinkDeviceName }
    | _, _ => interfaces

def applyDownlink (interfaces : List SwitchPort) (downlink : UnifiDownlink) : List SwitchPort :=
  match downlink.mac.bind (canonicalMac parseMac), downlink.portIdx with
  | some childMac, some portIdx => updatePort interfaces portIdx.asI32 fun i => { i with
      lldpChassisId := some (.macAddress childMac)
      lldpPortId := (((byMac.get childMac).bind (·.tables.uplink)).bind (·.portIdx)).map fun p =>
        .locallyAssigned (toString p.asI32)
      lldpSysName := nonBlank ((byMac.get childMac).bind (·.name)) }
  | _, _ => interfaces

def applyDownlinks (interfaces : List SwitchPort) : List SwitchPort :=
  tables.downlinkTable.foldl (applyDownlink parseMac byMac) interfaces

def applyLldpEntry (interfaces : List SwitchPort) (entry : UnifiLldpEntry) : List SwitchPort :=
  match entry.chassisId.map trim, entry.localPortIdx with
  | some chassisRaw, some localIdx =>
    if chassisRaw.isEmpty then interfaces
    else
      let chassis := LldpChassisId.fromIdentifierStr parseMac chassisRaw
      updatePort interfaces localIdx.asI32 fun i => { i with
        lldpSysName := match chassis with
          | .locallyAssigned _ => some chassisRaw
          | _ => i.lldpSysName
        lldpChassisId := some chassis
        lldpPortId := ((entry.portId.map trim).filter fun p => !p.isEmpty).map
          (LldpPortId.fromIdentifierStr parseMac) }
  | _, _ => interfaces

def applyLldpTable (interfaces : List SwitchPort) : List SwitchPort :=
  tables.lldpTable.foldl (applyLldpEntry parseMac) interfaces

def portInterfaces : List SwitchPort :=
  match tables.portTable with
  | [] => tables.uplink.toList.map (uplinkInterface parseMac networkId)
  | ports => ports.map (portToInterface parseMac networkId deviceMac)

def mapInterfaces : List SwitchPort :=
  applyLldpTable parseMac tables (applyUplink parseMac tables
    (applyDownlinks parseMac tables byMac (portInterfaces parseMac tables networkId deviceMac)))

def portIndexes : List ℤ :=
  match tables.portTable with
  | [] => tables.uplink.toList.map fun uplink => (uplink.portIdx.map (·.asI32)).getD 1
  | ports => ports.map fun port => (port.portIdx.map (·.asI32)).getD 0

def downlinkRecord (downlink : UnifiDownlink) : Option (ℤ × PortNeighbour) := do
  let childMac ← downlink.mac.bind (canonicalMac parseMac)
  let portIdx ← downlink.portIdx
  return (portIdx.asI32, {
    chassisId := some (.macAddress childMac)
    portId := (((byMac.get childMac).bind (·.tables.uplink)).bind (·.portIdx)).map fun p =>
      .locallyAssigned (toString p.asI32)
    sysName := nonBlank ((byMac.get childMac).bind (·.name)) })

def uplinkRecord (uplink : UnifiUplink) : Option (ℤ × PortNeighbour) := do
  let parentMac ← uplink.uplinkMac.bind (canonicalMac parseMac)
  let portIdx ← uplink.portIdx
  return (portIdx.asI32, {
    chassisId := some (.macAddress parentMac)
    portId := uplink.uplinkRemotePort.map fun p => .locallyAssigned (toString p.asI32)
    sysName := nonBlank uplink.uplinkDeviceName })

def lldpRecord (entry : UnifiLldpEntry) : Option (ℤ × PortNeighbour) := do
  let chassisRaw ← (entry.chassisId.map trim).filter fun c => !c.isEmpty
  let localIdx ← entry.localPortIdx
  return (localIdx.asI32, {
    chassisId := some (LldpChassisId.fromIdentifierStr parseMac chassisRaw)
    portId := ((entry.portId.map trim).filter fun p => !p.isEmpty).map
      (LldpPortId.fromIdentifierStr parseMac)
    sysName := if (canonicalMac parseMac chassisRaw).isSome then none else some chassisRaw })

def neighboursAt (records : List (ℤ × PortNeighbour)) (ifIndex : ℤ) : List PortNeighbour :=
  (records.filter (·.1 = ifIndex)).map Prod.snd

def lldpNeighbours (ifIndex : ℤ) : List PortNeighbour :=
  neighboursAt (tables.lldpTable.filterMap (lldpRecord parseMac)) ifIndex

def adoptedNeighbour (ifIndex : ℤ) : Option PortNeighbour :=
  (neighboursAt (tables.uplink.toList.filterMap (uplinkRecord parseMac)) ifIndex).getLast?.or
    (neighboursAt (tables.downlinkTable.filterMap (downlinkRecord parseMac byMac)) ifIndex).getLast?

def portRecord (ifIndex : ℤ) : Option PortNeighbour :=
  (lldpNeighbours parseMac tables ifIndex).getLast?.or (adoptedNeighbour parseMac tables byMac ifIndex)

def DescribesOnce : Prop :=
  ∀ i ∈ mapInterfaces parseMac tables byMac networkId deviceMac,
    i.neighbour = (portRecord parseMac tables byMac i.ifIndex).getD {}

structure Unmixed : Prop where
  single : ∀ ifIndex, portRecord parseMac tables byMac ifIndex ≠ none →
    tables.portIndexes.count ifIndex ≤ 1
  unnamed : ∀ ifIndex ∈ tables.portIndexes, ∀ last,
    (lldpNeighbours parseMac tables ifIndex).getLast? = some last → last.sysName = none →
      (∀ n ∈ lldpNeighbours parseMac tables ifIndex, n.sysName = none) ∧
        ∀ n, adoptedNeighbour parseMac tables byMac ifIndex = some n → n.sysName = none

end UnifiTables

/-- A record that does not name the system keeps the name that is there. -/
def PortNeighbour.over (old n : PortNeighbour) : PortNeighbour :=
  { n with sysName := n.sysName.or old.sysName }

namespace PortNeighbour
variable {old last : PortNeighbour} {l : List PortNeighbour}

theorem over_eq_self : old.over last = last ↔ (last.sysName = none → old.sysName = none) := by
  obtain ⟨chassisId, portId, sysName⟩ := last
  unfold PortNeighbour.over
  cases sysName with
  | none => simp
  | some name => simp

theorem sysName_foldl_over (l : List PortNeighbour) (old : PortNeighbour) :
    (l.foldl PortNeighbour.over old).sysName = none ↔ (∀ n ∈ l, n.sysName = none) ∧ old.sysName = none := by
  induction l generalizing old with
  | nil => simp
  | cons n l ih =>
    rw [foldl_cons, ih, forall_mem_cons, PortNeighbour.over, or_eq_none_iff]
    tauto

theorem foldl_over_eq (hlast : l.getLast? = some last) : l.foldl PortNeighbour.over old = last ↔
    (last.sysName = none → (∀ n ∈ l, n.sysName = none) ∧ old.sysName = none) := by
  obtain ⟨earlier, rfl⟩ := getLast?_eq_some_iff.mp hlast
  rw [foldl_append, foldl_cons, foldl_nil, over_eq_self, sysName_foldl_over]
  refine imp_congr_right fun hnone => ?_
  rw [forall_mem_append, forall_mem_singleton]
  tauto

theorem foldl_last (l : List PortNeighbour) (old : PortNeighbour) :
    l.foldl (fun _ n => n) old = l.getLast?.getD old := by
  induction l generalizing old with
  | nil => rfl
  | cons n l ih =>
    rw [foldl_cons, ih, getLast?_cons]
    rfl

end PortNeighbour

namespace UnifiTables
variable {parseMac : String → Option MacAddress} {tables : UnifiTables}
  {byMac : HashMap String (UnifiDevice UnifiTables)} {networkId : Uuid} {deviceMac : Option String}
variable {i : SwitchPort} {ifIndex : ℤ}

abbrev Update := ℤ × (SwitchPort → SwitchPort)

def settingUpdate (record : ℤ × PortNeighbour) : Update :=
  (record.1, SwitchPort.setNeighbour record.2)

def overlayUpdate (record : ℤ × PortNeighbour) : Update :=
  (record.1, fun i => i.setNeighbour (i.neighbour.over record.2))

theorem applyDownlinks_eq (interfaces : List SwitchPort) :
    applyDownlinks parseMac tables byMac interfaces = FirstMatch.modifyAll (fun i => i.ifIndex)
      ((tables.downlinkTable.filterMap (downlinkRecord parseMac byMac)).map settingUpdate)
      interfaces := by
  unfold applyDownlinks modifyAll
  rw [foldl_map, foldl_filterMap]
  congr 1
  funext interfaces downlink
  unfold applyDownlink downlinkRecord
  cases downlink.mac.bind (canonicalMac parseMac) with
  | none => rfl
  | some childMac => cases downlink.portIdx <;> rfl

theorem applyUplink_eq (interfaces : List SwitchPort) :
    applyUplink parseMac tables interfaces = FirstMatch.modifyAll (fun i => i.ifIndex)
      ((tables.uplink.toList.filterMap (uplinkRecord parseMac)).map settingUpdate) interfaces := by
  unfold applyUplink modifyAll
  rw [foldl_map, foldl_filterMap]
  cases tables.uplink with
  | none => rfl
  | some uplink =>
    rw [toList_some, foldl_cons, foldl_nil]
    unfold uplinkRecord
    dsimp only
    cases uplink.uplinkMac.bind (canonicalMac parseMac) with
    | none => rfl
    | some parentMac => cases uplink.portIdx <;> rfl

theorem applyLldpTable_eq (interfaces : List SwitchPort) :
    applyLldpTable parseMac tables interfaces = FirstMatch.modifyAll (fun i => i.ifIndex)
      ((tables.lldpTable.filterMap (lldpRecord parseMac)).map overlayUpdate) interfaces := by
  unfold applyLldpTable modifyAll
  rw [foldl_map, foldl_filterMap]
  congr 1
  funext interfaces entry
  unfold applyLldpEntry lldpRecord
  cases entry.chassisId.map trim with
  | none => rfl
  | some chassisRaw =>
    cases entry.localPortIdx with
    | none =>
      cases hempty : chassisRaw.isEmpty <;> simp [Option.filter, hempty]
    | some localIdx =>
      cases hempty : chassisRaw.isEmpty with
      | true => simp [Option.filter, hempty]
      | false =>
        have hfilter : (some chassisRaw).filter (fun c => !c.isEmpty) = some chassisRaw := by
          simp [Option.filter, hempty]
        rw [hfilter]
        simp only [hempty, bind_eq_bind, bind_some, LldpChassisId.fromIdentifierStr]
        cases canonicalMac parseMac chassisRaw <;> rfl

def updates (parseMac : String → Option MacAddress) (tables : UnifiTables)
    (byMac : HashMap String (UnifiDevice UnifiTables)) : List Update :=
  (tables.downlinkTable.filterMap (downlinkRecord parseMac byMac)).map settingUpdate ++
    (tables.uplink.toList.filterMap (uplinkRecord parseMac)).map settingUpdate ++
    (tables.lldpTable.filterMap (lldpRecord parseMac)).map overlayUpdate

theorem mapInterfaces_eq : mapInterfaces parseMac tables byMac networkId deviceMac =
    FirstMatch.modifyAll (fun i => i.ifIndex) (updates parseMac tables byMac)
      (portInterfaces parseMac tables networkId deviceMac) := by
  rw [mapInterfaces, applyLldpTable_eq, applyUplink_eq, applyDownlinks_eq, updates,
    modifyAll_append, modifyAll_append]

theorem ifIndex_of_mem_updates : ∀ u ∈ updates parseMac tables byMac, ∀ i : SwitchPort,
    (u.2 i).ifIndex = i.ifIndex := by
  intro u hu i
  unfold updates at hu
  rcases mem_append.mp hu with hadopted | hlldp
  · rcases mem_append.mp hadopted with hdown | hup
    · obtain ⟨record, -, rfl⟩ := List.mem_map.mp hdown
      rfl
    · obtain ⟨record, -, rfl⟩ := List.mem_map.mp hup
      rfl
  · obtain ⟨record, -, rfl⟩ := List.mem_map.mp hlldp
    rfl

theorem map_ifIndex_portInterfaces :
    (portInterfaces parseMac tables networkId deviceMac).map (fun i => i.ifIndex) =
      tables.portIndexes := by
  unfold portInterfaces portIndexes
  split
  · rw [List.map_map]
    rfl
  · rw [List.map_map]
    rfl

theorem map_ifIndex_mapInterfaces :
    (mapInterfaces parseMac tables byMac networkId deviceMac).map (fun i => i.ifIndex) =
      tables.portIndexes := by
  rw [mapInterfaces_eq, map_key_modifyAll ifIndex_of_mem_updates,
    map_ifIndex_portInterfaces]

theorem neighbour_of_mem_portInterfaces
    (h : i ∈ portInterfaces parseMac tables networkId deviceMac) : i.neighbour = {} := by
  unfold portInterfaces at h
  split at h
  · obtain ⟨uplink, -, rfl⟩ := List.mem_map.mp h
    rfl
  · obtain ⟨port, -, rfl⟩ := List.mem_map.mp h
    rfl

theorem neighbour_foldl (update : ℤ × PortNeighbour → Update)
    (f : PortNeighbour → PortNeighbour → PortNeighbour)
    (hindex : ∀ record, (update record).1 = record.1)
    (hset : ∀ record i, ((update record).2 i).neighbour = f i.neighbour record.2)
    (records : List (ℤ × PortNeighbour)) (ifIndex : ℤ) (i : SwitchPort) :
    (((records.map update).filter (·.1 = ifIndex)).foldl (fun i u => u.2 i) i).neighbour =
      (neighboursAt records ifIndex).foldl f i.neighbour := by
  rw [neighboursAt, foldl_map, List.filter_map, foldl_map]
  have hfilter : records.filter ((fun u : Update => decide (u.1 = ifIndex)) ∘ update) =
      records.filter (·.1 = ifIndex) :=
    List.filter_congr fun record _ => by rw [Function.comp_apply, hindex]
  rw [hfilter]
  generalize records.filter (·.1 = ifIndex) = matching
  induction matching generalizing i with
  | nil => rfl
  | cons record matching ih => rw [foldl_cons, foldl_cons, ih, hset]

theorem neighbour_updated (i : SwitchPort) (hi : i.neighbour = {}) :
    (FirstMatch.updated (fun i => i.ifIndex) (updates parseMac tables byMac) i).neighbour =
      (lldpNeighbours parseMac tables i.ifIndex).foldl PortNeighbour.over
        ((adoptedNeighbour parseMac tables byMac i.ifIndex).getD {}) := by
  unfold updated updates
  rw [filter_append, filter_append, foldl_append, foldl_append,
    neighbour_foldl overlayUpdate .over (fun _ => rfl) fun _ _ => rfl,
    neighbour_foldl settingUpdate (fun _ n => n) (fun _ => rfl) fun _ _ => rfl,
    neighbour_foldl settingUpdate (fun _ n => n) (fun _ => rfl) fun _ _ => rfl,
    PortNeighbour.foldl_last, PortNeighbour.foldl_last, hi]
  unfold lldpNeighbours adoptedNeighbour
  rw [getD_or]

theorem getElem?_mapInterfaces (n : ℕ) :
    (mapInterfaces parseMac tables byMac networkId deviceMac)[n]? =
      (portInterfaces parseMac tables networkId deviceMac)[n]?.map fun i =>
        if i.ifIndex ∈ tables.portIndexes.take n then i
        else FirstMatch.updated (fun i => i.ifIndex) (updates parseMac tables byMac) i := by
  rw [mapInterfaces_eq, getElem?_modifyAll ifIndex_of_mem_updates]
  simp only [map_take, map_ifIndex_portInterfaces]

def described (parseMac : String → Option MacAddress) (tables : UnifiTables)
    (byMac : HashMap String (UnifiDevice UnifiTables)) (n : ℕ) (ifIndex : ℤ) : PortNeighbour :=
  if ifIndex ∈ tables.portIndexes.take n then {}
  else (lldpNeighbours parseMac tables ifIndex).foldl PortNeighbour.over
    ((adoptedNeighbour parseMac tables byMac ifIndex).getD {})

theorem described_of_getElem? {n : ℕ}
    (h : (mapInterfaces parseMac tables byMac networkId deviceMac)[n]? = some i) :
    tables.portIndexes[n]? = some i.ifIndex ∧
      i.neighbour = described parseMac tables byMac n i.ifIndex := by
  rw [getElem?_mapInterfaces] at h
  obtain ⟨base, hbase, rfl⟩ := map_eq_some_iff.mp h
  have hindex : (if base.ifIndex ∈ tables.portIndexes.take n then base
      else updated (fun i => i.ifIndex) (updates parseMac tables byMac) base).ifIndex =
        base.ifIndex := by
    split_ifs
    · rfl
    · exact key_updated (fun i : SwitchPort => i.ifIndex) ifIndex_of_mem_updates base
  have hnone := neighbour_of_mem_portInterfaces (mem_of_getElem? hbase)
  refine ⟨?_, ?_⟩
  · rw [hindex, ← map_ifIndex_portInterfaces, getElem?_map, hbase, map_some]
  · rw [hindex]
    unfold described
    split_ifs
    · exact hnone
    · exact neighbour_updated base hnone

theorem describesOnce_iff_forall : DescribesOnce parseMac tables byMac networkId deviceMac ↔
    ∀ n ifIndex, tables.portIndexes[n]? = some ifIndex → described parseMac tables byMac n ifIndex =
        (portRecord parseMac tables byMac ifIndex).getD {} := by
  constructor
  · intro h n ifIndex hn
    rw [← map_ifIndex_mapInterfaces, getElem?_map] at hn
    obtain ⟨i, hi, rfl⟩ := map_eq_some_iff.mp hn
    rw [← (described_of_getElem? hi).2]
    exact h i (mem_of_getElem? hi)
  · intro h i hi
    obtain ⟨n, hn⟩ := mem_iff_getElem?.mp hi
    obtain ⟨hindex, hneighbour⟩ := described_of_getElem? hn
    rw [hneighbour, h n i.ifIndex hindex]

theorem portRecord_ne : portRecord parseMac tables byMac ifIndex ≠ some {} := by
  intro h
  have hrecords : ∀ {records : List (ℤ × PortNeighbour)} {n : PortNeighbour},
      (neighboursAt records ifIndex).getLast? = some n → (∀ r ∈ records, r.2.chassisId ≠ none) →
        n.chassisId ≠ none := by
    intro records n hlast hchassis
    obtain ⟨r, hr, rfl⟩ := List.mem_map.mp (mem_of_getLast? hlast)
    exact hchassis r (mem_of_mem_filter hr)
  unfold portRecord adoptedNeighbour at h
  rcases or_eq_some_iff.mp h with hlldp | ⟨-, hadopted⟩
  · refine hrecords hlldp (fun r hr => ?_) rfl
    obtain ⟨entry, -, hentry⟩ := mem_filterMap.mp hr
    unfold lldpRecord at hentry
    simp only [bind_eq_bind, bind_eq_some_iff] at hentry
    obtain ⟨chassisRaw, -, localIdx, -, hpure⟩ := hentry
    cases hpure
    exact nofun
  · rcases or_eq_some_iff.mp hadopted with hup | ⟨-, hdown⟩
    · refine hrecords hup (fun r hr => ?_) rfl
      obtain ⟨uplink, -, huplink⟩ := mem_filterMap.mp hr
      unfold uplinkRecord at huplink
      simp only [bind_eq_bind, bind_eq_some_iff] at huplink
      obtain ⟨parentMac, -, portIdx, -, hpure⟩ := huplink
      cases hpure
      exact nofun
    · refine hrecords hdown (fun r hr => ?_) rfl
      obtain ⟨downlink, -, hdownlink⟩ := mem_filterMap.mp hr
      unfold downlinkRecord at hdownlink
      simp only [bind_eq_bind, bind_eq_some_iff] at hdownlink
      obtain ⟨childMac, -, portIdx, -, hpure⟩ := hdownlink
      cases hpure
      exact nofun

theorem foldl_over_eq_portRecord_iff :
    (lldpNeighbours parseMac tables ifIndex).foldl PortNeighbour.over
        ((adoptedNeighbour parseMac tables byMac ifIndex).getD {}) =
      (portRecord parseMac tables byMac ifIndex).getD {} ↔
    ∀ last, (lldpNeighbours parseMac tables ifIndex).getLast? = some last → last.sysName = none →
      (∀ n ∈ lldpNeighbours parseMac tables ifIndex, n.sysName = none) ∧
        ∀ n, adoptedNeighbour parseMac tables byMac ifIndex = some n → n.sysName = none := by
  unfold portRecord
  cases hlast : (lldpNeighbours parseMac tables ifIndex).getLast? with
  | none =>
    rw [getLast?_eq_none_iff.mp hlast, none_or, foldl_nil]
    exact iff_of_true rfl (fun _ h => nomatch h)
  | some last =>
    have hadopted : ((adoptedNeighbour parseMac tables byMac ifIndex).getD {}).sysName = none ↔
        ∀ n, adoptedNeighbour parseMac tables byMac ifIndex = some n → n.sysName = none := by
      cases adoptedNeighbour parseMac tables byMac ifIndex <;> simp
    rw [some_or, getD_some, PortNeighbour.foldl_over_eq hlast, hadopted]
    constructor
    · rintro h last' heq
      rw [← some.inj heq]
      exact h
    · exact fun h => h last rfl

/-- Each interface describes its neighbour by one record if none that is described shares its index,
and no name is left over from a less trusted record. -/
theorem describesOnce_iff (parseMac : String → Option MacAddress) (tables : UnifiTables)
    (byMac : HashMap String (UnifiDevice UnifiTables)) (networkId : Uuid)
    (deviceMac : Option String) :
    DescribesOnce parseMac tables byMac networkId deviceMac ↔ Unmixed parseMac tables byMac := by
  rw [describesOnce_iff_forall]
  constructor
  · intro h
    refine ⟨fun ifIndex hrecord => ?_, fun ifIndex hmem => ?_⟩
    · by_contra hcount
      obtain ⟨n, hn, htake⟩ := one_lt_count_iff.mp (Nat.lt_of_not_le hcount)
      have hempty := h n ifIndex hn
      unfold described at hempty
      rw [if_pos htake] at hempty
      cases hportRecord : portRecord parseMac tables byMac ifIndex with
      | none => exact hrecord hportRecord
      | some record =>
        rw [hportRecord, getD_some] at hempty
        rw [← hempty] at hportRecord
        exact portRecord_ne hportRecord
    · obtain ⟨n, hn, htake⟩ := exists_first hmem
      have hfirst := h n ifIndex hn
      unfold described at hfirst
      rw [if_neg htake] at hfirst
      exact foldl_over_eq_portRecord_iff.mp hfirst
  · intro h n ifIndex hn
    unfold described
    split_ifs with htake
    · have hcount : 1 < tables.portIndexes.count ifIndex :=
        one_lt_count_iff.mpr ⟨n, hn, htake⟩
      have hnone : portRecord parseMac tables byMac ifIndex = none := by
        by_contra hrecord
        have hsingle := h.single ifIndex hrecord
        omega
      rw [hnone, getD_none]
    · exact foldl_over_eq_portRecord_iff.mpr (h.unnamed ifIndex (mem_of_getElem? hn))

section Switch

/-- The uplink of a switch leaves from its port 24. The LLDP table has another neighbour there, which
is named by its MAC. -/
def coreSwitch : UnifiTables where
  portTable := [{ portIdx := some ⟨24⟩ }]
  lldpTable := [{ chassisId := some "78:8a:20:11:22:33", localPortIdx := some ⟨24⟩ }]
  uplink := some
    { portIdx := some ⟨24⟩, uplinkMac := some "00:1a:2b:3c:4d:5e"
      uplinkRemotePort := some ⟨4⟩, uplinkDeviceName := some "Border Gateway" }

/-- The port gets the MAC of one neighbour and the name of the other. -/
theorem not_describesOnce : ¬∀ (parseMac : String → Option MacAddress) (tables : UnifiTables)
    (byMac : HashMap String (UnifiDevice UnifiTables)) (networkId : Uuid)
    (deviceMac : Option String), DescribesOnce parseMac tables byMac networkId deviceMac := by
  intro h
  have hmixed : ∃ i ∈ mapInterfaces paddedMac coreSwitch HashMap.empty 1 none,
      i.neighbour ≠ (portRecord paddedMac coreSwitch HashMap.empty i.ifIndex).getD {} := by
    decide +kernel
  obtain ⟨i, hi, hne⟩ := hmixed
  exact hne (h paddedMac coreSwitch HashMap.empty 1 none i hi)

end Switch

end UnifiTables
end Scanopy
