import Scanopy.Snmp.Collect

/-! What a scan that was cut short does to the stored interfaces. The flag of a group says that its
own walks are complete; LLDP and VLANs are put together from further walks. -/

namespace Scanopy

open List Option Bool IfTableStage Shortfall SnmpInterface

/-- The tables of a device. -/
structure SnmpAgent where
  rows : SnmpColumn → List (List ℕ × SnmpValue)

def SnmpAgent.walks (agent : SnmpAgent) : Walks := fun c => ⟨agent.rows c, .endOfSubtree⟩

/-- The device with another table of management addresses. -/
def SnmpAgent.withManAddrs (agent : SnmpAgent) (rows : List (List ℕ × SnmpValue)) : SnmpAgent :=
  ⟨fun c => if c = .lldpRemManAddrIfSubtype then rows else agent.rows c⟩

def fdbTable (walks : Walks) : HashMap (List ℕ) FdbBuilder :=
  (legacyFdb walks).orInsertAll (walkQbridgeFdb walks)

def NamesAll (vlans : List VlanInfo) (ids : HashMap (BitVec 16) Uuid) : Prop :=
  ∀ v ∈ vlans, (ids.get v.vlanId).isSome = true

/-- A scan of the device: every walk reads the first rows of its column, and all of them if it
comes to its end; every map is iterated over in some order. A server that takes the VLANs gives an
id to each of them. -/
structure SnmpScan.Reads (scan : SnmpScan) (agent : SnmpAgent) : Prop where
  rows : ∀ c, (scan.walks c).rows <+: agent.rows c
  complete : ∀ c, (scan.walks c).stop.isComplete = true → (scan.walks c).rows = agent.rows c
  server : ∀ vlans ids, scan.upsertVlans vlans = some ids → NamesAll vlans ids
  lldpOrder : (lldpTable scan.walks).Enumerates scan.lldpOrder
  cdpOrder : (cdpTable scan.walks).Enumerates scan.cdpOrder
  fdbOrder : (fdbTable scan.walks).Enumerates scan.fdbOrder
  portOrder : scan.bridgePorts.records.Enumerates scan.portOrder

structure SnmpScan.Untruncated (scan : SnmpScan) (agent : SnmpAgent) : Prop extends
    scan.Reads agent where
  ends : ∀ c, (scan.walks c).stop.isComplete = true
  inTime : ∀ q, scan.timedOut q = false
  accepted : ∀ vlans, (scan.upsertVlans vlans).isSome = true

def SnmpScan.SameServer (scan full : SnmpScan) : Prop :=
  ∀ vlans ids, scan.upsertVlans vlans = some ids → full.upsertVlans vlans = some ids

namespace SnmpInterface

def lldpData (i : SnmpInterface) : Option LldpChassisId × Option LldpPortId × Option String ×
    Option String × Option IpAddr × Option String :=
  (i.base.lldpChassisId, i.base.lldpPortId, i.base.lldpSysName, i.base.lldpPortDesc,
    i.base.lldpMgmtAddr, i.base.lldpSysDesc)

def cdpData (i : SnmpInterface) : Option String × Option String × Option String × Option IpAddr :=
  (i.base.cdpDeviceId, i.base.cdpPortId, i.base.cdpPlatform, i.base.cdpAddress)

def fdbData (i : SnmpInterface) : Option (List String) := i.base.fdbMacs

def vlanData (i : SnmpInterface) : Option Uuid × Option (List Uuid) :=
  (i.base.nativeVlanId, i.base.vlanIds)

variable (i existing : SnmpInterface) (collected : InterfaceDataComplete)

theorem lldpData_preserveUncollectedData : (preserveUncollectedData i existing collected).lldpData =
    if collected.lldp then i.lldpData else existing.lldpData := by
  obtain ⟨lldp, cdp, fdb, vlanMembership⟩ := collected
  cases lldp <;> cases cdp <;> cases fdb <;> cases vlanMembership <;> rfl

theorem cdpData_preserveUncollectedData : (preserveUncollectedData i existing collected).cdpData =
    if collected.cdp then i.cdpData else existing.cdpData := by
  obtain ⟨lldp, cdp, fdb, vlanMembership⟩ := collected
  cases lldp <;> cases cdp <;> cases fdb <;> cases vlanMembership <;> rfl

theorem fdbData_preserveUncollectedData : (preserveUncollectedData i existing collected).fdbData =
    if collected.fdb then i.fdbData else existing.fdbData := by
  obtain ⟨lldp, cdp, fdb, vlanMembership⟩ := collected
  cases lldp <;> cases cdp <;> cases fdb <;> cases vlanMembership <;> rfl

theorem vlanData_preserveUncollectedData : (preserveUncollectedData i existing collected).vlanData =
    if collected.vlanMembership then i.vlanData else existing.vlanData := by
  obtain ⟨lldp, cdp, fdb, vlanMembership⟩ := collected
  cases lldp <;> cases cdp <;> cases fdb <;> cases vlanMembership <;> rfl

end SnmpInterface

section Congruence
variable {w w' : Walks}

theorem foldl_rows_congr {M : Type} (f : SnmpColumn → M → List ℕ × SnmpValue → M)
    {columns : List SnmpColumn} (h : ∀ c ∈ columns, (w c).rows = (w' c).rows) (m : M) :
    columns.foldl (fun m c => (w c).rows.foldl (f c) m) m =
      columns.foldl (fun m c => (w' c).rows.foldl (f c) m) m := by
  induction columns generalizing m with
  | nil => rfl
  | cons c columns ih =>
    rw [foldl_cons, foldl_cons, h c mem_cons_self]
    exact ih (fun c' hc' => h c' (mem_cons_of_mem c hc')) _

theorem lldpTable_congr (h : ∀ c ∈ lldpColumns, (w c).rows = (w' c).rows)
    (hman : (w .lldpRemManAddrIfSubtype).rows = (w' .lldpRemManAddrIfSubtype).rows) :
    lldpTable w = lldpTable w' := by
  unfold lldpTable
  rw [hman, foldl_rows_congr readLldpRow h]

theorem cdpTable_congr (h : ∀ c ∈ cdpColumns, (w c).rows = (w' c).rows) :
    cdpTable w = cdpTable w' := foldl_rows_congr _ h _

theorem fdbTable_congr (h : ∀ c ∈ fdbColumns ++ qbridgeFdbColumns, (w c).rows = (w' c).rows) :
    fdbTable w = fdbTable w' := by
  have hlegacy : legacyFdb w = legacyFdb w' :=
    foldl_rows_congr _ (fun c hc => h c (mem_append_left _ hc)) _
  have hqbridge : walkQbridgeFdb w = walkQbridgeFdb w' :=
    foldl_rows_congr _ (fun c hc => h c (mem_append_right _ hc)) _
  unfold fdbTable
  rw [hlegacy, hqbridge]

theorem localPorts_congr (parseMac : String → Option MacAddress)
    (h : ∀ c ∈ lldpLocColumns, (w c).rows = (w' c).rows) :
    (queryLldpLocalPorts parseMac w).records = (queryLldpLocalPorts parseMac w').records := by
  unfold queryLldpLocalPorts SnmpCollection.fromWalk
  dsimp only
  exact foldl_rows_congr _ h _

theorem bridgePorts_congr (h : (w .dot1dBasePortIfIndex).rows = (w' .dot1dBasePortIfIndex).rows) :
    (queryBridgePortMapping w).records = (queryBridgePortMapping w').records := by
  unfold queryBridgePortMapping SnmpCollection.fromWalk
  dsimp only
  rw [h]

theorem ifEntries_congr (h : ∀ c ∈ ifColumns, (w c).rows = (w' c).rows) :
    (walkIfTable w).entries = (walkIfTable w').entries := by
  have hstage : ∀ columns : List SnmpColumn, (∀ c ∈ columns, (w c).rows = (w' c).rows) →
      ∀ s s' : IfTableStage, s.entries = s'.entries → s.knownIfIndexes = s'.knownIfIndexes →
        (columns.foldl (walkColumn w) s).entries =
          (columns.foldl (walkColumn w') s').entries := by
    intro columns hcolumns
    induction columns with
    | nil => exact fun s s' hentries _ => hentries
    | cons c columns ih =>
      intro s s' hentries hknown
      have hrows := hcolumns c mem_cons_self
      refine ih (fun c' hc' => hcolumns c' (mem_cons_of_mem c hc')) _ _ ?_ ?_
      · unfold walkColumn
        dsimp only
        rw [hrows, hentries, hknown]
      · unfold walkColumn
        dsimp only
        rw [hrows, hknown]
  unfold walkIfTable
  dsimp only
  rw [hstage ifColumns h {} {} rfl rfl]

end Congruence

namespace SnmpScan
variable {scan : SnmpScan}
variable {columns : List SnmpColumn} {result : SnmpCollection T} {q : SnmpQuery} {empty : T}
  {T : Type}

theorem of_complete_queryOrDefault (h : (scan.queryOrDefault q empty result).complete = true) :
    scan.queryOrDefault q empty result = result ∧ result.complete = true := by
  unfold queryOrDefault at h ⊢
  split_ifs at h ⊢
  · exact absurd h Bool.false_ne_true
  · exact ⟨rfl, h⟩

theorem queryOrDefault_of_inTime (h : scan.timedOut q = false) :
    scan.queryOrDefault q empty result = result := by
  unfold queryOrDefault
  rw [h]
  rfl

def whole (scan : SnmpScan) (agent : SnmpAgent) (lldpOrder cdpOrder : List (ℤ × ℤ))
    (fdbOrder : List (List ℕ)) (portOrder : List ℤ) : SnmpScan where
  walks := agent.walks
  timedOut _ := false
  lldpOrder := lldpOrder
  cdpOrder := cdpOrder
  fdbOrder := fdbOrder
  portOrder := portOrder
  upsertVlans vlans := (scan.upsertVlans vlans).or
    (some (vlans.foldl (fun ids v => ids.insert v.vlanId Uuid.nil) HashMap.empty))
  newId := scan.newId
  now := scan.now

def Says (scan : SnmpScan) (macText : MacText) (networkId : Uuid) (agent : SnmpAgent) (ifIndex : ℤ)
    {A : Type} (group : SnmpInterface → A) (data : A) : Prop :=
  ∃ full : SnmpScan, full.Untruncated agent ∧ scan.SameServer full ∧
    data = group (full.convert macText networkId (full.records macText) { ifIndex })

variable {agent agent' : SnmpAgent} {macText : MacText} {networkId : Uuid}

theorem namesAll_foldl_insert (vlans : List VlanInfo) (ids : HashMap (BitVec 16) Uuid) :
    NamesAll vlans (vlans.foldl (fun ids v => ids.insert v.vlanId Uuid.nil) ids) ∧
      ∀ n, (ids.get n).isSome = true →
        ((vlans.foldl (fun ids v => ids.insert v.vlanId Uuid.nil) ids).get n).isSome = true := by
  induction vlans generalizing ids with
  | nil => exact ⟨fun _ h => absurd h not_mem_nil, fun _ h => h⟩
  | cons v vlans ih =>
    obtain ⟨hnamed, hkept⟩ := ih (ids.insert v.vlanId Uuid.nil)
    refine ⟨fun v' hv' => ?_, fun n hn => hkept n ?_⟩
    · rcases mem_cons.mp hv' with rfl | hv'
      · refine hkept _ ?_
        rw [HashMap.get_insert, if_pos rfl]
        rfl
      · exact hnamed v' hv'
    · rw [HashMap.get_insert]
      split_ifs
      · rfl
      · exact hn

theorem says_of_whole (hreads : scan.Reads agent') {lldpOrder cdpOrder : List (ℤ × ℤ)} {fdbOrder : List (List ℕ)}
    {portOrder : List ℤ} {ifIndex : ℤ} {A : Type} {group : SnmpInterface → A}
    (hlldp : (lldpTable agent.walks).Enumerates lldpOrder)
    (hcdp : (cdpTable agent.walks).Enumerates cdpOrder)
    (hfdb : (fdbTable agent.walks).Enumerates fdbOrder)
    (hport : (queryBridgePortMapping agent.walks).records.Enumerates portOrder) :
    scan.Says macText networkId agent ifIndex group
      (group ((scan.whole agent lldpOrder cdpOrder fdbOrder portOrder).convert macText networkId
        ((scan.whole agent lldpOrder cdpOrder fdbOrder portOrder).records macText)
          { ifIndex })) := by
  refine ⟨scan.whole agent lldpOrder cdpOrder fdbOrder portOrder, ⟨⟨fun c => prefix_rfl,
    fun c _ => rfl, fun vlans ids h => ?_, hlldp, hcdp, hfdb, hport⟩, fun _ => rfl, fun _ => rfl,
    fun vlans => ?_⟩, fun vlans ids h => ?_, rfl⟩
  · change (scan.upsertVlans vlans).or _ = some ids at h
    cases hsome : scan.upsertVlans vlans with
    | some answer =>
      rw [hsome] at h
      cases h
      exact hreads.server vlans ids hsome
    | none =>
      rw [hsome] at h
      cases h
      exact (namesAll_foldl_insert vlans HashMap.empty).1
  · show ((scan.upsertVlans vlans).or _).isSome = true
    rw [isSome_or, isSome_some, Bool.or_true]
  · show (scan.upsertVlans vlans).or _ = some ids
    rw [h]
    rfl

theorem Reads.rows_eq (hreads : scan.Reads agent)
    (h : ∀ c ∈ columns, (scan.walks c).stop.isComplete = true) :
    ∀ c ∈ columns, (scan.walks c).rows = (agent.walks c).rows :=
  fun c hc => hreads.complete c (h c hc)

theorem complete_start
    (h : (Shortfall.recordAll scan.walks columns {}).complete = true) :
    ∀ c ∈ columns, (scan.walks c).stop.isComplete = true :=
  ((complete_recordAll scan.walks columns {}).mp h).2

theorem bridgePorts_of_complete (hreads : scan.Reads agent)
    (h : scan.bridgePorts.complete = true) :
    scan.bridgePorts.records = (queryBridgePortMapping agent.walks).records := by
  obtain ⟨heq, hcomplete⟩ := of_complete_queryOrDefault h
  have hrows := hreads.rows_eq (complete_start hcomplete)
  unfold bridgePorts
  rw [heq]
  exact bridgePorts_congr (hrows _ (mem_singleton_self _))

/-- The row after both reports of a scan, of which the first one vouches for nothing. -/
def ingest (macText : MacText) (networkId : Uuid) (scan : SnmpScan) (entry : IfTableEntry)
    (stored : SnmpInterface) : SnmpInterface :=
  SnmpInterface.preserveUncollectedData
    (scan.convert macText networkId (scan.records macText) entry)
    (SnmpInterface.preserveUncollectedData (scan.convert macText networkId {} entry) stored
      ⟨false, false, false, false⟩)
    scan.dataComplete

section Groups
variable {full : SnmpScan} {records records' : SnmpRecords} {entry : IfTableEntry}

theorem lldpData_convert (h : records.lldpNeighbors = records'.lldpNeighbors) :
    (scan.convert macText networkId records entry).lldpData =
      (full.convert macText networkId records' { ifIndex := entry.ifIndex }).lldpData := by
  unfold convert convertSnmpIfEntry lldpData
  dsimp only
  rw [h]

theorem lldpNeighbors_congr (hneighbors : full.lldp.records = scan.lldp.records)
    (h : scan.lldp.records ≠ [] → (∀ q, q = .lldpLocalPorts ∨ q = .ifTable →
        scan.timedOut q = false ∧ full.timedOut q = false) ∧
      ∀ c ∈ lldpLocColumns ++ ifColumns, (scan.walks c).rows = (full.walks c).rows) :
    (scan.records macText).lldpNeighbors = (full.records macText).lldpNeighbors := by
  show remapLldpLocalPorts _ _ _ = remapLldpLocalPorts _ _ _
  unfold lldpLocalPorts
  rw [hneighbors]
  split_ifs with hempty
  · rfl
  · obtain ⟨hinTime, hrows⟩ := h fun h => hempty (List.isEmpty_iff.mpr h)
    obtain ⟨hports, hports'⟩ := hinTime .lldpLocalPorts (.inl rfl)
    obtain ⟨hentries, hentries'⟩ := hinTime .ifTable (.inr rfl)
    unfold ifTable
    rw [queryOrDefault_of_inTime hports, queryOrDefault_of_inTime hports', hentries, hentries',
      localPorts_congr macText.parse fun c hc => hrows c (mem_append_left _ hc)]
    simp only [false_eq_true, if_false]
    rw [ifEntries_congr fun c hc => hrows c (mem_append_right _ hc)]

theorem cdpData_convert (h : records.cdpNeighbors = records'.cdpNeighbors) :
    (scan.convert macText networkId records entry).cdpData =
      (full.convert macText networkId records' { ifIndex := entry.ifIndex }).cdpData := by
  unfold convert convertSnmpIfEntry cdpData
  dsimp only
  rw [h]

theorem fdbData_convert (h : records.bridgeFdb = records'.bridgeFdb) :
    (scan.convert macText networkId records entry).fdbData =
      (full.convert macText networkId records' { ifIndex := entry.ifIndex }).fdbData := by
  unfold convert convertSnmpIfEntry fdbData
  dsimp only
  rw [h]

theorem vlanData_convert (h : records.portVlanMembership = records'.portVlanMembership)
    (hids : records.vlanNumberToUuid = records'.vlanNumberToUuid) :
    (scan.convert macText networkId records entry).vlanData =
      (full.convert macText networkId records' { ifIndex := entry.ifIndex }).vlanData := by
  unfold convert convertSnmpIfEntry vlanData
  dsimp only
  rw [h, hids]

end Groups

theorem exists_orders (agent : SnmpAgent) : ∃ lldpOrder cdpOrder fdbOrder portOrder,
    (lldpTable agent.walks).Enumerates lldpOrder ∧ (cdpTable agent.walks).Enumerates cdpOrder ∧
      (fdbTable agent.walks).Enumerates fdbOrder ∧
      (queryBridgePortMapping agent.walks).records.Enumerates portOrder := by
  obtain ⟨lldpOrder, hlldp⟩ := (lldpTable agent.walks).exists_enumerates
  obtain ⟨cdpOrder, hcdp⟩ := (cdpTable agent.walks).exists_enumerates
  obtain ⟨fdbOrder, hfdb⟩ := (fdbTable agent.walks).exists_enumerates
  obtain ⟨portOrder, hport⟩ := (queryBridgePortMapping agent.walks).records.exists_enumerates
  exact ⟨lldpOrder, cdpOrder, fdbOrder, portOrder, hlldp, hcdp, hfdb, hport⟩

structure VlansNamed (scan : SnmpScan) : Prop where
  inTime : scan.timedOut .vlanTable = false
  names : (scan.walks .dot1qVlanStaticName).stop.isComplete = true
  fallback : readVlanNames (scan.walks .dot1qVlanStaticName).rows = [] →
    (scan.walks .vtpVlanName).stop.isComplete = true
  accepted : scan.vlanTable.records ≠ [] →
    (scan.upsertVlans scan.vlanTable.records).isSome = true

def PortsPlaced (scan : SnmpScan) : Prop :=
  scan.lldp.records ≠ [] → scan.timedOut .lldpLocalPorts = false ∧
    ∀ c ∈ lldpLocColumns ++ ifColumns, (scan.walks c).stop.isComplete = true

theorem vlanTable_of_named (hreads : scan.Reads agent) (hnamed : scan.VlansNamed) :
    scan.vlanTable.records = (queryVlanTable agent.walks).records := by
  unfold vlanTable
  rw [queryOrDefault_of_inTime hnamed.inTime]
  have hnames : (scan.walks .dot1qVlanStaticName).rows = (agent.walks .dot1qVlanStaticName).rows :=
    hreads.complete _ hnamed.names
  unfold queryVlanTable
  dsimp only
  rw [← hnames]
  split_ifs with hempty
  · have hfallback : (scan.walks .vtpVlanName).rows = (agent.walks .vtpVlanName).rows :=
      hreads.complete _ (hnamed.fallback (List.isEmpty_iff.mp hempty))
    show readVlanNames (scan.walks .vtpVlanName).rows = _
    rw [hfallback]
    rfl
  · rfl

theorem vlanNumberToUuid_of_named (hreads : scan.Reads agent) (hnamed : scan.VlansNamed)
    (lldpOrder cdpOrder : List (ℤ × ℤ)) (fdbOrder : List (List ℕ)) (portOrder : List ℤ) :
    scan.vlanNumberToUuid =
      (scan.whole agent lldpOrder cdpOrder fdbOrder portOrder).vlanNumberToUuid := by
  have htable : (scan.whole agent lldpOrder cdpOrder fdbOrder portOrder).vlanTable.records =
      scan.vlanTable.records := (vlanTable_of_named hreads hnamed).symm
  unfold vlanNumberToUuid
  rw [htable]
  split_ifs with hempty
  · rfl
  · have haccepted := hnamed.accepted (fun h => hempty (List.isEmpty_iff.mpr h))
    obtain ⟨ids, hids⟩ := isSome_iff_exists.mp haccepted
    show _ = ((scan.upsertVlans _).or _).getD HashMap.empty
    rw [hids]
    rfl

section Ingested
variable (hreads : scan.Reads agent) (entry : IfTableEntry) (stored : SnmpInterface)
include hreads

theorem cdp_collected_or_stored :
    (ingest macText networkId scan entry stored).cdpData = stored.cdpData ∨
      scan.Says macText networkId agent entry.ifIndex SnmpInterface.cdpData
        (ingest macText networkId scan entry stored).cdpData := by
  unfold ingest
  rw [cdpData_preserveUncollectedData, cdpData_preserveUncollectedData]
  cases hflag : scan.dataComplete.cdp with
  | false => exact .inl rfl
  | true =>
    have hcomplete : scan.cdp.complete = true := hflag
    obtain ⟨heq, hquery⟩ := of_complete_queryOrDefault hcomplete
    obtain ⟨hwalked, -⟩ := and_eq_true_iff.mp hquery
    have htable := cdpTable_congr (hreads.rows_eq (complete_start hwalked))
    obtain ⟨lldpOrder, -, fdbOrder, portOrder, hlldp, -, hfdb, hport⟩ := exists_orders agent
    have hcdp := hreads.cdpOrder
    rw [htable] at hcdp
    have hrecords : (scan.records macText).cdpNeighbors =
        ((scan.whole agent lldpOrder scan.cdpOrder fdbOrder portOrder).records
          macText).cdpNeighbors := by
      show scan.cdp.records = _
      unfold cdp
      rw [heq]
      unfold queryCdpNeighbors
      dsimp only
      rw [htable]
      rfl
    right
    rw [if_pos rfl, cdpData_convert hrecords]
    exact says_of_whole hreads hlldp hcdp hfdb hport

theorem fdb_collected_or_stored :
    (ingest macText networkId scan entry stored).fdbData = stored.fdbData ∨
      scan.Says macText networkId agent entry.ifIndex SnmpInterface.fdbData
        (ingest macText networkId scan entry stored).fdbData := by
  unfold ingest
  rw [fdbData_preserveUncollectedData, fdbData_preserveUncollectedData]
  cases hflag : scan.dataComplete.fdb with
  | false => exact .inl rfl
  | true =>
    have hcomplete : scan.bridgeFdb.complete = true := hflag
    obtain ⟨heq, hquery⟩ := of_complete_queryOrDefault hcomplete
    obtain ⟨hlegacy, hqbridge⟩ := and_eq_true_iff.mp hquery
    obtain ⟨hbridge, hlegacy⟩ := (complete_recordAll _ _ _).mp hlegacy
    have hports := bridgePorts_of_complete hreads hbridge
    have hwalked : ∀ c ∈ fdbColumns ++ qbridgeFdbColumns,
        (scan.walks c).stop.isComplete = true := by
      intro c hc
      rcases mem_append.mp hc with hc | hc
      · exact hlegacy c hc
      · exact complete_start hqbridge c hc
    have htable := fdbTable_congr (hreads.rows_eq hwalked)
    obtain ⟨lldpOrder, cdpOrder, -, portOrder, hlldp, hcdp, -, hport⟩ := exists_orders agent
    have hfdb := hreads.fdbOrder
    rw [htable] at hfdb
    have hrecords : (scan.records macText).bridgeFdb =
        ((scan.whole agent lldpOrder cdpOrder scan.fdbOrder portOrder).records
          macText).bridgeFdb := by
      show scan.bridgeFdb.records = _
      unfold bridgeFdb
      rw [heq]
      show ((fdbTable scan.walks).iterate scan.fdbOrder).filterMap _ = _
      rw [htable, hports]
      rfl
    right
    rw [if_pos rfl, fdbData_convert hrecords]
    exact says_of_whole hreads hlldp hcdp hfdb hport

theorem vlan_collected_or_stored (hnamed : scan.VlansNamed) :
    (ingest macText networkId scan entry stored).vlanData = stored.vlanData ∨
      scan.Says macText networkId agent entry.ifIndex SnmpInterface.vlanData
        (ingest macText networkId scan entry stored).vlanData := by
  unfold ingest
  rw [vlanData_preserveUncollectedData,
    vlanData_preserveUncollectedData]
  cases hflag : scan.dataComplete.vlanMembership with
  | false => exact .inl rfl
  | true =>
    have hcomplete : scan.portVlanMembership.complete = true := hflag
    obtain ⟨heq, hquery⟩ := of_complete_queryOrDefault hcomplete
    obtain ⟨lldpOrder, cdpOrder, fdbOrder, -, hlldp, hcdp, hfdb, -⟩ := exists_orders agent
    have hbridge : scan.bridgePorts.complete = true := by
      unfold queryPortVlanMembership at hquery
      dsimp only at hquery
      split_ifs at hquery
      · exact hquery
      · exact ((complete_recordAll _ _ _).mp hquery).1
    have hports := bridgePorts_of_complete hreads hbridge
    have hport := hreads.portOrder
    rw [hports] at hport
    have hrecords : (scan.records macText).portVlanMembership =
        ((scan.whole agent lldpOrder cdpOrder fdbOrder scan.portOrder).records
          macText).portVlanMembership := by
      show scan.portVlanMembership.records =
        (queryPortVlanMembership agent.walks (queryBridgePortMapping agent.walks)
          scan.portOrder).records
      unfold portVlanMembership
      rw [heq]
      unfold queryPortVlanMembership at hquery ⊢
      dsimp only at hquery ⊢
      rw [hports] at hquery ⊢
      split_ifs at hquery ⊢
      · rfl
      · have hrows := hreads.rows_eq ((complete_recordAll _ _ _).mp hquery).2
        have hpvid := hrows .dot1qPvid (by decide)
        have hegress := hrows .dot1qVlanCurrentEgressPorts (by decide)
        have huntagged := hrows .dot1qVlanCurrentUntaggedPorts (by decide)
        unfold SnmpCollection.fromWalk
        dsimp only
        rw [hpvid, hegress, huntagged]
    have hids : (scan.records macText).vlanNumberToUuid =
        ((scan.whole agent lldpOrder cdpOrder fdbOrder scan.portOrder).records
          macText).vlanNumberToUuid :=
      vlanNumberToUuid_of_named hreads hnamed lldpOrder cdpOrder fdbOrder scan.portOrder
    right
    rw [if_pos rfl, vlanData_convert hrecords hids]
    exact says_of_whole hreads hlldp hcdp hfdb hport

theorem rows_eq_withManAddrs {columns : List SnmpColumn}
    (h : ∀ c ∈ columns, (scan.walks c).stop.isComplete = true)
    (hman : .lldpRemManAddrIfSubtype ∉ columns) (rows : List (List ℕ × SnmpValue)) :
    ∀ c ∈ columns, (scan.walks c).rows = ((agent.withManAddrs rows).walks c).rows := by
  intro c hc
  have hne : c ≠ .lldpRemManAddrIfSubtype := by
    rintro rfl
    exact hman hc
  refine (hreads.rows_eq h c hc).trans ?_
  show agent.rows c = if c = .lldpRemManAddrIfSubtype then rows else agent.rows c
  rw [if_neg hne]

theorem lldp_collected_or_stored (hentry : entry ∈ scan.ifTable.entries)
    (hplaced : scan.PortsPlaced) :
    (ingest macText networkId scan entry stored).lldpData = stored.lldpData ∨
      scan.Says macText networkId
        (agent.withManAddrs (scan.walks .lldpRemManAddrIfSubtype).rows) entry.ifIndex
        SnmpInterface.lldpData (ingest macText networkId scan entry stored).lldpData := by
  unfold ingest
  rw [lldpData_preserveUncollectedData,
    lldpData_preserveUncollectedData]
  cases hflag : scan.dataComplete.lldp with
  | false => exact .inl rfl
  | true =>
    obtain ⟨hcomplete, -⟩ := and_eq_true_iff.mp hflag
    obtain ⟨heq, hquery⟩ := of_complete_queryOrDefault hcomplete
    obtain ⟨hwalked, -⟩ := and_eq_true_iff.mp hquery
    set read := agent.withManAddrs (scan.walks .lldpRemManAddrIfSubtype).rows with hread
    have htable : lldpTable scan.walks = lldpTable read.walks := by
      refine lldpTable_congr ?_ rfl
      exact rows_eq_withManAddrs hreads (complete_start hwalked) (by decide) _
    obtain ⟨-, cdpOrder, fdbOrder, portOrder, -, hcdp, hfdb, hport⟩ := exists_orders read
    have hlldp := hreads.lldpOrder
    rw [htable] at hlldp
    set full := scan.whole read scan.lldpOrder cdpOrder fdbOrder portOrder with hfull
    have hneighbors : full.lldp.records = scan.lldp.records := by
      unfold lldp
      rw [heq]
      unfold queryLldpNeighbors
      dsimp only
      rw [htable]
      rfl
    have hrecords : (scan.records macText).lldpNeighbors =
        (full.records macText).lldpNeighbors := by
      refine lldpNeighbors_congr hneighbors fun hne => ?_
      obtain ⟨hinTime, hwhole⟩ := hplaced hne
      have hifTable : scan.timedOut .ifTable = false := by
        unfold ifTable at hentry
        split_ifs at hentry with htimedOut
        · exact absurd hentry not_mem_nil
        · exact not_eq_true _ ▸ htimedOut
      refine ⟨fun q hq => ?_, rows_eq_withManAddrs hreads hwhole (by decide) _⟩
      rcases hq with rfl | rfl
      · exact ⟨hinTime, rfl⟩
      · exact ⟨hifTable, rfl⟩
    right
    rw [if_pos rfl, lldpData_convert hrecords]
    exact says_of_whole hreads hlldp hcdp hfdb hport

end Ingested

/-- However a scan of the device is cut short, each group of a stored interface is after both of its
reports what it was before or what the tables of the device say: always for CDP and the addresses of
the bridge; for the VLANs if their names are read and taken; for LLDP if the tables that place the
neighbours are read, with the management addresses that have been read so far. -/
theorem collected_or_stored (macText : MacText) (networkId : Uuid) (scan : SnmpScan)
    (agent : SnmpAgent) (hreads : scan.Reads agent) (entry : IfTableEntry)
    (hentry : entry ∈ scan.ifTable.entries) (stored : SnmpInterface) :
    ((ingest macText networkId scan entry stored).cdpData = stored.cdpData ∨
      scan.Says macText networkId agent entry.ifIndex SnmpInterface.cdpData
        (ingest macText networkId scan entry stored).cdpData) ∧
    ((ingest macText networkId scan entry stored).fdbData = stored.fdbData ∨
      scan.Says macText networkId agent entry.ifIndex SnmpInterface.fdbData
        (ingest macText networkId scan entry stored).fdbData) ∧
    (scan.VlansNamed → (ingest macText networkId scan entry stored).vlanData = stored.vlanData ∨
      scan.Says macText networkId agent entry.ifIndex SnmpInterface.vlanData
        (ingest macText networkId scan entry stored).vlanData) ∧
    (scan.PortsPlaced → (ingest macText networkId scan entry stored).lldpData = stored.lldpData ∨
      scan.Says macText networkId
        (agent.withManAddrs (scan.walks .lldpRemManAddrIfSubtype).rows) entry.ifIndex
        SnmpInterface.lldpData (ingest macText networkId scan entry stored).lldpData) ∧
    ((scan.walks .lldpRemManAddrIfSubtype).stop.isComplete = true →
      agent.withManAddrs (scan.walks .lldpRemManAddrIfSubtype).rows = agent) := by
  refine ⟨cdp_collected_or_stored hreads entry stored, fdb_collected_or_stored hreads entry stored,
    vlan_collected_or_stored hreads entry stored,
    lldp_collected_or_stored hreads entry stored hentry, fun hcomplete => ?_⟩
  have hrows : (agent.withManAddrs (scan.walks .lldpRemManAddrIfSubtype).rows).rows =
      agent.rows := by
    funext c
    show (if c = .lldpRemManAddrIfSubtype then _ else agent.rows c) = agent.rows c
    split_ifs with hc
    · rw [hc]
      exact hreads.complete _ hcomplete
    · rfl
  exact congrArg SnmpAgent.mk hrows

def uplinkAgent : SnmpAgent where
  rows
    | .ifIndex => [([2], .integer 2)]
    | .lldpRemChassisIdSubtype => [([0, 2, 1], .integer 7)]
    | .lldpRemChassisId => [([0, 2, 1], .octetString [0x73, 0x77])]
    | .lldpRemManAddrIfSubtype => [([0, 2, 1, 1, 4, 10, 0, 0, 1], .integer 2)]
    | _ => []

def cutScan : SnmpScan where
  walks c := if c = .lldpRemManAddrIfSubtype then ⟨[], .transport⟩ else uplinkAgent.walks c
  timedOut _ := false
  lldpOrder := [(2, 1)]
  cdpOrder := []
  fdbOrder := []
  portOrder := []
  upsertVlans _ := none
  newId _ := 1
  now := 9

theorem reads_cutScan : cutScan.Reads uplinkAgent where
  rows c := by cases c <;> decide
  complete c := by cases c <;> decide
  server _ _ h := absurd h nofun
  lldpOrder := by decide +kernel
  cdpOrder := by decide +kernel
  fdbOrder := by decide +kernel
  portOrder := by decide +kernel

def uplinkMacText : MacText := ⟨fun _ => none, fun _ => ""⟩

def uplinkStored : SnmpInterface :=
  (cutScan.whole uplinkAgent [(2, 1)] [] [] []).convert uplinkMacText Uuid.nil
    ((cutScan.whole uplinkAgent [(2, 1)] [] [] []).records uplinkMacText) { ifIndex := 2 }

theorem collected_or_stored_cutScan :
    cutScan.Reads uplinkAgent ∧ cutScan.VlansNamed ∧ cutScan.PortsPlaced ∧
      ((ingest uplinkMacText Uuid.nil cutScan { ifIndex := 2 } uplinkStored).lldpData =
          uplinkStored.lldpData ∨
        cutScan.Says uplinkMacText Uuid.nil (uplinkAgent.withManAddrs []) 2 SnmpInterface.lldpData
          (ingest uplinkMacText Uuid.nil cutScan { ifIndex := 2 } uplinkStored).lldpData) := by
  have hnamed : cutScan.VlansNamed :=
    ⟨rfl, by decide, fun _ => by decide, fun h => absurd (by decide +kernel) h⟩
  have hplaced : cutScan.PortsPlaced := fun _ => by decide
  obtain ⟨-, -, -, hlldp, -⟩ := collected_or_stored uplinkMacText Uuid.nil cutScan uplinkAgent
    reads_cutScan { ifIndex := 2 } (by decide +kernel) uplinkStored
  exact ⟨reads_cutScan, hnamed, hplaced, hlldp hplaced⟩

theorem lldpMgmtAddr_of_untruncated {full : SnmpScan} (h : full.Untruncated uplinkAgent) :
    (full.convert uplinkMacText Uuid.nil (full.records uplinkMacText)
      { ifIndex := 2 }).lldpData.2.2.2.2.1 = some (ipv4OfBytes [10, 0, 0, 1]) := by
  have hrows : ∀ c, (full.walks c).rows = (uplinkAgent.walks c).rows :=
    fun c => h.complete c (h.ends c)
  have htable : lldpTable full.walks = lldpTable uplinkAgent.walks :=
    lldpTable_congr (fun c _ => hrows c) (hrows _)
  have horder : full.lldpOrder = [(2, 1)] := by
    have henumerates := h.lldpOrder
    rw [htable] at henumerates
    have hkeys : (lldpTable uplinkAgent.walks).Enumerates [(2, 1)] := by decide +kernel
    exact perm_singleton.mp (henumerates.perm hkeys)
  have hneighbors : (cutScan.whole uplinkAgent [(2, 1)] [] [] []).lldp.records =
      full.lldp.records := by
    unfold lldp
    rw [queryOrDefault_of_inTime (h.inTime _), queryOrDefault_of_inTime rfl]
    unfold queryLldpNeighbors
    dsimp only
    rw [htable, horder]
    rfl
  have hrecords : (full.records uplinkMacText).lldpNeighbors =
      ((cutScan.whole uplinkAgent [(2, 1)] [] [] []).records uplinkMacText).lldpNeighbors :=
    lldpNeighbors_congr hneighbors fun _ =>
      ⟨fun q _ => ⟨h.inTime q, rfl⟩, fun c _ => hrows c⟩
  have hdata : (full.convert uplinkMacText Uuid.nil (full.records uplinkMacText)
      { ifIndex := 2 }).lldpData = uplinkStored.lldpData := lldpData_convert hrecords
  rw [hdata]
  decide +kernel

/-- The management address is lost if only the walk of these addresses is cut short. -/
theorem not_collected_or_stored : ¬ ∀ (macText : MacText) (networkId : Uuid) (scan : SnmpScan)
    (agent : SnmpAgent), scan.Reads agent → ∀ entry ∈ scan.ifTable.entries,
    ∀ stored : SnmpInterface,
    ((ingest macText networkId scan entry stored).lldpData = stored.lldpData ∨
      scan.Says macText networkId agent entry.ifIndex SnmpInterface.lldpData
        (ingest macText networkId scan entry stored).lldpData) ∧
    ((ingest macText networkId scan entry stored).cdpData = stored.cdpData ∨
      scan.Says macText networkId agent entry.ifIndex SnmpInterface.cdpData
        (ingest macText networkId scan entry stored).cdpData) ∧
    ((ingest macText networkId scan entry stored).fdbData = stored.fdbData ∨
      scan.Says macText networkId agent entry.ifIndex SnmpInterface.fdbData
        (ingest macText networkId scan entry stored).fdbData) ∧
    ((ingest macText networkId scan entry stored).vlanData = stored.vlanData ∨
      scan.Says macText networkId agent entry.ifIndex SnmpInterface.vlanData
        (ingest macText networkId scan entry stored).vlanData) := by
  intro h
  rcases (h uplinkMacText Uuid.nil cutScan uplinkAgent reads_cutScan { ifIndex := 2 }
    (by decide +kernel) uplinkStored).1 with hstored | ⟨full, hfull, -, hsays⟩
  · exact absurd hstored (by decide +kernel)
  · have haddr := congrArg (fun d => d.2.2.2.2.1) hsays
    rw [lldpMgmtAddr_of_untruncated hfull] at haddr
    exact absurd haddr (by decide +kernel)

end SnmpScan

end Scanopy
