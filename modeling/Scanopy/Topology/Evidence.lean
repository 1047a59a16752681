import Scanopy.Topology.Idempotence

/-! Whether the neighbour of a port follows what the port reports. A complete scan replaces the
reported data but keeps the stored neighbour, which the passes take for the verdict on the device.
-/

namespace Scanopy
open List Option Lookup SnmpInterface InterfaceTable

namespace NetworkInventory

structure IsReport (entry : SnmpInterface) : Prop where
  live : entry.isLive = true
  no_neighbor : entry.base.neighbor = none
  no_address : entry.base.ipAddressId = none

def NamesNoNeighbor (i : SnmpInterface) : Prop :=
  i.base.lldpChassisId = none ∧ i.base.cdpDeviceId = none ∧
    ∀ mac, i.base.fdbMacs ≠ some [mac]

def NeighborOn (inv : NetworkInventory) (hostId : Uuid) : Neighbor → Prop
  | .host id => id = hostId
  | .interface id => inv.PortOn hostId id

def neighborOf (inv : NetworkInventory) (id : Uuid) : Option Neighbor :=
  (inv.interfaces.find id).bind (·.base.neighbor)

/-- `create_or_update_from_discovery` on the table of interfaces. -/
def ingest (inv : NetworkInventory) (env : IngestEnv) (entry : SnmpInterface)
    (claimed : List Uuid) (collected : InterfaceDataComplete) :
    Option (NetworkInventory × SnmpInterface) :=
  (InterfaceTable.createOrUpdateFromDiscovery inv.interfaces env entry claimed collected).map
    fun (interfaces, row) => ({ inv with interfaces := interfaces }, row)

section ParseMac
variable (parseMac : String → Option MacAddress)

def evidenceHost (inv : NetworkInventory) (i : SnmpInterface) : Option Uuid :=
  match i.base.lldpChassisId, i.base.cdpDeviceId, i.base.fdbMacs with
  | some chassisId, _, _ =>
    (inv.resolveHostId parseMac chassisId i.base.networkId i.base.lldpSysName).id?
  | none, some deviceId, _ => inv.findHostBySysName deviceId i.base.networkId
  | none, none, some [mac] => inv.findHostByMac parseMac mac i.base.networkId
  | none, none, _ => none

/-- The two passes that follow a scan. -/
def resolveLinks (inv : NetworkInventory) (networkId : Uuid) : NetworkInventory :=
  (inv.resolveLldpLinks parseMac networkId).resolveFdbLinks parseMac networkId

def FollowsEvidence (inv : NetworkInventory) (entry : SnmpInterface)
    (neighbor : Option Neighbor) : Prop :=
  (NamesNoNeighbor entry → neighbor = none) ∧
    ∀ hostId, inv.evidenceHost parseMac entry = some hostId →
      ∃ n, neighbor = some n ∧ inv.NeighborOn hostId n

end ParseMac

section PortOn
variable {inv inv' : NetworkInventory} {hostId hostId' id : Uuid}

theorem PortOn.host_unique (h : inv.PortOn hostId id) (h' : inv.PortOn hostId' id) :
    hostId = hostId' := by
  obtain ⟨i, hi, -, rfl, rfl⟩ := h
  obtain ⟨j, hj, -, rfl, hid⟩ := h'
  rw [inv.interfaces.eq_of_key hi hj hid.symm]

theorem portOn_forget : inv.forgetNeighbors.PortOn hostId id ↔ inv.PortOn hostId id := by
  constructor
  · rintro ⟨j, hj, hlive, hhost, hid⟩
    obtain ⟨i, hi, rfl⟩ := List.mem_map.mp hj
    exact ⟨i, hi, hlive, hhost, hid⟩
  · rintro ⟨i, hi, hlive, hhost, hid⟩
    exact ⟨_, List.mem_map_of_mem hi, hlive, hhost, hid⟩

theorem neighborOn_of_forget (h : inv.forgetNeighbors = inv'.forgetNeighbors) (n : Neighbor) :
    inv.NeighborOn hostId n ↔ inv'.NeighborOn hostId n := by
  cases n with
  | host id => exact Iff.rfl
  | interface id =>
    show inv.PortOn hostId id ↔ inv'.PortOn hostId id
    rw [← portOn_forget, h, portOn_forget]

theorem evidenceHost_forget (parseMac : String → Option MacAddress) (inv : NetworkInventory)
    (i : SnmpInterface) :
    inv.forgetNeighbors.evidenceHost parseMac i = inv.evidenceHost parseMac i := by
  unfold evidenceHost
  simp only [resolveHostId_forget, findHostByMac_forget]
  rfl

end PortOn

section Passes
variable {inv : NetworkInventory} {parseMac : String → Option MacAddress} {networkId : Uuid}
  {i : SnmpInterface}
variable {n : Neighbor} {hostId hostId' : Uuid}

theorem neighborOn_iff_of_verdict
    (hneighbor : i.base.neighbor = some n)
    (hverdict : inv.deviceVerdict parseMac networkId i = .resolved hostId) :
    inv.NeighborOn hostId' n ↔ hostId = hostId' := by
  cases n with
  | host id =>
    rw [deviceVerdict_of_host inv parseMac networkId hneighbor] at hverdict
    cases hverdict
    exact Iff.rfl
  | interface id =>
    rw [deviceVerdict_of_bound inv parseMac networkId hneighbor] at hverdict
    obtain ⟨bound, hbound, rfl⟩ := map_eq_some_iff.mp (eq_some_of_found hverdict)
    have hfound := find?_some hbound
    rw [Bool.and_eq_true, decide_eq_true_eq] at hfound
    have hport : inv.PortOn bound.base.hostId id :=
      ⟨bound, mem_of_find?_eq_some hbound, hfound.1, rfl, hfound.2⟩
    constructor
    · exact fun h => hport.host_unique h
    · rintro rfl
      exact hport

theorem neighborOn_tierResult (hlocal : inv.AddressLinksLocal) :
    inv.NeighborOn hostId'
        (inv.tierResult parseMac (inv.reciprocal parseMac networkId i) i hostId) ↔
      hostId = hostId' := by
  have hbound : ∀ {id}, inv.PortOn hostId id →
      (inv.NeighborOn hostId' (.interface id) ↔ hostId = hostId') := by
    intro id hport
    constructor
    · exact fun h => hport.host_unique h
    · rintro rfl
      exact hport
  obtain ⟨id, hadv, hres⟩ | ⟨id, hpair, hres⟩ | hres :=
    tierResult_cases inv parseMac (inv.reciprocal parseMac networkId i) i hostId
  · rw [hres, hbound (portOn_of_advertisedPort hlocal hadv)]
  · rw [hres, hbound (reciprocal_eq_some hpair).2]
  · rw [hres]
    exact Iff.rfl

theorem lldpNeighbor_of_stored (parseMac : String → Option MacAddress) (networkId : Uuid)
    (hlocal : inv.AddressLinksLocal) (hneighbor : i.base.neighbor = some n) :
    ∃ m, inv.lldpNeighbor parseMac networkId i = some m ∧
      ∀ hostId, inv.NeighborOn hostId m ↔ inv.NeighborOn hostId n := by
  obtain hsame | ⟨id, hostId, hpair, heq⟩ | ⟨hostId, hverdict, -, heq⟩ |
    ⟨hostId, hverdict, -, heq, -⟩ := lldpNeighbor_cases inv parseMac networkId i
  · exact ⟨n, hsame.trans hneighbor, fun _ => Iff.rfl⟩
  · obtain ⟨hverdict, hport⟩ := reciprocal_eq_some hpair
    refine ⟨.interface id, heq, fun hostId' => ?_⟩
    rw [neighborOn_iff_of_verdict hneighbor hverdict]
    constructor
    · exact fun h => hport.host_unique h
    · rintro rfl
      exact hport
  · refine ⟨.host hostId, heq, fun hostId' => ?_⟩
    rw [neighborOn_iff_of_verdict hneighbor hverdict]
    exact Iff.rfl
  · refine ⟨_, heq, fun hostId' => ?_⟩
    rw [neighborOn_tierResult hlocal, neighborOn_iff_of_verdict hneighbor hverdict]

theorem forgetNeighbors_resolveLinks :
    (inv.resolveLinks parseMac networkId).forgetNeighbors = inv.forgetNeighbors := by
  unfold resolveLinks
  rw [resolveFdbLinks_eq_runPass, forgetNeighbors_runPass fun inv' i =>
    fdbNeighbor_forget inv' parseMac networkId i, forgetNeighbors_resolveLldpLinks]

theorem neighborOf_of_mem {j : SnmpInterface} (hj : j ∈ inv.interfaces) :
    inv.neighborOf j.id = j.base.neighbor := by
  unfold neighborOf
  rw [Table.find_eq_some.mpr ⟨hj, rfl⟩, bind_some]

theorem neighborOf_resolveLinks (hi : i ∈ inv.interfaces) :
    (inv.resolveLinks parseMac networkId).neighborOf i.id =
      (afterPass (hasUnresolvedFdb networkId) (inv.fdbNeighbor parseMac networkId)
        (inv.afterLldp parseMac networkId i)).base.neighbor := by
  have hfdb : (inv.resolveLldpLinks parseMac networkId).fdbNeighbor parseMac networkId =
      inv.fdbNeighbor parseMac networkId := by
    funext j
    rw [← fdbNeighbor_forget, forgetNeighbors_resolveLldpLinks, fdbNeighbor_forget]
  have hmem : afterPass (hasUnresolvedFdb networkId) (inv.fdbNeighbor parseMac networkId)
      (inv.afterLldp parseMac networkId i) ∈
        (inv.resolveLinks parseMac networkId).interfaces := by
    show _ ∈ (resolveFdbLinks _ _ _).interfaces.rows
    rw [rows_resolveFdbLinks, hfdb, rows_resolveLldpLinks]
    exact List.mem_map_of_mem (List.mem_map_of_mem hi)
  have hid : (afterPass (hasUnresolvedFdb networkId) (inv.fdbNeighbor parseMac networkId)
      (inv.afterLldp parseMac networkId i)).id = i.id :=
    (id_afterPass _ _ _).trans (id_afterPass _ _ i)
  rw [← hid, neighborOf_of_mem hmem]

theorem afterFdb_of_not (h : i.base.neighbor.isSome = true ∨ hasProtocolIdentity i = true) :
    afterPass (hasUnresolvedFdb networkId) (inv.fdbNeighbor parseMac networkId) i = i := by
  refine if_neg ?_
  intro hsel
  simp only [hasUnresolvedFdb, Bool.and_eq_true, isNone_iff_eq_none] at hsel
  obtain hsome | hidentity := h
  · rw [hsel.1.1.2] at hsome
    cases hsome
  · unfold hasProtocolIdentity at hidentity
    rw [hsel.1.2, hsel.2] at hidentity
    cases hidentity

theorem hasProtocolIdentity_afterLldp :
    hasProtocolIdentity (inv.afterLldp parseMac networkId i) = hasProtocolIdentity i := by
  cases hnames : namesNeighbor networkId i with
  | false => rw [afterLldp_of_not_names hnames]
  | true =>
    rw [afterLldp_of_names hnames]
    rfl

theorem namesNeighbor_of_identity (hlive : i.isLive = true) (hnetwork : i.base.networkId = networkId)
    (h : hasProtocolIdentity i = true ∨ i.base.neighbor.isSome = true) :
    namesNeighbor networkId i = true := by
  unfold namesNeighbor
  unfold hasProtocolIdentity at h
  rw [hlive, hnetwork]
  rw [Bool.or_eq_true] at h
  simp only [Bool.true_and, decide_true, Bool.or_eq_true]
  tauto

theorem neighborOf_resolveLinks_of_stored (parseMac : String → Option MacAddress)
    (hlocal : inv.AddressLinksLocal) (hi : i ∈ inv.interfaces) (hlive : i.isLive = true)
    (hnetwork : i.base.networkId = networkId) (hneighbor : i.base.neighbor = some n) :
    ∃ m, (inv.resolveLinks parseMac networkId).neighborOf i.id = some m ∧
      ∀ hostId, inv.NeighborOn hostId m ↔ inv.NeighborOn hostId n := by
  have hnames : namesNeighbor networkId i = true :=
    namesNeighbor_of_identity hlive hnetwork (.inr (by rw [hneighbor]; rfl))
  obtain ⟨m, hm, hsame⟩ := lldpNeighbor_of_stored parseMac networkId hlocal hneighbor
  refine ⟨m, ?_, hsame⟩
  rw [neighborOf_resolveLinks hi, afterLldp_of_names hnames, hm]
  rw [afterFdb_of_not (.inl rfl)]
  rfl

theorem evidenceHost_of_identity (hidentity : hasProtocolIdentity i = true)
    (hneighbor : i.base.neighbor = none) :
    inv.evidenceHost parseMac i = (inv.deviceVerdict parseMac i.base.networkId i).id? := by
  unfold hasProtocolIdentity at hidentity
  unfold evidenceHost deviceVerdict
  rw [hneighbor]
  cases hchassis : i.base.lldpChassisId with
  | some chassisId => rfl
  | none =>
    cases hdevice : i.base.cdpDeviceId with
    | none =>
      rw [hchassis, hdevice] at hidentity
      cases hidentity
    | some deviceId =>
      show inv.findHostBySysName deviceId i.base.networkId =
        (IdentityResolution.found (inv.findHostBySysName deviceId i.base.networkId)).id?
      cases inv.findHostBySysName deviceId i.base.networkId with
      | none => rfl
      | some hostId => rfl

theorem eq_resolved_of_id? {r : IdentityResolution} {id : Uuid} (h : r.id? = some id) :
    r = .resolved id := by
  cases r with
  | resolved id' => exact congrArg _ (some.inj h)
  | noStrategy | notFound | ambiguous => cases h

theorem neighborOn_recordPort {port : IdentityResolution}
    (hport : ∀ id, port = .resolved id → inv.PortOn hostId id) :
    inv.NeighborOn hostId (recordPort port hostId) := by
  cases port with
  | resolved id => exact hport id rfl
  | noStrategy | notFound | ambiguous => exact rfl

theorem followsEvidence_fdb (hlive : i.isLive = true) (hneighbor : i.base.neighbor = none)
    (hidentity : hasProtocolIdentity i = false) :
    inv.FollowsEvidence parseMac i (afterPass (hasUnresolvedFdb i.base.networkId)
      (inv.fdbNeighbor parseMac i.base.networkId) i).base.neighbor := by
  unfold hasProtocolIdentity at hidentity
  rw [Bool.or_eq_false_iff, isSome_eq_false_iff, isSome_eq_false_iff,
    isNone_iff_eq_none, isNone_iff_eq_none] at hidentity
  obtain ⟨hchassis, hdevice⟩ := hidentity
  by_cases hsingle : ∃ mac, i.base.fdbMacs = some [mac]
  · obtain ⟨mac, hmac⟩ := hsingle
    have hselected : hasUnresolvedFdb i.base.networkId i = true := by
      unfold hasUnresolvedFdb
      rw [hlive, hmac, hneighbor, hchassis, hdevice, decide_eq_true rfl]
      rfl
    have hevidence : inv.evidenceHost parseMac i =
        inv.findHostByMac parseMac mac i.base.networkId := by
      unfold evidenceHost
      rw [hchassis, hdevice, hmac]
    rw [afterPass, if_pos hselected]
    refine ⟨fun hnone => absurd hmac (hnone.2.2 mac), fun hostId hhost => ?_⟩
    rw [hevidence] at hhost
    refine ⟨recordPort (inv.findIfEntryByMac parseMac mac hostId) hostId, ?_, ?_⟩
    · show inv.fdbNeighbor parseMac i.base.networkId i = _
      unfold fdbNeighbor
      rw [hmac]
      show (inv.findHostByMac parseMac mac i.base.networkId).bind _ = _
      rw [hhost]
      rfl
    · exact neighborOn_recordPort fun id => portOn_of_findIfEntryByMac
  · have hselected : ¬ hasUnresolvedFdb i.base.networkId i = true := by
      intro hselected
      simp only [hasUnresolvedFdb, Bool.and_eq_true] at hselected
      obtain ⟨macs, hmacs, hlength⟩ := (Option.any_eq_true _ _).mp hselected.1.1.1.2
      obtain ⟨mac, rfl⟩ := length_eq_one_iff.mp (beq_iff_eq.mp hlength)
      exact hsingle ⟨mac, hmacs⟩
    rw [afterPass, if_neg hselected]
    refine ⟨fun _ => hneighbor, fun hostId hhost => ?_⟩
    unfold evidenceHost at hhost
    rw [hchassis, hdevice] at hhost
    split at hhost
    · rename_i heq
      cases heq
    · rename_i heq
      cases heq
    · rename_i mac _ _ hmac
      exact absurd ⟨mac, hmac⟩ hsingle
    · cases hhost

theorem followsEvidence_of_not_stored (hlocal : inv.AddressLinksLocal)
    (hi : i ∈ inv.interfaces) (hlive : i.isLive = true) (hneighbor : i.base.neighbor = none) :
    inv.FollowsEvidence parseMac i
      ((inv.resolveLinks parseMac i.base.networkId).neighborOf i.id) := by
  rw [neighborOf_resolveLinks hi]
  cases hidentity : hasProtocolIdentity i with
  | true =>
    have hnames := namesNeighbor_of_identity hlive rfl (.inl hidentity)
    rw [afterFdb_of_not (.inr (hasProtocolIdentity_afterLldp.trans hidentity)),
      afterLldp_of_names hnames]
    refine ⟨fun hnone => ?_, fun hostId hhost => ?_⟩
    · unfold hasProtocolIdentity at hidentity
      rw [hnone.1, hnone.2.1] at hidentity
      cases hidentity
    · rw [evidenceHost_of_identity hidentity hneighbor] at hhost
      have hverdict := eq_resolved_of_id? hhost
      refine ⟨inv.tierResult parseMac (inv.reciprocal parseMac i.base.networkId i) i hostId, ?_,
        (neighborOn_tierResult hlocal).mpr rfl⟩
      show inv.lldpNeighbor parseMac i.base.networkId i = _
      rw [lldpNeighbor, resolveNeighbor_of_unbound (by simp [hneighbor]), hneighbor, hverdict,
        resolveTiers_none hidentity]
  | false =>
    have hsame : inv.afterLldp parseMac i.base.networkId i = i := by
      cases hnames : namesNeighbor i.base.networkId i with
      | false => exact afterLldp_of_not_names hnames
      | true =>
        rw [afterLldp_of_names hnames, lldpNeighbor,
          resolveNeighbor_of_unbound (by simp [hneighbor]),
          resolveTiers_of_no_identity hidentity, setNeighbor_self]
    rw [hsame]
    exact followsEvidence_fdb hlive hneighbor hidentity

theorem followsEvidence_of_forget {inv' : NetworkInventory}
    (h : inv.forgetNeighbors = inv'.forgetNeighbors) (entry : SnmpInterface)
    (neighbor : Option Neighbor) :
    inv.FollowsEvidence parseMac entry neighbor ↔ inv'.FollowsEvidence parseMac entry neighbor := by
  have hevidence : inv.evidenceHost parseMac entry = inv'.evidenceHost parseMac entry := by
    rw [← evidenceHost_forget, h, evidenceHost_forget]
  unfold FollowsEvidence
  rw [hevidence]
  simp only [neighborOn_of_forget h]

/-- The neighbour of a port follows its evidence exactly when there was none before the passes, or
one on the device that the evidence names. -/
theorem followsEvidence_row_iff (hlocal : inv.AddressLinksLocal) (hi : i ∈ inv.interfaces)
    (hlive : i.isLive = true) :
    inv.FollowsEvidence parseMac i
        ((inv.resolveLinks parseMac i.base.networkId).neighborOf i.id) ↔
      ∀ n, i.base.neighbor = some n → ¬ NamesNoNeighbor i ∧
        ∀ hostId, inv.evidenceHost parseMac i = some hostId → inv.NeighborOn hostId n := by
  cases hneighbor : i.base.neighbor with
  | none =>
    refine iff_of_true (followsEvidence_of_not_stored hlocal hi hlive hneighbor) ?_
    intro n hn
    cases hn
  | some n =>
    obtain ⟨m, hm, hsame⟩ :=
      neighborOf_resolveLinks_of_stored parseMac hlocal hi hlive rfl hneighbor
    rw [hm]
    constructor
    · rintro ⟨hnone, hon⟩ _ ⟨⟩
      refine ⟨fun hnames => absurd (hnone hnames) (by simp), fun hostId hhost => ?_⟩
      obtain ⟨m', hm', hon⟩ := hon hostId hhost
      cases hm'
      exact (hsame hostId).mp hon
    · intro h
      obtain ⟨hnames, hon⟩ := h n rfl
      refine ⟨fun hnone => absurd hnone hnames, fun hostId hhost => ?_⟩
      exact ⟨m, rfl, (hsame hostId).mpr (hon hostId hhost)⟩

end Passes

section Ingest
variable {inv inv' : NetworkInventory} {parseMac : String → Option MacAddress} {env : IngestEnv}
  {entry row : SnmpInterface} {claimed : List Uuid} {collected : InterfaceDataComplete}
variable {interfaces : InterfaceTable} {existing i j : SnmpInterface}

/-- The columns that a resolution reads of the port itself. -/
structure SameEvidence (i j : SnmpInterface) : Prop where
  networkId : i.base.networkId = j.base.networkId
  lldpChassisId : i.base.lldpChassisId = j.base.lldpChassisId
  lldpSysName : i.base.lldpSysName = j.base.lldpSysName
  cdpDeviceId : i.base.cdpDeviceId = j.base.cdpDeviceId
  fdbMacs : i.base.fdbMacs = j.base.fdbMacs

theorem SameEvidence.namesNoNeighbor_iff (h : SameEvidence i j) :
    NamesNoNeighbor i ↔ NamesNoNeighbor j := by
  unfold NamesNoNeighbor
  rw [h.lldpChassisId, h.cdpDeviceId, h.fdbMacs]

theorem SameEvidence.evidenceHost_eq (h : SameEvidence i j) :
    inv.evidenceHost parseMac i = inv.evidenceHost parseMac j := by
  unfold evidenceHost
  rw [h.networkId, h.lldpChassisId, h.lldpSysName, h.cdpDeviceId, h.fdbMacs]

theorem SameEvidence.followsEvidence_iff (h : SameEvidence i j)
    (neighbor : Option Neighbor) :
    inv.FollowsEvidence parseMac i neighbor ↔ inv.FollowsEvidence parseMac j neighbor := by
  unfold FollowsEvidence
  rw [h.namesNoNeighbor_iff, h.evidenceHost_eq]

structure Ingested (inv : NetworkInventory) (entry : SnmpInterface)
    (stored : Option SnmpInterface) (inv' : NetworkInventory) (row : SnmpInterface) : Prop where
  evidence : SameEvidence row entry
  live : row.isLive = true
  neighbor : row.base.neighbor = stored.bind (·.base.neighbor)
  mem : row ∈ inv'.interfaces
  local_links : inv.AddressLinksLocal → inv'.AddressLinksLocal
  neighborOn : stored.isSome = true → ∀ hostId n, inv'.NeighborOn hostId n ↔ inv.NeighborOn hostId n

theorem mergeReport_sameEvidence
    (hfull : collected.lldp = true ∧ collected.cdp = true ∧ collected.fdb = true) :
    SameEvidence (InterfaceTable.mergeReport (SnmpInterface.normalizeBlankIdentity entry) existing
      collected) entry := by
  obtain ⟨lldp, cdp, fdb, vlanMembership⟩ := collected
  obtain ⟨rfl, rfl, rfl⟩ := hfull
  unfold mergeReport
  obtain ⟨hchassis, hsysName, hdevice, hfdb⟩ := preserveUncollectedData_of_collected
    (preserveImmutableFields
      { normalizeBlankIdentity entry with id := existing.id } existing) existing
    vlanMembership
  exact ⟨(preserveUncollectedData_frame _ _ _).2.1, hchassis, hsysName, hdevice, hfdb⟩

theorem ingested_of_update (hreport : IsReport entry)
    (hfull : collected.lldp = true ∧ collected.cdp = true ∧ collected.fdb = true)
    (hmem : existing ∈ inv.interfaces)
    (hlive : existing.isLive = true) (hhost : existing.base.hostId = entry.base.hostId)
    (hrow : row = InterfaceTable.mergeReport (SnmpInterface.normalizeBlankIdentity entry) existing
      collected)
    (hrows : interfaces.rows = inv.interfaces.rows.map fun j => if row.id = j.id then row else j) :
    Ingested inv entry (some existing) { inv with interfaces := interfaces } row := by
  have hframe : row.base.hostId = entry.base.hostId ∧ row.base.networkId = entry.base.networkId ∧
      row.base.neighbor = entry.base.neighbor.or existing.base.neighbor ∧
      row.base.ipAddressId = entry.base.ipAddressId := by
    rw [hrow]
    exact preserveUncollectedData_frame _ _ _
  have hid : row.id = existing.id := by
    rw [hrow]
    rfl
  have hrowlive : row.isLive = true := by
    rw [hrow]
    exact hreport.live
  have hcases : ∀ i ∈ interfaces, i = row ∨ i ∈ inv.interfaces := by
    intro i hi
    change i ∈ interfaces.rows at hi
    rw [hrows] at hi
    obtain ⟨j, hj, rfl⟩ := List.mem_map.mp hi
    by_cases hrowid : row.id = j.id
    · exact .inl (if_pos hrowid)
    · refine .inr ?_
      rw [if_neg hrowid]
      exact hj
  have hmem_of : ∀ j ∈ inv.interfaces, (if row.id = j.id then row else j) ∈ interfaces := by
    intro j hj
    show _ ∈ interfaces.rows
    rw [hrows]
    exact List.mem_map_of_mem hj
  have hmemrow : row ∈ interfaces := by
    have hmem' := hmem_of existing hmem
    rwa [if_pos hid] at hmem'
  refine ⟨?_, hrowlive, ?_, hmemrow, ?_, ?_⟩
  · rw [hrow]
    exact mergeReport_sameEvidence hfull
  · rw [hframe.2.2.1, hreport.no_neighbor]
    rfl
  · intro hlocal i hi hilive a ha halive hlink
    obtain rfl | hi := hcases i hi
    · rw [hframe.2.2.2, hreport.no_address] at hlink
      cases hlink
    · exact hlocal i hi hilive a ha halive hlink
  · intro _ hostId n
    cases n with
    | host id => exact Iff.rfl
    | interface id =>
      constructor
      · rintro ⟨i, hi, hilive, rfl, rfl⟩
        obtain rfl | hi := hcases i hi
        · exact ⟨existing, hmem, hlive, hhost.trans hframe.1.symm, hid.symm⟩
        · exact ⟨i, hi, hilive, rfl, rfl⟩
      · rintro ⟨j, hj, hjlive, rfl, rfl⟩
        by_cases hrowid : row.id = j.id
        · have hsame : existing = j := inv.interfaces.eq_of_key hmem hj (hid.symm.trans hrowid)
          subst hsame
          exact ⟨row, hmemrow, hrowlive, hframe.1.trans hhost.symm, hid⟩
        · have hmem' := hmem_of j hj
          rw [if_neg hrowid] at hmem'
          exact ⟨j, hmem', hjlive, rfl, rfl⟩

theorem ingested_of_insert (hreport : IsReport entry)
    (hrow : row = InterfaceTable.newReport env (SnmpInterface.normalizeBlankIdentity entry))
    (hrows : interfaces.rows = inv.interfaces.rows ++ [row]) :
    Ingested inv entry none { inv with interfaces := interfaces } row := by
  obtain ⟨seen, hbase⟩ : ∃ seen, row.base =
      { (normalizeBlankIdentity entry).base with lastSeenAt := seen } := by
    rw [hrow, newReport]
    split_ifs
    · exact ⟨_, rfl⟩
    · exact ⟨_, rfl⟩
  have hlive : row.isLive = true := by
    rw [hrow, newReport]
    split_ifs
    · rfl
    · exact hreport.live
  have hmem : ∀ i, i ∈ interfaces ↔ i ∈ inv.interfaces ∨ i = row := by
    intro i
    show i ∈ interfaces.rows ↔ _
    rw [hrows, mem_append, mem_singleton]
    rfl
  refine ⟨?_, hlive, ?_, (hmem row).mpr (.inr rfl), ?_, fun h => nomatch h⟩
  · refine ⟨?_, ?_, ?_, ?_, ?_⟩ <;> (rw [hbase]; rfl)
  · rw [hbase]
    exact hreport.no_neighbor
  · intro hlocal i hi hilive a ha halive hlink
    obtain hi | rfl := (hmem i).mp hi
    · exact hlocal i hi hilive a ha halive hlink
    · have hnone : i.base.ipAddressId = none := by
        rw [hbase]
        exact hreport.no_address
      rw [hnone] at hlink
      cases hlink

theorem ingested_of_ingest (hreport : IsReport entry)
    (hfull : collected.lldp = true ∧ collected.cdp = true ∧ collected.fdb = true)
    (h : inv.ingest env entry claimed collected = some (inv', row)) :
    Ingested inv entry (InterfaceTable.findMatchingExisting inv.interfaces
      (SnmpInterface.normalizeBlankIdentity entry) claimed) inv' row := by
  obtain ⟨⟨interfaces, row'⟩, hcreate, heq⟩ := map_eq_some_iff.mp h
  cases heq
  obtain ⟨existing, hmatch, hrow, hrows⟩ | ⟨hmatch, hrow, hrows, -⟩ :=
    createOrUpdateFromDiscovery_cases hcreate
  · obtain ⟨hmem, hlive, hhost⟩ := of_findMatchingExisting hmatch
    rw [hmatch]
    exact ingested_of_update hreport hfull hmem hlive hhost hrow hrows
  · rw [hmatch]
    exact ingested_of_insert hreport hrow hrows

/-- After a scan that has read the neighbour data of a port to their end, and after both passes, the
neighbour follows the evidence exactly when the stored row had none, or one on the device that the
evidence names now. -/
theorem ingest_followsEvidence_iff (parseMac : String → Option MacAddress)
    (inv inv' : NetworkInventory) (env : IngestEnv) (entry row : SnmpInterface)
    (claimed : List Uuid) (collected : InterfaceDataComplete) (hreport : IsReport entry)
    (hfull : collected.lldp = true ∧ collected.cdp = true ∧ collected.fdb = true)
    (hlocal : inv.AddressLinksLocal)
    (h : inv.ingest env entry claimed collected = some (inv', row)) :
    (inv'.resolveLinks parseMac entry.base.networkId).FollowsEvidence parseMac entry
        ((inv'.resolveLinks parseMac entry.base.networkId).neighborOf row.id) ↔
      ∀ existing, InterfaceTable.findMatchingExisting inv.interfaces
          (SnmpInterface.normalizeBlankIdentity entry) claimed = some existing →
        ∀ n, existing.base.neighbor = some n → ¬ NamesNoNeighbor entry ∧
          ∀ hostId, inv'.evidenceHost parseMac entry = some hostId → inv.NeighborOn hostId n := by
  obtain ⟨hevidence, hlive, hneighbor, hmem, hlinks, hon⟩ := ingested_of_ingest hreport hfull h
  rw [followsEvidence_of_forget forgetNeighbors_resolveLinks, ← hevidence.followsEvidence_iff,
    ← hevidence.networkId, followsEvidence_row_iff (hlinks hlocal) hmem hlive, hneighbor,
    hevidence.namesNoNeighbor_iff, hevidence.evidenceHost_eq]
  cases hstored : findMatchingExisting inv.interfaces
    (normalizeBlankIdentity entry) claimed with
  | none => exact iff_of_true (fun n hn => nomatch hn) fun existing hexisting => nomatch hexisting
  | some existing =>
    rw [hstored] at hon
    simp only [bind_some, hon rfl]
    constructor
    · rintro h _ ⟨⟩
      exact h
    · exact fun h => h existing rfl

end Ingest

def cabledInventory (stored : Option Neighbor) : NetworkInventory where
  hosts := ⟨[switchRow 1 "core", switchRow 2 "edge", switchRow 3 "spare"], by decide⟩
  ipAddresses := .empty
  interfaces := ⟨[SnmpInterface.setNeighbor (switchPortRow 101 1 1 "uplink" none none) stored], by
    show List.Nodup [(101 : Uuid)]
    decide⟩

theorem cabledInventory_addressLinksLocal (stored : Option Neighbor) :
    (cabledInventory stored).AddressLinksLocal :=
  fun _ _ _ _ ha => absurd ha not_mem_nil

def uplinkReport (chassisId : Option LldpChassisId) : SnmpInterface :=
  switchPortRow 900 1 1 "uplink" chassisId none

theorem uplinkReport_isReport (chassisId : Option LldpChassisId) :
    IsReport (uplinkReport chassisId) := ⟨rfl, rfl, rfl⟩

def uplinkAfterScan (stored : Option Neighbor) (chassisId : Option LldpChassisId) :
    Option (Option Neighbor) :=
  ((cabledInventory stored).ingest ⟨7, 7, 999⟩ (uplinkReport chassisId) [] {}).map
    fun (inv, row) => (inv.resolveLinks (fun _ => none) 5).neighborOf row.id

/-- A cable that was unplugged, and one that was moved to another switch: the neighbour stays. -/
theorem stored_neighbor_outlives_evidence :
    (NamesNoNeighbor (uplinkReport none) ∧
      uplinkAfterScan (some (.host 2)) none = some (some (.host 2))) ∧
    ((cabledInventory (some (.host 2))).ingest ⟨7, 7, 999⟩
        (uplinkReport (some (.locallyAssigned "spare"))) [] {}).map
          (fun (inv, _) => inv.evidenceHost (fun _ => none)
            (uplinkReport (some (.locallyAssigned "spare")))) = some (some 3) ∧
      uplinkAfterScan (some (.host 2)) (some (.locallyAssigned "spare")) =
        some (some (.host 2)) := by
  refine ⟨⟨⟨rfl, rfl, fun mac h => nomatch h⟩, by decide⟩, by decide, by decide⟩

/-- A port without a stored neighbour is bound to the switch that it hears. -/
theorem ingest_followsEvidence_of_new_link :
    ∃ inv' row, (cabledInventory none).ingest ⟨7, 7, 999⟩
        (uplinkReport (some (.locallyAssigned "spare"))) [] {} = some (inv', row) ∧
      (inv'.resolveLinks (fun _ => none) 5).FollowsEvidence (fun _ => none)
        (uplinkReport (some (.locallyAssigned "spare")))
        ((inv'.resolveLinks (fun _ => none) 5).neighborOf row.id) := by
  have hsome : ((cabledInventory none).ingest ⟨7, 7, 999⟩
      (uplinkReport (some (.locallyAssigned "spare"))) [] {}).isSome = true := by decide
  obtain ⟨⟨inv', row⟩, h⟩ := isSome_iff_exists.mp hsome
  refine ⟨inv', row, h, (ingest_followsEvidence_iff _ _ inv' _ _ row _ _ (uplinkReport_isReport _)
    ⟨rfl, rfl, rfl⟩ (cabledInventory_addressLinksLocal none) h).mpr ?_⟩
  intro existing hexisting n hn
  have hstored : ∀ i ∈ (cabledInventory none).interfaces.rows, i.base.neighbor = none := by
    simp [cabledInventory, setNeighbor]
  have hmem := (of_findMatchingExisting hexisting).1
  rw [hstored existing hmem] at hn
  cases hn

end NetworkInventory
end Scanopy
