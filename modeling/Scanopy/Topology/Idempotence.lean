import Scanopy.Topology.Passes

/-! Whether a second pass finds anything to change. The first pass prefers the advertised port of a
neighbour to the one that names this port back; for a bound port it is the other way. -/

namespace Scanopy
open List Bool Lookup

namespace NetworkInventory

def AddressLinksLocal (inv : NetworkInventory) : Prop :=
  ∀ i ∈ inv.interfaces, i.isLive = true → ∀ a ∈ inv.ipAddresses, a.isLive = true →
    i.base.ipAddressId = some a.id → i.base.hostId = a.base.hostId

def PortOn (inv : NetworkInventory) (hostId id : Uuid) : Prop :=
  ∃ i ∈ inv.interfaces, i.isLive = true ∧ i.base.hostId = hostId ∧ i.id = id

section PortOn
variable {inv : NetworkInventory} {parseMac : String → Option MacAddress} {hostId id : Uuid}
variable {i : SnmpInterface} {name : String}

theorem PortOn.liveInterface (h : inv.PortOn hostId id) :
    ∃ i, inv.liveInterface id = some i ∧ i.base.hostId = hostId := by
  obtain ⟨i, hi, hlive, hhost, rfl⟩ := h
  have hsome : (inv.liveInterface i.id).isSome = true := find?_isSome.mpr ⟨i, hi, by simp [hlive]⟩
  obtain ⟨j, hj⟩ := Option.isSome_iff_exists.mp hsome
  have hid : j.id = i.id := by
    have hfound := find?_some hj
    rw [and_eq_true, decide_eq_true_eq] at hfound
    exact hfound.2
  rw [inv.interfaces.eq_of_key (mem_of_find?_eq_some hj) hi hid] at hj
  exact ⟨i, hj, hhost⟩

theorem portOn_of_find? {p : SnmpInterface → Bool}
    (hp : ∀ i, p i = true → i.isLive = true ∧ i.base.hostId = hostId)
    (h : (inv.interfaces.rows.find? p).map (·.id) = some id) : inv.PortOn hostId id := by
  obtain ⟨i, hi, hid⟩ := Option.map_eq_some_iff.mp h
  obtain ⟨hlive, hhost⟩ := hp i (find?_some hi)
  exact ⟨i, mem_of_find?_eq_some hi, hlive, hhost, hid⟩

theorem portOn_of_findIfEntryByName
    (h : inv.findIfEntryByName name hostId = some id) : inv.PortOn hostId id := by
  obtain ⟨p, hp, i, hi, hpi, hid⟩ := firstOfTiers_eq_some h
  obtain ⟨n, -, hp⟩ := mem_flatMap.mp hp
  obtain ⟨column, -, rfl⟩ := mem_map.mp hp
  simp only [and_eq_true, decide_eq_true_eq] at hpi
  exact ⟨i, hi, hpi.1.1, hpi.1.2, hid⟩

theorem portOn_of_findIfEntryByMacAddr {mac : MacAddress}
    (h : inv.findIfEntryByMacAddr mac hostId = .resolved id) : inv.PortOn hostId id := by
  unfold findIfEntryByMacAddr at h
  match hrows : inv.interfacesByMac mac hostId with
  | [] =>
    rw [hrows] at h
    cases h
  | i :: j :: l =>
    rw [hrows] at h
    cases h
  | [i] =>
    rw [hrows, IdentityResolution.resolved.injEq] at h
    have hmem : i ∈ inv.interfacesByMac mac hostId := by
      rw [hrows]
      exact mem_singleton_self i
    obtain ⟨hi, hpi⟩ := mem_filter.mp hmem
    simp only [and_eq_true, decide_eq_true_eq] at hpi
    exact ⟨i, hi, hpi.1.1.1, hpi.1.1.2, h⟩

theorem portOn_of_findIfEntryByMac {mac : String}
    (h : inv.findIfEntryByMac parseMac mac hostId = .resolved id) : inv.PortOn hostId id := by
  unfold findIfEntryByMac at h
  cases hmac : parseMac mac with
  | none =>
    rw [hmac] at h
    cases h
  | some macAddr =>
    rw [hmac] at h
    exact portOn_of_findIfEntryByMacAddr h

theorem portOn_of_findIfEntryByIp (hlocal : inv.AddressLinksLocal) {ip : IpAddr}
    (h : inv.findIfEntryByIp ip hostId = some id) : inv.PortOn hostId id := by
  obtain ⟨a, ha, h⟩ := Option.bind_eq_some_iff.mp h
  obtain ⟨i, hi, hid⟩ := Option.map_eq_some_iff.mp h
  have htier := find?_some ha
  have hlinked := find?_some hi
  simp only [addressTier, linkedTier, and_eq_true, decide_eq_true_eq] at htier hlinked
  have hmem := mem_of_find?_eq_some hi
  have hhost := hlocal i hmem hlinked.1 a (mem_of_find?_eq_some ha) htier.1.1 hlinked.2
  exact ⟨i, hmem, hlinked.1, hhost.trans htier.1.2, hid⟩

theorem eq_some_of_found {o : Option Uuid} (h : IdentityResolution.found o = .resolved id) :
    o = some id := by
  cases o with
  | none => cases h
  | some id' =>
    cases h
    rfl

theorem portOn_of_resolveDeviceLocalPort
    (h : inv.resolveDeviceLocalPort name hostId = .resolved id) : inv.PortOn hostId id := by
  simp only [resolveDeviceLocalPort] at h
  split_ifs at h
  cases hname : inv.findIfEntryByName (trim name) hostId with
  | some id' =>
    rw [hname] at h
    cases h
    exact portOn_of_findIfEntryByName hname
  | none =>
    rw [hname] at h
    cases hindex : parseI32 (trim name) with
    | none =>
      rw [hindex] at h
      cases h
    | some ifIndex =>
      rw [hindex] at h
      refine portOn_of_find? (fun i hi => ?_) (eq_some_of_found h)
      simp only [ifIndexTier, and_eq_true, decide_eq_true_eq] at hi
      exact hi.1

theorem portOn_of_resolveIfEntryId (hlocal : inv.AddressLinksLocal) {portId : LldpPortId}
    (h : inv.resolveIfEntryId parseMac portId hostId = .resolved id) : inv.PortOn hostId id := by
  unfold resolveIfEntryId at h
  cases portId with
  | macAddress mac => exact portOn_of_findIfEntryByMac h
  | networkAddress ip => exact portOn_of_findIfEntryByIp hlocal (eq_some_of_found h)
  | interfaceAlias name | interfaceName name | portComponent name | agentCircuitId name
  | locallyAssigned name => exact portOn_of_resolveDeviceLocalPort h

theorem portOn_of_advertisedPort (hlocal : inv.AddressLinksLocal)
    (h : inv.advertisedPort parseMac i hostId = .resolved id) : inv.PortOn hostId id := by
  unfold advertisedPort at h
  cases hchassis : i.base.lldpChassisId with
  | some c =>
    rw [hchassis] at h
    dsimp only at h
    split at h
    · split at h
      · rename_i name hname
        cases h
        exact portOn_of_findIfEntryByName hname
      · split at h
        · exact portOn_of_resolveIfEntryId hlocal h
        · cases h
    · split at h
      · exact portOn_of_resolveIfEntryId hlocal h
      · cases h
  | none =>
    rw [hchassis] at h
    cases hdevice : i.base.cdpDeviceId with
    | none =>
      rw [hdevice] at h
      cases h
    | some deviceId =>
      rw [hdevice] at h
      cases hid : i.base.cdpPortId with
      | none =>
        rw [hid] at h
        cases h
      | some portId =>
        rw [hid] at h
        exact portOn_of_findIfEntryByName (eq_some_of_found h)

theorem reciprocal_eq_some {networkId : Uuid}
    (h : inv.reciprocal parseMac networkId i = some (id, hostId)) :
    inv.deviceVerdict parseMac networkId i = .resolved hostId ∧ inv.PortOn hostId id := by
  unfold reciprocal at h
  split at h
  · rename_i remoteHost hverdict
    split at h
    · rename_i remotePort hports
      cases h
      have hmem : id ∈ inv.portsBetween parseMac networkId hostId i.base.hostId := by
        rw [hports]
        exact mem_singleton_self id
      obtain ⟨j, hj, hid⟩ := mem_map.mp hmem
      obtain ⟨hj, hsel⟩ := mem_filter.mp hj
      simp only [namesNeighbor, and_eq_true, decide_eq_true_eq] at hsel
      exact ⟨hverdict, j, hj, hsel.1.1.1.1.1, hsel.1.1.2, hid⟩
    · cases h
  · cases h

end PortOn

section Row
variable {inv : NetworkInventory} {parseMac : String → Option MacAddress}
  {hostOf : IdentityResolution} {pair : Option (Uuid × Uuid)} {i : SnmpInterface}
  {neighbor : Option Neighbor} {hostId : Uuid}
variable {boundId id : Uuid}

def hasProtocolIdentity (i : SnmpInterface) : Bool :=
  i.base.lldpChassisId.isSome || i.base.cdpDeviceId.isSome

def tierResult (inv : NetworkInventory) (parseMac : String → Option MacAddress)
    (pair : Option (Uuid × Uuid)) (i : SnmpInterface) (hostId : Uuid) : Neighbor :=
  recordPort (pairReciprocally (inv.advertisedPort parseMac i hostId) pair hostId) hostId

theorem resolveTiers_of_no_identity (h : hasProtocolIdentity i = false) :
    inv.resolveTiers parseMac hostOf pair i neighbor = neighbor := by
  unfold resolveTiers
  rw [if_neg]
  unfold hasProtocolIdentity at h
  rw [h]
  exact Bool.false_ne_true

theorem resolveTiers_host (h : hasProtocolIdentity i = true) :
    inv.resolveTiers parseMac hostOf pair i (some (.host hostId)) =
      some (inv.tierResult parseMac pair i hostId) := by
  unfold resolveTiers
  exact if_pos h

theorem resolveTiers_none (h : hasProtocolIdentity i = true) :
    inv.resolveTiers parseMac (.resolved hostId) pair i none =
      some (inv.tierResult parseMac pair i hostId) := by
  unfold resolveTiers
  exact if_pos h

theorem hasProtocolIdentity_of_advertisedPort
    (h : inv.advertisedPort parseMac i hostId = .resolved id) : hasProtocolIdentity i = true := by
  unfold advertisedPort at h
  unfold hasProtocolIdentity
  cases hchassis : i.base.lldpChassisId with
  | some c => rfl
  | none =>
    cases hdevice : i.base.cdpDeviceId with
    | some d => rfl
    | none =>
      rw [hchassis, hdevice] at h
      cases h

theorem tierResult_of_advertised
    (h : inv.advertisedPort parseMac i hostId = .resolved id) :
    inv.tierResult parseMac pair i hostId = .interface id := by
  unfold tierResult
  rw [h]
  rfl

theorem tierResult_cases (inv : NetworkInventory) (parseMac : String → Option MacAddress)
    (pair : Option (Uuid × Uuid)) (i : SnmpInterface) (hostId : Uuid) :
    (∃ id, inv.advertisedPort parseMac i hostId = .resolved id ∧
      inv.tierResult parseMac pair i hostId = .interface id) ∨
    (∃ id, pair = some (id, hostId) ∧ inv.tierResult parseMac pair i hostId = .interface id) ∨
    inv.tierResult parseMac pair i hostId = .host hostId := by
  unfold tierResult
  cases inv.advertisedPort parseMac i hostId with
  | resolved id => exact .inl ⟨id, rfl, rfl⟩
  | noStrategy | notFound | ambiguous =>
    refine .inr ?_
    cases pair with
    | none => exact .inr rfl
    | some pair =>
      obtain ⟨id, pairedHost⟩ := pair
      by_cases hhost : pairedHost = hostId
      · subst hhost
        refine .inl ⟨id, rfl, ?_⟩
        simp only [pairReciprocally, if_true]
        rfl
      · refine .inr ?_
        simp only [pairReciprocally, if_neg hhost]
        rfl

theorem reExaminePortBinding_eq_reopen
    (h : inv.reExaminePortBinding pair i boundId = .reopen hostId) :
    pair = none ∧ ∃ bound, inv.liveInterface boundId = some bound ∧ bound.base.hostId = hostId := by
  unfold reExaminePortBinding at h
  split at h
  · split_ifs at h
  · refine ⟨rfl, ?_⟩
    split_ifs at h
    split at h
    · rename_i bound hbound
      split at h
      · split_ifs at h
        cases h
        exact ⟨bound, hbound, rfl⟩
      · cases h
    · cases h

theorem reExaminePortBinding_eq_rebind {pairedId : Uuid}
    (h : inv.reExaminePortBinding pair i boundId = .rebind pairedId) :
    ∃ pairedHost, pair = some (pairedId, pairedHost) := by
  unfold reExaminePortBinding at h
  split at h
  · rename_i id pairedHost
    split_ifs at h
    cases h
    exact ⟨pairedHost, rfl⟩
  · split_ifs at h
    split at h
    · split at h
      · split_ifs at h
      · cases h
    · cases h

theorem reExaminePortBinding_paired {pairedHost : Uuid} :
    inv.reExaminePortBinding (some (id, pairedHost)) i boundId =
      if id = boundId then .stands else .rebind id := rfl

theorem resolveNeighbor_of_bound
    (h : i.base.neighbor = some (.interface boundId)) :
    inv.resolveNeighbor parseMac hostOf pair i = match inv.reExaminePortBinding pair i boundId with
      | .stands => some (.interface boundId)
      | .rebind pairedId => some (.interface pairedId)
      | .reopen hostId => inv.resolveTiers parseMac hostOf pair i (some (.host hostId)) := by
  rw [resolveNeighbor]
  split
  · next id hid =>
    obtain rfl : id = boundId := by simpa using hid.symm.trans h
    split <;> simp_all
  · next hunbound => exact absurd h (hunbound boundId)

theorem resolveNeighbor_of_unbound (h : ∀ boundId, i.base.neighbor ≠ some (.interface boundId)) :
    inv.resolveNeighbor parseMac hostOf pair i =
      inv.resolveTiers parseMac hostOf pair i i.base.neighbor := by
  unfold resolveNeighbor
  split
  · rename_i boundId hneighbor
    exact absurd hneighbor (h boundId)
  · rfl

theorem resolveNeighbor_bound :
    inv.resolveNeighbor parseMac hostOf pair
        (SnmpInterface.setNeighbor i (some (.interface boundId))) =
      match inv.reExaminePortBinding pair i boundId with
      | .stands => some (.interface boundId)
      | .rebind pairedId => some (.interface pairedId)
      | .reopen hostId => inv.resolveTiers parseMac hostOf pair i (some (.host hostId)) := rfl

/-- What the tiers leave is left alone by another pass, unless the port that names this one back is
not the advertised one. -/
theorem tierResult_stable (hidentity : hasProtocolIdentity i = true)
    (hports : ∀ id, inv.advertisedPort parseMac i hostId = .resolved id → inv.PortOn hostId id)
    (hagree : ∀ id q r, inv.advertisedPort parseMac i hostId = .resolved id →
      pair = some (q, r) → q = id) :
    inv.resolveNeighbor parseMac hostOf pair
        (SnmpInterface.setNeighbor i (some (inv.tierResult parseMac pair i hostId))) =
      some (inv.tierResult parseMac pair i hostId) := by
  obtain ⟨id, hadv, hres⟩ | ⟨id, hpair, hres⟩ | hres := tierResult_cases inv parseMac pair i hostId
  · rw [hres, resolveNeighbor_bound]
    cases hexam : inv.reExaminePortBinding pair i id with
    | stands => rfl
    | rebind q =>
      obtain ⟨r, hpair⟩ := reExaminePortBinding_eq_rebind hexam
      rw [hagree id q r hadv hpair]
    | reopen h =>
      obtain ⟨bound, hbound, rfl⟩ := (reExaminePortBinding_eq_reopen hexam).2
      obtain ⟨j, hj, rfl⟩ := (hports id hadv).liveInterface
      rw [hbound] at hj
      cases hj
      show inv.resolveTiers parseMac hostOf pair i _ = _
      rw [resolveTiers_host hidentity, hres]
  · rw [hres, resolveNeighbor_bound, hpair, reExaminePortBinding_paired, if_pos rfl]
  · rw [hres]
    show inv.resolveTiers parseMac hostOf pair i _ = _
    rw [resolveTiers_host hidentity, hres]

end Row

section Pass
variable {inv : NetworkInventory} {parseMac : String → Option MacAddress} {networkId : Uuid}
  {i : SnmpInterface}

/-- If the advertised port of a neighbour is found, and a port names this one back, they are one.
A port that was bound before is not looked up again. -/
def PairAgrees (inv : NetworkInventory) (parseMac : String → Option MacAddress) (networkId : Uuid)
    (i : SnmpInterface) : Prop :=
  ∀ hostId id pairedId pairedHost, (∀ boundId, i.base.neighbor ≠ some (.interface boundId)) →
    inv.deviceVerdict parseMac networkId i = .resolved hostId →
    inv.advertisedPort parseMac i hostId = .resolved id →
    inv.reciprocal parseMac networkId i = some (pairedId, pairedHost) → pairedId = id

theorem deviceVerdict_of_host (inv : NetworkInventory) (parseMac : String → Option MacAddress)
    (networkId : Uuid) {hostId : Uuid} (h : i.base.neighbor = some (.host hostId)) :
    inv.deviceVerdict parseMac networkId i = .resolved hostId := by
  unfold deviceVerdict
  rw [h]

theorem deviceVerdict_of_bound (inv : NetworkInventory) (parseMac : String → Option MacAddress)
    (networkId : Uuid) {boundId : Uuid} (h : i.base.neighbor = some (.interface boundId)) :
    inv.deviceVerdict parseMac networkId i =
      .found ((inv.liveInterface boundId).map (·.base.hostId)) := by
  unfold deviceVerdict
  rw [h]

theorem lldpNeighbor_cases (inv : NetworkInventory) (parseMac : String → Option MacAddress)
    (networkId : Uuid) (i : SnmpInterface) :
    inv.lldpNeighbor parseMac networkId i = i.base.neighbor ∨
    (∃ id hostId, inv.reciprocal parseMac networkId i = some (id, hostId) ∧
      inv.lldpNeighbor parseMac networkId i = some (.interface id)) ∨
    (∃ hostId, inv.deviceVerdict parseMac networkId i = .resolved hostId ∧
      hasProtocolIdentity i = false ∧
      inv.lldpNeighbor parseMac networkId i = some (.host hostId)) ∨
    (∃ hostId, inv.deviceVerdict parseMac networkId i = .resolved hostId ∧
      hasProtocolIdentity i = true ∧
      inv.lldpNeighbor parseMac networkId i =
        some (inv.tierResult parseMac (inv.reciprocal parseMac networkId i) i hostId) ∧
      (inv.reciprocal parseMac networkId i = none ∨
        ∀ boundId, i.base.neighbor ≠ some (.interface boundId))) := by
  cases hneighbor : i.base.neighbor with
  | none =>
    have hunbound : ∀ boundId, i.base.neighbor ≠ some (.interface boundId) := by simp [hneighbor]
    rw [lldpNeighbor, resolveNeighbor_of_unbound hunbound, hneighbor]
    cases hidentity : hasProtocolIdentity i with
    | false => exact .inl (resolveTiers_of_no_identity hidentity)
    | true =>
      cases hverdict : inv.deviceVerdict parseMac networkId i with
      | resolved hostId =>
        exact .inr (.inr (.inr ⟨hostId, rfl, rfl, resolveTiers_none hidentity, .inr (by simp)⟩))
      | noStrategy | notFound | ambiguous =>
        refine .inl ?_
        unfold resolveTiers
        split_ifs
        · rfl
        · rfl
  | some neighbor =>
    cases neighbor with
    | host hostId =>
      have hunbound : ∀ boundId, i.base.neighbor ≠ some (.interface boundId) := by
        simp [hneighbor]
      have hverdict := deviceVerdict_of_host inv parseMac networkId hneighbor
      rw [lldpNeighbor, resolveNeighbor_of_unbound hunbound, hneighbor]
      cases hidentity : hasProtocolIdentity i with
      | false => exact .inl (resolveTiers_of_no_identity hidentity)
      | true =>
        exact .inr (.inr (.inr ⟨hostId, hverdict, rfl, resolveTiers_host hidentity,
          .inr (by simp)⟩))
    | interface boundId =>
      have hverdict := deviceVerdict_of_bound inv parseMac networkId hneighbor
      rw [lldpNeighbor, resolveNeighbor_of_bound hneighbor]
      cases hexam : inv.reExaminePortBinding (inv.reciprocal parseMac networkId i) i boundId with
      | stands => exact .inl rfl
      | rebind id =>
        obtain ⟨hostId, hpair⟩ := reExaminePortBinding_eq_rebind hexam
        exact .inr (.inl ⟨id, hostId, hpair, rfl⟩)
      | reopen hostId =>
        obtain ⟨hpair, bound, hbound, rfl⟩ := reExaminePortBinding_eq_reopen hexam
        rw [hbound] at hverdict
        cases hidentity : hasProtocolIdentity i with
        | false =>
          refine .inr (.inr (.inl ⟨_, hverdict, rfl, ?_⟩))
          exact resolveTiers_of_no_identity hidentity
        | true =>
          refine .inr (.inr (.inr ⟨_, hverdict, rfl, ?_, .inl hpair⟩))
          exact resolveTiers_host hidentity

theorem setNeighbor_self (i : SnmpInterface) :
    SnmpInterface.setNeighbor i i.base.neighbor = i := rfl

theorem deviceVerdict_lldpNeighbor (hlocal : inv.AddressLinksLocal) :
    inv.deviceVerdict parseMac networkId
        (SnmpInterface.setNeighbor i (inv.lldpNeighbor parseMac networkId i)) =
      inv.deviceVerdict parseMac networkId i := by
  have hbound : ∀ {id hostId : Uuid}, inv.PortOn hostId id → inv.deviceVerdict parseMac networkId
        (SnmpInterface.setNeighbor i (some (.interface id))) = .resolved hostId := by
    intro id hostId hport
    obtain ⟨j, hj, rfl⟩ := hport.liveInterface
    refine (deviceVerdict_of_bound inv parseMac networkId rfl).trans ?_
    rw [hj]
    rfl
  obtain hsame | ⟨id, hostId, hpair, heq⟩ | ⟨hostId, hverdict, -, heq⟩ |
    ⟨hostId, hverdict, -, heq, -⟩ := lldpNeighbor_cases inv parseMac networkId i
  · rw [hsame, setNeighbor_self]
  · obtain ⟨hverdict, hport⟩ := reciprocal_eq_some hpair
    rw [heq, hverdict, hbound hport]
  · rw [heq, hverdict]
    exact deviceVerdict_of_host inv parseMac networkId rfl
  · rw [heq, hverdict]
    obtain ⟨id, hadv, hres⟩ | ⟨id, hpair, hres⟩ | hres := tierResult_cases inv parseMac
      (inv.reciprocal parseMac networkId i) i hostId
    · rw [hres, hbound (portOn_of_advertisedPort hlocal hadv)]
    · rw [hres, hbound (reciprocal_eq_some hpair).2]
    · rw [hres]
      exact deviceVerdict_of_host inv parseMac networkId rfl

theorem resolveNeighbor_lldpNeighbor_iff (hlocal : inv.AddressLinksLocal) :
    inv.resolveNeighbor parseMac (inv.deviceVerdict parseMac networkId i)
        (inv.reciprocal parseMac networkId i)
        (SnmpInterface.setNeighbor i (inv.lldpNeighbor parseMac networkId i)) =
      inv.lldpNeighbor parseMac networkId i ↔ inv.PairAgrees parseMac networkId i := by
  constructor
  · intro hstable hostId id pairedId pairedHost hunbound hverdict hadv hpair
    have hidentity := hasProtocolIdentity_of_advertisedPort hadv
    have hfirst : inv.lldpNeighbor parseMac networkId i = some (.interface id) := by
      rw [lldpNeighbor, resolveNeighbor_of_unbound hunbound, hverdict]
      cases hneighbor : i.base.neighbor with
      | none => rw [resolveTiers_none hidentity, tierResult_of_advertised hadv]
      | some neighbor =>
        cases neighbor with
        | interface boundId => exact absurd hneighbor (hunbound boundId)
        | host h =>
          rw [deviceVerdict_of_host inv parseMac networkId hneighbor] at hverdict
          cases hverdict
          rw [resolveTiers_host hidentity, tierResult_of_advertised hadv]
    rw [hfirst, resolveNeighbor_bound, hpair, reExaminePortBinding_paired] at hstable
    by_contra hne
    rw [if_neg hne] at hstable
    cases hstable
    exact hne rfl
  · intro hagree
    obtain hsame | ⟨id, hostId, hpair, heq⟩ | ⟨hostId, hverdict, hidentity, heq⟩ |
      ⟨hostId, hverdict, hidentity, heq, hfree⟩ := lldpNeighbor_cases inv parseMac networkId i
    · rw [hsame, setNeighbor_self]
      exact hsame
    · rw [heq, resolveNeighbor_bound, hpair, reExaminePortBinding_paired, if_pos rfl]
    · rw [heq]
      show inv.resolveTiers parseMac (inv.deviceVerdict parseMac networkId i) _ i _ = _
      exact resolveTiers_of_no_identity hidentity
    · rw [heq]
      refine tierResult_stable hidentity (fun id => portOn_of_advertisedPort hlocal) ?_
      intro id q r hadv hpair
      obtain hnone | hunbound := hfree
      · rw [hnone] at hpair
        cases hpair
      · exact hagree hostId id q r hunbound hverdict hadv hpair

def afterLldp (inv : NetworkInventory) (parseMac : String → Option MacAddress) (networkId : Uuid) :
    SnmpInterface → SnmpInterface :=
  afterPass (namesNeighbor networkId) (inv.lldpNeighbor parseMac networkId)

theorem afterLldp_of_names (h : namesNeighbor networkId i = true) :
    inv.afterLldp parseMac networkId i =
      SnmpInterface.setNeighbor i (inv.lldpNeighbor parseMac networkId i) := if_pos h

theorem afterLldp_of_not_names (h : namesNeighbor networkId i = false) :
    inv.afterLldp parseMac networkId i = i := if_neg (by rw [h]; exact Bool.false_ne_true)

theorem namesNeighbor_afterLldp :
    namesNeighbor networkId (inv.afterLldp parseMac networkId i) = namesNeighbor networkId i := by
  cases hnames : namesNeighbor networkId i with
  | false => rw [afterLldp_of_not_names hnames, hnames]
  | true =>
    rw [afterLldp_of_names hnames]
    obtain hsame | hsome : inv.lldpNeighbor parseMac networkId i = i.base.neighbor ∨
        (inv.lldpNeighbor parseMac networkId i).isSome = true := by
      obtain hsame | ⟨id, hostId, -, heq⟩ | ⟨hostId, -, -, heq⟩ | ⟨hostId, -, -, heq, -⟩ :=
        lldpNeighbor_cases inv parseMac networkId i
      · exact .inl hsame
      · exact .inr (by rw [heq]; rfl)
      · exact .inr (by rw [heq]; rfl)
      · exact .inr (by rw [heq]; rfl)
    · rw [hsame, setNeighbor_self, hnames]
    · unfold namesNeighbor at hnames ⊢
      rw [and_eq_true] at hnames
      show (i.isLive && decide (i.base.networkId = networkId) && (_ || _ ||  _ ||
        (inv.lldpNeighbor parseMac networkId i).isSome)) = true
      rw [hnames.1, hsome, Bool.or_true]
      rfl

theorem deviceVerdict_resolveLldpLinks (j : SnmpInterface) :
    (inv.resolveLldpLinks parseMac networkId).deviceVerdict parseMac networkId j =
      inv.deviceVerdict parseMac networkId j := by
  rw [← deviceVerdict_forget, forgetNeighbors_resolveLldpLinks, deviceVerdict_forget]

theorem deviceVerdict_afterLldp (hlocal : inv.AddressLinksLocal) :
    inv.deviceVerdict parseMac networkId (inv.afterLldp parseMac networkId i) =
      inv.deviceVerdict parseMac networkId i := by
  cases hnames : namesNeighbor networkId i with
  | false => rw [afterLldp_of_not_names hnames]
  | true => rw [afterLldp_of_names hnames, deviceVerdict_lldpNeighbor hlocal]

theorem hostId_afterLldp :
    (inv.afterLldp parseMac networkId i).base.hostId = i.base.hostId := by
  cases hnames : namesNeighbor networkId i with
  | false => rw [afterLldp_of_not_names hnames]
  | true =>
    rw [afterLldp_of_names hnames]
    rfl

theorem portsBetween_resolveLldpLinks (hlocal : inv.AddressLinksLocal)
    (localHost remoteHost : Uuid) :
    (inv.resolveLldpLinks parseMac networkId).portsBetween parseMac networkId localHost
        remoteHost = inv.portsBetween parseMac networkId localHost remoteHost := by
  unfold portsBetween
  rw [rows_resolveLldpLinks, filter_map, map_map]
  have hid : (fun j : SnmpInterface => j.id) ∘ inv.afterLldp parseMac networkId = (·.id) :=
    funext fun j => id_afterPass _ _ j
  refine (congrArg (fun f => List.map f _) hid).trans (congrArg (List.map _) ?_)
  refine filter_congr fun j _ => ?_
  show (namesNeighbor networkId (inv.afterLldp parseMac networkId j) &&
    (inv.afterLldp parseMac networkId j).base.hostId = localHost &&
    (inv.resolveLldpLinks parseMac networkId).deviceVerdict parseMac networkId
      (inv.afterLldp parseMac networkId j) = .resolved remoteHost && _) = _
  rw [namesNeighbor_afterLldp, hostId_afterLldp, deviceVerdict_resolveLldpLinks,
    deviceVerdict_afterLldp hlocal]

theorem reciprocal_afterLldp (hlocal : inv.AddressLinksLocal) :
    (inv.resolveLldpLinks parseMac networkId).reciprocal parseMac networkId
        (inv.afterLldp parseMac networkId i) = inv.reciprocal parseMac networkId i := by
  unfold reciprocal
  simp only [deviceVerdict_resolveLldpLinks, deviceVerdict_afterLldp hlocal, hostId_afterLldp,
    portsBetween_resolveLldpLinks hlocal]

theorem lldpNeighbor_afterLldp (hlocal : inv.AddressLinksLocal) :
    (inv.resolveLldpLinks parseMac networkId).lldpNeighbor parseMac networkId
        (inv.afterLldp parseMac networkId i) =
      inv.resolveNeighbor parseMac (inv.deviceVerdict parseMac networkId i)
        (inv.reciprocal parseMac networkId i) (inv.afterLldp parseMac networkId i) := by
  unfold lldpNeighbor
  rw [deviceVerdict_resolveLldpLinks, deviceVerdict_afterLldp hlocal, reciprocal_afterLldp hlocal,
    ← resolveNeighbor_forget, forgetNeighbors_resolveLldpLinks, resolveNeighbor_forget]

/-- The second pass changes nothing exactly when, on every port that the first pass looks up, the
port that names it back is not another than the advertised one. -/
theorem resolveLldpLinks_idempotent_iff (parseMac : String → Option MacAddress)
    (inv : NetworkInventory) (networkId : Uuid) (hlocal : inv.AddressLinksLocal) :
    (inv.resolveLldpLinks parseMac networkId).resolveLldpLinks parseMac networkId =
        inv.resolveLldpLinks parseMac networkId ↔
      ∀ i ∈ inv.interfaces, namesNeighbor networkId i = true →
        inv.PairAgrees parseMac networkId i := by
  rw [resolveLldpLinks_eq_self_iff]
  have hagain : ∀ i, namesNeighbor networkId i = true →
      ((inv.resolveLldpLinks parseMac networkId).lldpNeighbor parseMac networkId
          (inv.afterLldp parseMac networkId i) =
        (inv.afterLldp parseMac networkId i).base.neighbor ↔
          inv.PairAgrees parseMac networkId i) := by
    intro i hnames
    rw [lldpNeighbor_afterLldp hlocal, afterLldp_of_names hnames]
    exact resolveNeighbor_lldpNeighbor_iff hlocal
  have hmem : ∀ j, j ∈ (inv.resolveLldpLinks parseMac networkId).interfaces ↔
      ∃ i ∈ inv.interfaces, inv.afterLldp parseMac networkId i = j := by
    intro j
    show j ∈ (inv.resolveLldpLinks parseMac networkId).interfaces.rows ↔ _
    rw [rows_resolveLldpLinks]
    exact mem_map
  constructor
  · intro h i hi hnames
    rw [← hagain i hnames]
    refine h _ ((hmem _).mpr ⟨i, hi, rfl⟩) ?_
    rw [namesNeighbor_afterLldp, hnames]
  · intro h j hj hnames
    obtain ⟨i, hi, rfl⟩ := (hmem j).mp hj
    rw [namesNeighbor_afterLldp] at hnames
    exact (hagain i hnames).mpr (h i hi hnames)

end Pass

/-- A switch of the network `5` that reports its name as its chassis id. -/
def switchRow (id : Uuid) (name : String) : SnmpHost :=
  ⟨id, 0, 0, none, none,
    { name := name, networkId := 5, hostname := none, description := none,
      virtualizationServiceId := none, hidden := false, credentialAssignments := [],
      chassisId := some name }⟩

def switchPortRow (id hostId : Uuid) (ifIndex : ℤ) (ifDescr : String)
    (chassisId : Option LldpChassisId) (portId : Option LldpPortId) : SnmpInterface :=
  ⟨id, 0, 0, none, none,
    { hostId := hostId, networkId := 5, ifIndex := ifIndex, ifDescr := ifDescr,
      macAddress := none, ipAddressId := none, neighbor := none, nativeVlanId := none,
      vlanIds := none, ifType := 6, lldpChassisId := chassisId, lldpPortId := portId }⟩

/-- Two switches that are joined by one cable. The port `201` of the second hears the first, and
the second advertises itself there by the name of its aggregate, the interface `202`. -/
def pairedInventory (portId : Option LldpPortId) : NetworkInventory where
  hosts := ⟨[switchRow 1 "core", switchRow 2 "edge"], by decide⟩
  ipAddresses := .empty
  interfaces := ⟨[switchPortRow 101 1 1 "uplink" (some (.locallyAssigned "edge")) portId,
    switchPortRow 201 2 1 "port1" (some (.locallyAssigned "core")) none,
    switchPortRow 202 2 2 "lag1" none none], by
      show List.Nodup [(101 : Uuid), 201, 202]
      decide⟩

theorem pairedInventory_addressLinksLocal (portId : Option LldpPortId) :
    (pairedInventory portId).AddressLinksLocal :=
  fun _ _ _ _ ha => absurd ha not_mem_nil

/-- The first pass binds the uplink to the advertised interface, the second to the port that names
it back. -/
theorem resolveLldpLinks_not_idempotent :
    let inv := pairedInventory (some (.interfaceName "lag1"))
    let once := inv.resolveLldpLinks (fun _ => none) 5
    let twice := once.resolveLldpLinks (fun _ => none) 5
    inv.AddressLinksLocal ∧ once.interfaces.rows.map (·.base.neighbor) =
        [some (.interface 202), some (.interface 101), none] ∧
      twice.interfaces.rows.map (·.base.neighbor) =
        [some (.interface 201), some (.interface 101), none] ∧ twice ≠ once := by
  intro inv once twice
  have honce : once.interfaces.rows.map (·.base.neighbor) =
      [some (.interface 202), some (.interface 101), none] := by decide
  have htwice : twice.interfaces.rows.map (·.base.neighbor) =
      [some (.interface 201), some (.interface 101), none] := by decide
  refine ⟨pairedInventory_addressLinksLocal _, honce, htwice, ?_⟩
  intro h
  rw [h, honce] at htwice
  exact absurd htwice (by decide)

/-- Without an advertised port the pair decides in both passes. -/
theorem pairedInventory_idempotent :
    (pairedInventory none).AddressLinksLocal ∧
      ((pairedInventory none).resolveLldpLinks (fun _ => none) 5).resolveLldpLinks
          (fun _ => none) 5 = (pairedInventory none).resolveLldpLinks (fun _ => none) 5 := by
  have hlocal := pairedInventory_addressLinksLocal none
  refine ⟨hlocal, (resolveLldpLinks_idempotent_iff _ _ 5 hlocal).mpr ?_⟩
  have hsilent : ∀ i ∈ (pairedInventory none).interfaces.rows, ∀ hostId,
      (pairedInventory none).advertisedPort (fun _ => none) i hostId = .noStrategy := by
    simp [pairedInventory, switchPortRow, advertisedPort, IdentityResolution.id?]
  intro i hi _ hostId id _ _ _ _ hadv
  rw [hsilent i hi hostId] at hadv
  cases hadv

end NetworkInventory
end Scanopy
