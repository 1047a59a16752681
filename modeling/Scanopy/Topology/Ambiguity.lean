import Scanopy.Topology.Resolver

/-! Whether an advertised identifier has one answer. The rows of a query come in no particular
order; some lookups count their matches, for the others the answer depends on the order unless the
rows agree. -/

namespace Scanopy
open List Option Lookup IdentityResolution

namespace NetworkInventory

/-- The same rows, which the store returns in another order. -/
def Reorders (inv inv' : NetworkInventory) : Prop :=
  inv.hosts.rows.Perm inv'.hosts.rows ∧ inv.ipAddresses.rows.Perm inv'.ipAddresses.rows ∧
    inv.interfaces.rows.Perm inv'.interfaces.rows

/-- An identifier that a neighbour has advertised, or that a bridge has learned, and where it is
looked up. -/
inductive Query
  | chassisId (chassisId : LldpChassisId) (networkId : Uuid) (sysName : Option String)
  | portId (portId : LldpPortId) (hostId : Uuid)
  /-- The device id of CDP, a system name. -/
  | deviceId (deviceId : String) (networkId : Uuid)
  /-- The port id of CDP, or the port description of LLDP. -/
  | portName (name : String) (hostId : Uuid)
  | fdbHost (mac : String) (networkId : Uuid)
  | fdbPort (mac : String) (hostId : Uuid)

section ParseMac
variable (parseMac : String → Option MacAddress)

def answer (q : Query) (inv : NetworkInventory) : IdentityResolution :=
  match q with
  | .chassisId c networkId sysName => inv.resolveHostId parseMac c networkId sysName
  | .portId p hostId => inv.resolveIfEntryId parseMac p hostId
  | .deviceId d networkId => .found (inv.findHostBySysName d networkId)
  | .portName name hostId => .found (inv.findIfEntryByName name hostId)
  | .fdbHost mac networkId => .found (inv.findHostByMac parseMac mac networkId)
  | .fdbPort mac hostId => inv.findIfEntryByMac parseMac mac hostId

def MacAddressRowsAgree (inv : NetworkInventory) (mac : String) (networkId : Uuid) : Prop :=
  ∀ macAddr, parseMac mac = some macAddr → ∀ a ∈ inv.ipAddresses, ∀ a' ∈ inv.ipAddresses,
    (a.isLive && a.base.networkId = networkId && a.base.macAddress = some macAddr) = true →
    (a'.isLive && a'.base.networkId = networkId && a'.base.macAddress = some macAddr) = true →
    a.base.hostId = a'.base.hostId

def IpAddressRowsAgree (inv : NetworkInventory) (ip : IpAddr) (networkId : Uuid) : Prop :=
  ∀ a ∈ inv.ipAddresses, ∀ a' ∈ inv.ipAddresses,
    (a.isLive && a.base.networkId = networkId && a.base.ipAddress = ip) = true →
    (a'.isLive && a'.base.networkId = networkId && a'.base.ipAddress = ip) = true →
    a.base.hostId = a'.base.hostId

def IfDescrRowsAgree (inv : NetworkInventory) (name : String) (networkId : Uuid) : Prop :=
  ∀ i ∈ inv.interfaces, ∀ i' ∈ inv.interfaces,
    (i.isLive && i.base.networkId = networkId && i.base.ifDescr = name) = true →
    (i'.isLive && i'.base.networkId = networkId && i'.base.ifDescr = name) = true →
    i.base.hostId = i'.base.hostId

def LinkedRowsAgree (inv : NetworkInventory) (ip : IpAddr) (hostId : Uuid) : Prop :=
  ∀ a ∈ inv.ipAddresses, addressTier ip hostId a = true →
    ∀ i ∈ inv.interfaces, linkedTier a.id i = true →
      ∀ a' ∈ inv.ipAddresses, addressTier ip hostId a' = true →
        (∃ i' ∈ inv.interfaces, linkedTier a'.id i' = true) ∧
          ∀ i' ∈ inv.interfaces, linkedTier a'.id i' = true → i'.id = i.id

def localPortTiers (id : String) (hostId : Uuid) : List (SnmpInterface → Bool) :=
  nameTiers id hostId ++ ((parseI32 id).map (ifIndexTier · hostId)).toList

def FirstRowsAgree (inv : NetworkInventory) : Query → Prop
  | .chassisId (.macAddress mac) networkId _ => inv.MacAddressRowsAgree parseMac mac networkId
  | .chassisId (.networkAddress ip) networkId _ => inv.IpAddressRowsAgree ip networkId
  | .chassisId (.interfaceName name) networkId _ => inv.IfDescrRowsAgree name networkId
  | .chassisId _ _ _ => True
  | .portId (.macAddress _) _ => True
  | .portId (.networkAddress ip) hostId => inv.LinkedRowsAgree ip hostId
  | .portId (.interfaceAlias id) hostId | .portId (.interfaceName id) hostId
  | .portId (.portComponent id) hostId | .portId (.agentCircuitId id) hostId
  | .portId (.locallyAssigned id) hostId =>
    trim id ≠ "" → TiersAgree (localPortTiers (trim id) hostId) (·.id) inv.interfaces.rows
  | .deviceId _ _ => True
  | .portName name hostId => TiersAgree (nameTiers name hostId) (·.id) inv.interfaces.rows
  | .fdbHost mac networkId => inv.MacAddressRowsAgree parseMac mac networkId
  | .fdbPort _ _ => True

def AnswersOnce (q : Query) (inv : NetworkInventory) : Prop :=
  OrderIndependent Reorders (answer parseMac q) inv

end ParseMac

section Orders
variable {A : Type} {inv inv' : NetworkInventory}

theorem orderIndependent_interfaces (lookup : List SnmpInterface → A) :
    OrderIndependent Reorders (fun inv => lookup inv.interfaces.rows) inv ↔
      ∀ l, inv.interfaces.rows.Perm l → lookup l = lookup inv.interfaces.rows := by
  constructor
  · intro h l hperm
    exact h { inv with interfaces := inv.interfaces.reorder l hperm } ⟨.refl _, .refl _, hperm⟩
  · exact fun h inv' hreorders => h inv'.interfaces.rows hreorders.2.2

theorem orderIndependent_ipAddresses (lookup : List IPAddress → A) :
    OrderIndependent Reorders (fun inv => lookup inv.ipAddresses.rows) inv ↔
      ∀ l, inv.ipAddresses.rows.Perm l → lookup l = lookup inv.ipAddresses.rows := by
  constructor
  · intro h l hperm
    exact h { inv with ipAddresses := inv.ipAddresses.reorder l hperm } ⟨.refl _, hperm, .refl _⟩
  · exact fun h inv' hreorders => h inv'.ipAddresses.rows hreorders.2.1

theorem findHostByChassisId_reorders (h : Reorders inv inv') (chassisId : String)
    (networkId : Uuid) :
    inv'.findHostByChassisId chassisId networkId = inv.findHostByChassisId chassisId networkId := by
  rw [findHostByChassisId, findHostByChassisId, onlyMatch_perm (h.1.filter _)]

theorem findHostBySysName_reorders (h : Reorders inv inv') (sysName : String) (networkId : Uuid) :
    inv'.findHostBySysName sysName networkId = inv.findHostBySysName sysName networkId := by
  rw [findHostBySysName, findHostBySysName, onlyMatch_perm (h.1.filter _)]

theorem findIfEntryByMacAddr_eq_of_perm {mac : MacAddress} {hostId : Uuid}
    (h : (inv.interfacesByMac mac hostId).Perm (inv'.interfacesByMac mac hostId)) :
    inv'.findIfEntryByMacAddr mac hostId = inv.findIfEntryByMacAddr mac hostId := by
  rw [findIfEntryByMacAddr, findIfEntryByMacAddr]
  match hl : inv.interfacesByMac mac hostId, hl' : inv'.interfacesByMac mac hostId with
  | [], l' =>
    rw [hl, hl'] at h
    rw [nil_perm.mp h]
  | [i], l' =>
    rw [hl, hl'] at h
    rw [singleton_perm.mp h]
  | i :: j :: l, [] =>
    rw [hl, hl'] at h
    exact absurd h.length_eq (by simp)
  | i :: j :: l, [i'] =>
    rw [hl, hl'] at h
    exact absurd h.length_eq (by simp)
  | i :: j :: l, i' :: j' :: l' => rfl

theorem findIfEntryByMac_reorders (h : Reorders inv inv') (parseMac : String → Option MacAddress)
    (mac : String) (hostId : Uuid) :
    inv'.findIfEntryByMac parseMac mac hostId = inv.findIfEntryByMac parseMac mac hostId := by
  rw [findIfEntryByMac, findIfEntryByMac]
  cases parseMac mac with
  | none => rfl
  | some macAddr => exact findIfEntryByMacAddr_eq_of_perm (h.2.2.filter _)

end Orders

theorem found_injective : Function.Injective IdentityResolution.found := by
  intro o o' h
  cases o with
  | none =>
    cases o' with
    | none => rfl
    | some id => exact absurd h (by simp [found])
  | some id =>
    cases o' with
    | none => exact absurd h (by simp [found])
    | some id' =>
      rw [found, found,
        resolved.injEq] at h
      rw [h]

section Lookups
variable {inv : NetworkInventory} (parseMac : String → Option MacAddress)
variable {a : IPAddress} {ip : IpAddr} {inv' : NetworkInventory} {hostId : Uuid}

theorem findHostByIp_orderIndependent_iff (ip : IpAddr) (networkId : Uuid) :
    OrderIndependent Reorders (fun inv => inv.findHostByIp ip networkId) inv ↔
      inv.IpAddressRowsAgree ip networkId := by
  unfold findHostByIp
  rw [orderIndependent_ipAddresses (fun l => (l.find? _).map _), map_find?_perm_iff]
  rfl

theorem findHostByIfName_orderIndependent_iff (name : String) (networkId : Uuid) :
    OrderIndependent Reorders (fun inv => inv.findHostByIfName name networkId) inv ↔
      inv.IfDescrRowsAgree name networkId := by
  unfold findHostByIfName
  rw [orderIndependent_interfaces (fun l => (l.find? _).map _), map_find?_perm_iff]
  rfl

theorem findHostByMac_orderIndependent_iff (mac : String) (networkId : Uuid) :
    OrderIndependent Reorders (fun inv => inv.findHostByMac parseMac mac networkId) inv ↔
      inv.MacAddressRowsAgree parseMac mac networkId := by
  unfold findHostByMac MacAddressRowsAgree
  cases parseMac mac with
  | none => exact ⟨fun _ _ h => absurd h (by simp), fun _ _ _ => rfl⟩
  | some macAddr =>
    have hcounted : OrderIndependent Reorders (fun inv => onlyMatch ((inv.interfaces.rows.filter
        fun i : SnmpInterface => i.isLive && i.base.networkId = networkId &&
          i.base.macAddress = some macAddr).map (·.base.hostId)).dedup) inv := by
      intro inv' h
      exact onlyMatch_perm ((h.2.2.filter _).map _).dedup
    have hrows : ∀ inv', Reorders inv inv' →
        ((inv'.ipAddresses.rows.find? fun a => a.isLive && a.base.networkId = networkId &&
          a.base.macAddress = some macAddr).map (·.base.hostId)).isNone =
        ((inv.ipAddresses.rows.find? fun a => a.isLive && a.base.networkId = networkId &&
          a.base.macAddress = some macAddr).map (·.base.hostId)).isNone := by
      intro inv' h
      rw [isNone_map, isNone_map, find?_isNone_perm h.2.1]
    refine (orderIndependent_or _ _ hrows).trans ?_
    rw [orderIndependent_ipAddresses (fun l => (l.find? _).map _), map_find?_perm_iff]
    constructor
    · rintro ⟨h, -⟩ _ ⟨⟩
      exact h
    · exact fun h => ⟨h macAddr rfl, fun _ => hcounted⟩

theorem findIfEntryByName_orderIndependent_iff (name : String) (hostId : Uuid) :
    OrderIndependent Reorders (fun inv => inv.findIfEntryByName name hostId) inv ↔
      TiersAgree (nameTiers name hostId) (·.id) inv.interfaces.rows := by
  unfold findIfEntryByName
  rw [orderIndependent_interfaces (firstOfTiers _ _), firstOfTiers_perm_iff]

theorem resolveDeviceLocalPort_eq (inv : NetworkInventory) {id : String} (hid : trim id ≠ "")
    (hostId : Uuid) : inv.resolveDeviceLocalPort id hostId =
      .found (firstOfTiers (localPortTiers (trim id) hostId) (·.id) inv.interfaces.rows) := by
  simp only [resolveDeviceLocalPort]
  rw [if_neg hid, localPortTiers, firstOfTiers_append]
  show _ = found ((inv.findIfEntryByName (trim id) hostId).or _)
  cases inv.findIfEntryByName (trim id) hostId with
  | some interfaceId => rfl
  | none =>
    cases parseI32 (trim id) with
    | none => rfl
    | some ifIndex =>
      show found (inv.findIfEntryByIfIndex ifIndex hostId) =
        found (firstOfTiers [ifIndexTier ifIndex hostId] _ _)
      rw [firstOfTiers_cons]
      show _ = found ((inv.findIfEntryByIfIndex ifIndex hostId).or none)
      rw [or_none]

theorem resolveDeviceLocalPort_orderIndependent_iff (id : String) (hostId : Uuid) :
    OrderIndependent Reorders (fun inv => inv.resolveDeviceLocalPort id hostId) inv ↔
      (trim id ≠ "" → TiersAgree (localPortTiers (trim id) hostId) (·.id) inv.interfaces.rows) := by
  by_cases hid : trim id = ""
  · have hblank : ∀ inv : NetworkInventory, inv.resolveDeviceLocalPort id hostId = .noStrategy := by
      intro inv
      simp only [resolveDeviceLocalPort]
      rw [if_pos hid]
    simp only [hblank]
    exact ⟨fun _ h => absurd hid h, fun _ _ _ => rfl⟩
  · simp only [resolveDeviceLocalPort_eq _ hid]
    rw [orderIndependent_comp found_injective,
      orderIndependent_interfaces (firstOfTiers _ _), firstOfTiers_perm_iff]
    exact ⟨fun h _ => h, fun h => h hid⟩

theorem findIfEntryByIp_eq_some {id : Uuid}
    (h : inv.findIfEntryByIp ip hostId = some id) :
    ∃ a ∈ inv.ipAddresses, addressTier ip hostId a = true ∧
      ∃ i ∈ inv.interfaces, linkedTier a.id i = true ∧ i.id = id := by
  obtain ⟨a, ha, h⟩ := bind_eq_some_iff.mp h
  obtain ⟨i, hi, hid⟩ := map_eq_some_iff.mp h
  exact ⟨a, mem_of_find?_eq_some ha, find?_some ha, i, mem_of_find?_eq_some hi, find?_some hi, hid⟩

theorem findIfEntryByIp_of_agree
    (hagree : inv.LinkedRowsAgree ip hostId) (ha : a ∈ inv.ipAddresses)
    (htier : addressTier ip hostId a = true) {i : SnmpInterface} (hi : i ∈ inv.interfaces)
    (hlinked : linkedTier a.id i = true) : inv.findIfEntryByIp ip hostId = some i.id := by
  obtain ⟨a', ha'⟩ := isSome_iff_exists.mp (find?_isSome.mpr ⟨a, ha, htier⟩)
  obtain ⟨⟨j, hj, hjlinked⟩, hsame⟩ := hagree a ha htier i hi hlinked a'
    (mem_of_find?_eq_some ha') (find?_some ha')
  obtain ⟨i', hi'⟩ := isSome_iff_exists.mp (find?_isSome.mpr ⟨j, hj, hjlinked⟩)
  have hid := hsame i' (mem_of_find?_eq_some hi') (find?_some hi')
  unfold findIfEntryByIp
  rw [ha', bind_eq_bind, bind_some, hi', map_some, hid]

theorem LinkedRowsAgree.reorders
    (h : inv.LinkedRowsAgree ip hostId) (hreorders : Reorders inv inv') :
    inv'.LinkedRowsAgree ip hostId := by
  intro a ha htier i hi hlinked a' ha' htier'
  obtain ⟨⟨j, hj, hjlinked⟩, hsame⟩ := h a (hreorders.2.1.mem_iff.mpr ha) htier i
    (hreorders.2.2.mem_iff.mpr hi) hlinked a' (hreorders.2.1.mem_iff.mpr ha') htier'
  exact ⟨⟨j, hreorders.2.2.mem_iff.mp hj, hjlinked⟩,
    fun i' hi' => hsame i' (hreorders.2.2.mem_iff.mpr hi')⟩

theorem exists_reorders_findIfEntryByIp
    (ha : a ∈ inv.ipAddresses) (htier : addressTier ip hostId a = true)
    (l : List SnmpInterface) (hl : inv.interfaces.rows.Perm l) :
    ∃ inv', Reorders inv inv' ∧
      inv'.findIfEntryByIp ip hostId = (l.find? (linkedTier a.id)).map (·.id) := by
  obtain ⟨rows, hperm, hfind⟩ := exists_perm_find? ha htier
  refine ⟨⟨inv.hosts, inv.ipAddresses.reorder rows hperm, inv.interfaces.reorder l hl⟩,
    ⟨.refl _, hperm, hl⟩, ?_⟩
  show (rows.find? (addressTier ip hostId)).bind _ = _
  rw [hfind]
  rfl

theorem findIfEntryByIp_orderIndependent_iff (ip : IpAddr) (hostId : Uuid) :
    OrderIndependent Reorders (fun inv => inv.findIfEntryByIp ip hostId) inv ↔
      inv.LinkedRowsAgree ip hostId := by
  constructor
  · intro h a ha htier i hi hlinked a' ha' htier'
    obtain ⟨l, hl, hfind⟩ := exists_perm_find? hi hlinked
    obtain ⟨inv₁, hreorders₁, hanswer₁⟩ := exists_reorders_findIfEntryByIp ha htier l hl
    rw [hfind, map_some] at hanswer₁
    have hall : ∀ l', inv.interfaces.rows.Perm l' →
        (l'.find? (linkedTier a'.id)).map (·.id) = some i.id := by
      intro l' hl'
      obtain ⟨inv₂, hreorders₂, hanswer₂⟩ := exists_reorders_findIfEntryByIp ha' htier' l' hl'
      rw [← hanswer₂, ← hanswer₁]
      exact (h inv₂ hreorders₂).trans (h inv₁ hreorders₁).symm
    constructor
    · obtain ⟨i', hi', -⟩ := map_eq_some_iff.mp (hall _ (.refl _))
      exact ⟨i', mem_of_find?_eq_some hi', find?_some hi'⟩
    · intro i' hi' hlinked'
      obtain ⟨l', hl', hfind'⟩ := exists_perm_find? hi' hlinked'
      have hid := hall l' hl'
      rw [hfind', map_some] at hid
      exact some.inj hid
  · intro hagree inv' hreorders
    refine Option.ext fun id => ?_
    constructor
    · intro hid
      obtain ⟨a, ha, htier, i, hi, hlinked, rfl⟩ := findIfEntryByIp_eq_some hid
      exact findIfEntryByIp_of_agree hagree (hreorders.2.1.mem_iff.mpr ha) htier
        (hreorders.2.2.mem_iff.mpr hi) hlinked
    · intro hid
      obtain ⟨a, ha, htier, i, hi, hlinked, rfl⟩ := findIfEntryByIp_eq_some hid
      exact findIfEntryByIp_of_agree (hagree.reorders hreorders) (hreorders.2.1.mem_iff.mp ha)
        htier (hreorders.2.2.mem_iff.mp hi) hlinked

theorem findHostByMac_isNone_reorders (h : Reorders inv inv')
    (mac : String) (networkId : Uuid) :
    (inv'.findHostByMac parseMac mac networkId).isNone =
      (inv.findHostByMac parseMac mac networkId).isNone := by
  unfold findHostByMac
  cases parseMac mac with
  | none => rfl
  | some macAddr =>
    simp only [bind_eq_bind, bind_some, isNone_or, isNone_map,
      find?_isNone_perm h.2.1, onlyMatch_perm ((h.2.2.filter _).map _).dedup]

theorem findHostBySubtype_isNone_reorders (h : Reorders inv inv')
    (networkId : Uuid) (c : LldpChassisId) :
    (inv'.findHostBySubtype parseMac networkId c).isNone =
      (inv.findHostBySubtype parseMac networkId c).isNone := by
  cases c with
  | macAddress mac => exact findHostByMac_isNone_reorders parseMac h mac networkId
  | networkAddress ip =>
    simp only [findHostBySubtype, findHostByIp, isNone_map, find?_isNone_perm h.2.1]
  | interfaceName name =>
    simp only [findHostBySubtype, findHostByIfName, isNone_map, find?_isNone_perm h.2.2]
  | chassisComponent id | locallyAssigned id =>
    simp only [findHostBySubtype, findHostByChassisId_reorders h]
  | interfaceAlias id | portComponent id => rfl

theorem resolveHostId_orderIndependent_iff (c : LldpChassisId) (networkId : Uuid)
    (sysName : Option String) :
    OrderIndependent Reorders (fun inv => inv.resolveHostId parseMac c networkId sysName) inv ↔
      OrderIndependent Reorders (fun inv => inv.findHostBySubtype parseMac networkId c) inv := by
  have hverdict : ∀ ran : Bool, Function.Injective fun o : Option Uuid =>
      o.elim (if ran = true then .notFound else .noStrategy) resolved := by
    intro ran o o' h
    cases o <;> cases o' <;> cases ran <;> simp_all
  have hresolve : (fun inv : NetworkInventory => inv.resolveHostId parseMac c networkId sysName) =
      fun inv => ((inv.findHostBySubtype parseMac networkId c).or
        ((if c.identifier ≠ "" then inv.findHostByChassisId c.identifier networkId else none).or
          (((sysName.map trim).filter (· ≠ "")).bind fun sysName =>
            inv.findHostBySysName sysName networkId))).elim
        (if (hasSubtypeStrategy c || c.identifier ≠ "" ||
          ((sysName.map trim).filter (· ≠ "")).isSome) = true then .notFound else .noStrategy)
        .resolved := by
    funext inv
    unfold resolveHostId
    dsimp only
    split <;> rename_i h <;> rw [h] <;> rfl
  rw [hresolve]
  refine (orderIndependent_comp (hverdict _) (fun inv : NetworkInventory =>
    (inv.findHostBySubtype parseMac networkId c).or _)).trans ?_
  rw [orderIndependent_or _ _ fun inv' h =>
    findHostBySubtype_isNone_reorders parseMac h networkId c]
  refine and_iff_left fun _ inv' h => ?_
  simp only [findHostByChassisId_reorders h, findHostBySysName_reorders h]

/-- An identifier has one answer exactly when the lookup that takes the first row, if it is one
that decides, finds rows of one host, or one interface. -/
theorem answersOnce_iff_firstRowsAgree (q : Query) (inv : NetworkInventory) :
    AnswersOnce parseMac q inv ↔ inv.FirstRowsAgree parseMac q := by
  cases q with
  | chassisId c networkId sysName =>
    refine (resolveHostId_orderIndependent_iff parseMac c networkId sysName).trans ?_
    cases c with
    | macAddress mac => exact findHostByMac_orderIndependent_iff parseMac mac networkId
    | networkAddress ip => exact findHostByIp_orderIndependent_iff ip networkId
    | interfaceName name => exact findHostByIfName_orderIndependent_iff name networkId
    | chassisComponent id | locallyAssigned id =>
      exact iff_of_true (fun inv' h => findHostByChassisId_reorders h id networkId) trivial
    | interfaceAlias id | portComponent id => exact iff_of_true (fun inv' h => rfl) trivial
  | portId p hostId =>
    cases p with
    | macAddress mac =>
      exact iff_of_true (fun inv' h => findIfEntryByMac_reorders h parseMac mac hostId) trivial
    | networkAddress ip =>
      refine (orderIndependent_comp found_injective _).trans ?_
      exact findIfEntryByIp_orderIndependent_iff ip hostId
    | interfaceAlias id | portComponent id | interfaceName id | agentCircuitId id
    | locallyAssigned id => exact resolveDeviceLocalPort_orderIndependent_iff id hostId
  | deviceId d networkId =>
    refine iff_of_true (fun inv' h => ?_) trivial
    exact congrArg found (findHostBySysName_reorders h d networkId)
  | portName name hostId =>
    refine (orderIndependent_comp found_injective _).trans ?_
    exact findIfEntryByName_orderIndependent_iff name hostId
  | fdbHost mac networkId =>
    refine (orderIndependent_comp found_injective _).trans ?_
    exact findHostByMac_orderIndependent_iff parseMac mac networkId
  | fdbPort mac hostId =>
    exact iff_of_true (fun inv' h => findIfEntryByMac_reorders h parseMac mac hostId) trivial

end Lookups

def deviceRow (id : Uuid) (name : String) : SnmpHost :=
  ⟨id, 0, 0, none, none,
    { name := name, networkId := 5, hostname := none, description := none,
      virtualizationServiceId := none, hidden := false, credentialAssignments := [] }⟩

def addressRow (id hostId subnetId : Uuid) : IPAddress :=
  ⟨id, 0, 0, none, none,
    { networkId := 5, hostId := hostId, subnetId := subnetId, ipAddress := .v4 0x0A000001,
      macAddress := none, name := none, position := 0, lastSeenAt := 0 }⟩

def sharedAddressInventory : NetworkInventory where
  hosts := ⟨[deviceRow 1 "core", deviceRow 2 "edge"], by decide⟩
  ipAddresses := ⟨[addressRow 11 1 21, addressRow 12 2 22], by decide⟩
  interfaces := .empty

def sharedAddressReordered : NetworkInventory :=
  { sharedAddressInventory with
    ipAddresses := ⟨[addressRow 12 2 22, addressRow 11 1 21], by decide⟩ }

/-- A chassis id that two hosts carry is resolved, to whichever of them comes first. -/
theorem sharedAddress_not_answersOnce :
    answer (fun _ => none) (.chassisId (.networkAddress (.v4 0x0A000001)) 5 none)
        sharedAddressInventory = .resolved 1 ∧
      (∃ a ∈ sharedAddressInventory.ipAddresses, a.isLive = true ∧ a.base.networkId = 5 ∧
        a.base.ipAddress = .v4 0x0A000001 ∧ a.base.hostId = 2) ∧
      ¬ AnswersOnce (fun _ => none) (.chassisId (.networkAddress (.v4 0x0A000001)) 5 none)
        sharedAddressInventory := by
  refine ⟨by decide, ⟨addressRow 12 2 22, by decide, by decide⟩, ?_⟩
  intro h
  have hreorders : Reorders sharedAddressInventory sharedAddressReordered :=
    ⟨.refl _, .swap _ _ [], .refl _⟩
  have hsame := h sharedAddressReordered hreorders
  exact absurd hsame (by decide)

end NetworkInventory
end Scanopy
