import Scanopy.Snmp.Queries

/-! The forwarding tables of a bridge. The table of a bridge with VLANs is collected by address
alone, so its rows for one address overwrite each other; a cell of the legacy table keeps out what
it has for the address. -/

namespace Scanopy

open List Option FdbBuilder HashMap FdbBuilder

section Tables

/-- A row of the legacy table. The index is the address; any cell can be missing. -/
structure LegacyFdbRow where
  mac : MacAddress
  address : Option SnmpValue := none
  port : Option SnmpValue := none
  status : Option SnmpValue := none
  deriving DecidableEq

/-- A row of the table with VLANs, whose index has the address behind the number of the VLAN's
database. -/
structure QbridgeFdbRow where
  fdbId : ℕ
  mac : MacAddress
  port : Option SnmpValue := none
  status : Option SnmpValue := none
  deriving DecidableEq

structure FdbTables where
  legacy : List LegacyFdbRow
  qbridge : List QbridgeFdbRow
  legacy_nodup : (legacy.map (·.mac)).Nodup
  qbridge_nodup : (qbridge.map fun r => (r.fdbId, r.mac)).Nodup

def macIndex (mac : MacAddress) : List ℕ := (macBytes mac).map BitVec.toNat

namespace FdbTables
variable (tables : FdbTables)

def legacyColumn (cell : LegacyFdbRow → Option SnmpValue) : ColumnWalk :=
  ⟨tables.legacy.filterMap fun r => (cell r).map (macIndex r.mac, ·), .endOfSubtree⟩

def qbridgeColumn (cell : QbridgeFdbRow → Option SnmpValue) : ColumnWalk :=
  ⟨tables.qbridge.filterMap fun r => (cell r).map (r.fdbId :: macIndex r.mac, ·), .endOfSubtree⟩

def walks (others : Walks) : Walks
  | .dot1dTpFdbAddress => tables.legacyColumn (·.address)
  | .dot1dTpFdbPort => tables.legacyColumn (·.port)
  | .dot1dTpFdbStatus => tables.legacyColumn (·.status)
  | .dot1qTpFdbPort => tables.qbridgeColumn (·.port)
  | .dot1qTpFdbStatus => tables.qbridgeColumn (·.status)
  | c => others c

end FdbTables

end Tables

section Addresses

theorem macOfBytes_macBytes (mac : MacAddress) : macOfBytes (macBytes mac) = mac := by
  refine BitVec.eq_of_toNat_eq ?_
  have hlt : mac.toNat < 2 ^ 48 := mac.isLt
  simp only [macOfBytes, bytesToNat, macBytes, range_succ, range_zero, map_append,
    map_cons, map_nil, nil_append, foldl_append, foldl_cons, foldl_nil,
    BitVec.toNat_ofNat]
  omega

theorem macIndex_injective : Function.Injective macIndex := by
  intro a b h
  have hbytes : macBytes a = macBytes b :=
    map_injective_iff.mpr (fun _ _ heq => BitVec.eq_of_toNat_eq heq) h
  rw [← macOfBytes_macBytes a, hbytes, macOfBytes_macBytes]

theorem length_macIndex (mac : MacAddress) : (macIndex mac).length = 6 := by
  simp [macIndex, macBytes]

theorem macOfBytes_macIndex (mac : MacAddress) :
    macOfBytes ((macIndex mac).map (BitVec.ofNat 8)) = mac := by
  have hbytes : (macIndex mac).map (BitVec.ofNat 8) = macBytes mac := by
    rw [macIndex, List.map_map]
    refine (map_congr_left fun b _ => ?_).trans (List.map_id _)
    exact BitVec.ofNat_toNat 8 b
  rw [hbytes, macOfBytes_macBytes]

theorem qbridgeFdbIndexToMac_cons (fdbId : ℕ) (mac : MacAddress) :
    qbridgeFdbIndexToMac (fdbId :: macIndex mac) = some mac := by
  have hoctets : ((macIndex mac).any fun o => 255 < o) = false := by
    refine List.any_eq_false.mpr fun o ho => ?_
    obtain ⟨b, -, rfl⟩ := List.mem_map.mp ho
    have hlt : b.toNat < 2 ^ 8 := b.isLt
    simp only [decide_eq_true_eq]
    omega
  rw [qbridgeFdbIndexToMac, if_neg (by simp [length_macIndex])]
  simp only [tail_cons, hoctets, Bool.false_eq_true, if_false, macOfBytes_macIndex]

end Addresses

section Collected

theorem map_filter_column {R K V : Type*} [DecidableEq K] (rows : List R) (index : R → List ℕ)
    (key : List ℕ → K) (cell : R → Option V) (k : K) :
    ((rows.filterMap fun r => (cell r).map (index r, ·)).filter fun e => key e.1 = k).map Prod.snd =
      (rows.filter fun r => key (index r) = k).filterMap cell := by
  induction rows with
  | nil => rfl
  | cons r rows ih =>
    by_cases hkey : key (index r) = k
    · rw [filter_cons_of_pos (by simpa using hkey)]
      cases hcell : cell r with
      | none =>
        rw [filterMap_cons_none (by rw [hcell]; rfl), filterMap_cons_none hcell, ih]
      | some v =>
        rw [filterMap_cons_some (by rw [hcell]; rfl), filterMap_cons_some hcell,
          filter_cons_of_pos (by simpa using hkey), map_cons, ih]
    · rw [filter_cons_of_neg (by simpa using hkey)]
      cases hcell : cell r with
      | none => rw [filterMap_cons_none (by rw [hcell]; rfl), ih]
      | some v =>
        rw [filterMap_cons_some (by rw [hcell]; rfl), filter_cons_of_neg (by simpa using hkey), ih]

theorem FdbBuilder.read_read (c : SnmpColumn) (v v' : SnmpValue) (b : FdbBuilder) :
    FdbBuilder.read c v (FdbBuilder.read c v' b) = FdbBuilder.read c v b := by
  cases c <;> rfl

def readQbridgeRow (c : SnmpColumn) (m : HashMap (List ℕ) FdbBuilder) (row : List ℕ × SnmpValue) :
    HashMap (List ℕ) FdbBuilder :=
  match qbridgeFdbIndexToMac row.1 with
  | some mac => m.alter row.1.tail {} fun b =>
    FdbBuilder.read c row.2 { b with macAddress := some mac }
  | none => m

theorem walkQbridgeFdb_eq (walks : Walks) : walkQbridgeFdb walks =
    (walks .dot1qTpFdbStatus).rows.foldl (readQbridgeRow .dot1qTpFdbStatus)
      ((walks .dot1qTpFdbPort).rows.foldl (readQbridgeRow .dot1qTpFdbPort) HashMap.empty) := rfl

namespace FdbTables
variable (tables : FdbTables) (others : Walks) (mac : MacAddress)
variable {k : List ℕ}

def lastLegacy (cell : LegacyFdbRow → Option SnmpValue) : Option SnmpValue :=
  ((tables.legacy.filter fun r => r.mac = mac).filterMap cell).getLast?

def lastQbridge (cell : QbridgeFdbRow → Option SnmpValue) : Option SnmpValue :=
  ((tables.qbridge.filter fun r => r.mac = mac).filterMap cell).getLast?

theorem get_legacyColumn (c : SnmpColumn) (cell : LegacyFdbRow → Option SnmpValue)
    (m : HashMap (List ℕ) FdbBuilder) :
    ((tables.legacyColumn cell).rows.foldl (fun m row =>
      if row.1.length = 6 then m.alter row.1 {} (FdbBuilder.read c row.2) else m) m).get (macIndex mac) =
      ((tables.lastLegacy mac cell).map fun v =>
        FdbBuilder.read c v ((m.get (macIndex mac)).getD {})).or (m.get (macIndex mac)) := by
  have hfold : (tables.legacyColumn cell).rows.foldl (fun m row =>
      if row.1.length = 6 then m.alter row.1 {} (read c row.2) else m) m =
        (tables.legacyColumn cell).rows.foldl (fun m row =>
          m.alter row.1 {} (read c row.2)) m := by
    refine foldl_ext _ _ _ fun m row hrow => ?_
    obtain ⟨r, -, hr⟩ := mem_filterMap.mp hrow
    obtain ⟨v, -, rfl⟩ := map_eq_some_iff.mp hr
    exact if_pos (length_macIndex r.mac)
  rw [hfold, get_foldl_alter (fun row : List ℕ × SnmpValue => row.1) Prod.snd {}
    (fun _ => read c) (fun _ => read_read c)]
  have hcells := map_filter_column tables.legacy (fun r => macIndex r.mac) id cell (macIndex mac)
  simp only [id, macIndex_injective.eq_iff] at hcells
  rw [legacyColumn, hcells, lastLegacy]

theorem get_qbridgeColumn (c : SnmpColumn) (cell : QbridgeFdbRow → Option SnmpValue)
    (m : HashMap (List ℕ) FdbBuilder) :
    ((tables.qbridgeColumn cell).rows.foldl (readQbridgeRow c) m).get (macIndex mac) =
      ((tables.lastQbridge mac cell).map fun v => FdbBuilder.read c v
        { (m.get (macIndex mac)).getD {} with macAddress := some mac }).or (m.get (macIndex mac)) := by
  have hfold : (tables.qbridgeColumn cell).rows.foldl (readQbridgeRow c) m =
        (tables.qbridgeColumn cell).rows.foldl (fun m row =>
          m.alter row.1.tail {} fun b => read c row.2
            { b with macAddress := some (macOfBytes (row.1.tail.map (BitVec.ofNat 8))) }) m := by
    refine foldl_ext _ _ _ fun m row hrow => ?_
    obtain ⟨r, -, hr⟩ := mem_filterMap.mp hrow
    obtain ⟨v, -, rfl⟩ := map_eq_some_iff.mp hr
    simp only [readQbridgeRow, qbridgeFdbIndexToMac_cons, tail_cons, macOfBytes_macIndex]
  rw [hfold, get_foldl_alter (fun row : List ℕ × SnmpValue => row.1.tail) Prod.snd {}
    (fun key v b => read c v
      { b with macAddress := some (macOfBytes (key.map (BitVec.ofNat 8))) })]
  · have hcells := map_filter_column tables.qbridge (fun r => r.fdbId :: macIndex r.mac) List.tail cell
      (macIndex mac)
    simp only [tail_cons, macIndex_injective.eq_iff] at hcells
    rw [qbridgeColumn, hcells, lastQbridge, macOfBytes_macIndex]
  · intro key v v' b
    cases c <;> rfl

theorem get_legacyFdb : (legacyFdb (tables.walks others)).get (macIndex mac) =
    if tables.lastLegacy mac (·.address) = none ∧ tables.lastLegacy mac (·.port) = none ∧
        tables.lastLegacy mac (·.status) = none then none
    else some {
      macAddress := (tables.lastLegacy mac (·.address)).bind SnmpValue.toMac
      port := (tables.lastLegacy mac (·.port)).bind SnmpValue.toI32
      status := (tables.lastLegacy mac (·.status)).bind SnmpValue.toI32 } := by
  simp only [legacyFdb, fdbColumns, foldl_cons, foldl_nil, walks, get_legacyColumn,
    get_empty]
  cases tables.lastLegacy mac (·.address) <;> cases tables.lastLegacy mac (·.port) <;>
    cases tables.lastLegacy mac (·.status) <;> rfl

theorem get_walkQbridgeFdb : (walkQbridgeFdb (tables.walks others)).get (macIndex mac) =
    if tables.lastQbridge mac (·.port) = none ∧ tables.lastQbridge mac (·.status) = none then none
    else some {
      macAddress := some mac
      port := (tables.lastQbridge mac (·.port)).bind SnmpValue.toI32
      status := (tables.lastQbridge mac (·.status)).bind SnmpValue.toI32 } := by
  rw [walkQbridgeFdb_eq, walks, walks, get_qbridgeColumn, get_qbridgeColumn, get_empty]
  cases tables.lastQbridge mac (·.port) <;> cases tables.lastQbridge mac (·.status) <;> rfl

theorem get_legacyFdb_eq_none (hk : ∀ mac, k ≠ macIndex mac) :
    (legacyFdb (tables.walks others)).get k = none := by
  have hcolumn : ∀ (c : SnmpColumn) cell (m : HashMap (List ℕ) FdbBuilder),
      ((tables.legacyColumn cell).rows.foldl (fun m row =>
        if row.1.length = 6 then m.alter row.1 {} (read c row.2) else m) m).get k =
          m.get k := by
    intro c cell m
    refine get_foldl_of_forall (fun m row hrow => ?_) m
    obtain ⟨r, -, hr⟩ := mem_filterMap.mp hrow
    obtain ⟨v, -, rfl⟩ := map_eq_some_iff.mp hr
    split
    · rw [get_alter, if_neg (hk r.mac)]
    · rfl
  simp only [legacyFdb, fdbColumns, foldl_cons, foldl_nil, walks, hcolumn, get_empty]

theorem get_walkQbridgeFdb_eq_none (hk : ∀ mac, k ≠ macIndex mac) :
    (walkQbridgeFdb (tables.walks others)).get k = none := by
  have hcolumn : ∀ c cell m,
      ((tables.qbridgeColumn cell).rows.foldl (readQbridgeRow c) m).get k = m.get k := by
    intro c cell m
    refine get_foldl_of_forall (fun m row hrow => ?_) m
    obtain ⟨r, -, hr⟩ := mem_filterMap.mp hrow
    obtain ⟨v, -, rfl⟩ := map_eq_some_iff.mp hr
    simp only [readQbridgeRow, qbridgeFdbIndexToMac_cons, tail_cons]
    rw [get_alter, if_neg (hk r.mac)]
  rw [walkQbridgeFdb_eq, walks, walks, hcolumn, hcolumn, get_empty]

theorem lastLegacy_of_mem {r : LegacyFdbRow} (hr : r ∈ tables.legacy)
    (cell : LegacyFdbRow → Option SnmpValue) : tables.lastLegacy r.mac cell = cell r := by
  have hcells : ∀ v, v ∈ (tables.legacy.filter fun r' => r'.mac = r.mac).filterMap cell ↔
      cell r = some v := by
    intro v
    rw [mem_filterMap]
    constructor
    · rintro ⟨r', hr', hcell⟩
      obtain ⟨hmem, hmac⟩ := mem_filter.mp hr'
      rwa [inj_on_of_nodup_map tables.legacy_nodup hmem hr (of_decide_eq_true hmac)] at hcell
    · exact fun hcell => ⟨r, mem_filter.mpr ⟨hr, decide_eq_true rfl⟩, hcell⟩
  rw [lastLegacy]
  cases hlast : ((tables.legacy.filter fun r' => r'.mac = r.mac).filterMap cell).getLast? with
  | none =>
    rw [getLast?_eq_none_iff] at hlast
    rw [hlast] at hcells
    exact (eq_none_iff_forall_ne_some.mpr fun v hv => not_mem_nil ((hcells v).mpr hv)).symm
  | some v => exact ((hcells v).mp (mem_of_getLast? hlast)).symm

theorem lastLegacy_eq_none {cell : LegacyFdbRow → Option SnmpValue}
    (h : ∀ r ∈ tables.legacy, r.mac ≠ mac) : tables.lastLegacy mac cell = none := by
  have hrows : tables.legacy.filter (fun r => r.mac = mac) = [] :=
    filter_eq_nil_iff.mpr fun r hr => by simpa using h r hr
  rw [lastLegacy, hrows]
  rfl

end FdbTables

end Collected

section Merged

def ReadsAs (port status : Option SnmpValue) (p s : ℤ) : Prop :=
  port.bind SnmpValue.toI32 = some p ∧ status.bind SnmpValue.toI32 = some s

def IsUsable (port status : Option SnmpValue) : Prop := ∃ p s, ReadsAs port status p s ∧ (s = 3 ∨ s = 5)

theorem FdbBuilder.build_eq_some {ports : HashMap ℤ ℤ} {b : FdbBuilder} {e : BridgeFdbEntry} :
    b.build ports = some e ↔ b.macAddress = some e.macAddress ∧ b.port = some e.bridgePort ∧
      b.status = some e.status ∧ (e.status = 3 ∨ e.status = 5) ∧ e.ifIndex = ports.get e.bridgePort := by
  obtain ⟨mac, port, status⟩ := b
  obtain ⟨emac, eport, eindex, estatus⟩ := e
  cases status with
  | none => simp [build]
  | some s =>
    by_cases hs : s = 3 ∨ s = 5
    · have hnot : ¬(s ≠ 3 ∧ s ≠ 5) := by tauto
      simp only [build, getD_some, if_neg hnot, bind_eq_some_iff,
        map_eq_some_iff, BridgeFdbEntry.mk.injEq, some.injEq]
      constructor
      · rintro ⟨p, rfl, m, rfl, rfl, rfl, rfl, rfl⟩
        exact ⟨rfl, rfl, rfl, hs, rfl⟩
      · rintro ⟨rfl, rfl, rfl, -, rfl⟩
        exact ⟨eport, rfl, emac, rfl, rfl, rfl, rfl, rfl⟩
    · have hbuild : s ≠ 3 ∧ s ≠ 5 := by tauto
      simp only [build, getD_some, if_pos hbuild, some.injEq, false_iff, reduceCtorEq]
      rintro ⟨-, -, rfl, hs', -⟩
      exact hs hs'

namespace FdbTables
variable (tables : FdbTables)

def Touches (mac : MacAddress) : Prop :=
  ∃ r ∈ tables.legacy, r.mac = mac ∧ (r.address.isSome ∨ r.port.isSome ∨ r.status.isSome)

theorem touches_iff {mac : MacAddress} : tables.Touches mac ↔
    ¬(tables.lastLegacy mac (·.address) = none ∧ tables.lastLegacy mac (·.port) = none ∧
      tables.lastLegacy mac (·.status) = none) := by
  constructor
  · rintro ⟨r, hr, rfl, hcell⟩ ⟨haddress, hport, hstatus⟩
    rw [tables.lastLegacy_of_mem hr] at haddress hport hstatus
    simp [haddress, hport, hstatus] at hcell
  · intro h
    by_cases hrow : ∃ r ∈ tables.legacy, r.mac = mac
    · obtain ⟨r, hr, rfl⟩ := hrow
      simp only [tables.lastLegacy_of_mem hr] at h
      refine ⟨r, hr, rfl, ?_⟩
      simp only [isSome_iff_ne_none]
      tauto
    · push Not at hrow
      exact absurd ⟨tables.lastLegacy_eq_none mac hrow, tables.lastLegacy_eq_none mac hrow,
        tables.lastLegacy_eq_none mac hrow⟩ h

theorem mem_records {others : Walks} {bridgePorts : SnmpCollection (HashMap ℤ ℤ)}
    {order : List (List ℕ)}
    (horder : ((legacyFdb (tables.walks others)).orInsertAll
      (walkQbridgeFdb (tables.walks others))).Enumerates order) {e : BridgeFdbEntry} :
    e ∈ (queryBridgeFdb (tables.walks others) bridgePorts order).records ↔
      ((∃ r ∈ tables.legacy, r.address.bind SnmpValue.toMac = some e.macAddress ∧
          ReadsAs r.port r.status e.bridgePort e.status) ∨
        (¬tables.Touches e.macAddress ∧ ReadsAs (tables.lastQbridge e.macAddress (·.port))
          (tables.lastQbridge e.macAddress (·.status)) e.bridgePort e.status)) ∧
      (e.status = 3 ∨ e.status = 5) ∧ e.ifIndex = bridgePorts.records.get e.bridgePort := by
  have hmem : e ∈ (queryBridgeFdb (tables.walks others) bridgePorts order).records ↔
      ∃ k b, ((legacyFdb (tables.walks others)).get k).or
        ((walkQbridgeFdb (tables.walks others)).get k) = some b ∧
          b.build bridgePorts.records = some e := by
    simp only [queryBridgeFdb, mem_filterMap, Prod.exists, horder.mem_iterate,
      get_orInsertAll]
  rw [hmem]
  constructor
  · rintro ⟨k, b, hget, hbuild⟩
    obtain ⟨hmac, hport, hstatus, hkind, hindex⟩ := build_eq_some.mp hbuild
    refine ⟨?_, hkind, hindex⟩
    by_cases hk : ∃ mac, k = macIndex mac
    · obtain ⟨mac, rfl⟩ := hk
      rw [tables.get_legacyFdb, tables.get_walkQbridgeFdb] at hget
      by_cases htouches : tables.Touches mac
      · obtain ⟨r, hr, rfl, -⟩ := id htouches
        rw [if_neg (tables.touches_iff.mp htouches), some_or, some.injEq] at hget
        subst hget
        simp only [tables.lastLegacy_of_mem hr] at hmac hport hstatus
        exact .inl ⟨r, hr, hmac, hport, hstatus⟩
      · have hnone := not_not.mp (mt tables.touches_iff.mpr htouches)
        rw [if_pos hnone, none_or] at hget
        split at hget
        · exact nomatch hget
        · obtain rfl := some.inj hget
          obtain rfl := some.inj hmac
          exact .inr ⟨htouches, hport, hstatus⟩
    · push Not at hk
      rw [tables.get_legacyFdb_eq_none others hk, tables.get_walkQbridgeFdb_eq_none others hk] at hget
      exact nomatch hget
  · rintro ⟨⟨r, hr, hmac, hport, hstatus⟩ | ⟨htouches, hport, hstatus⟩, hkind, hindex⟩
    · have htouches : tables.Touches r.mac := by
        refine ⟨r, hr, rfl, .inl ?_⟩
        obtain ⟨v, hv, -⟩ := bind_eq_some_iff.mp hmac
        rw [hv, isSome_some]
      refine ⟨macIndex r.mac, ⟨r.address.bind SnmpValue.toMac, r.port.bind SnmpValue.toI32,
        r.status.bind SnmpValue.toI32⟩, ?_, build_eq_some.mpr
          ⟨hmac, hport, hstatus, hkind, hindex⟩⟩
      rw [tables.get_legacyFdb, if_neg (tables.touches_iff.mp htouches), some_or]
      simp only [tables.lastLegacy_of_mem hr]
    · have hnone := not_not.mp (mt tables.touches_iff.mpr htouches)
      have hsome : ¬(tables.lastQbridge e.macAddress (·.port) = none ∧
          tables.lastQbridge e.macAddress (·.status) = none) := by
        rintro ⟨hnone, -⟩
        rw [hnone] at hport
        exact nomatch hport
      refine ⟨macIndex e.macAddress, ⟨some e.macAddress,
        (tables.lastQbridge e.macAddress (·.port)).bind SnmpValue.toI32,
        (tables.lastQbridge e.macAddress (·.status)).bind SnmpValue.toI32⟩, ?_,
        build_eq_some.mpr ⟨rfl, hport, hstatus, hkind, hindex⟩⟩
      rw [tables.get_legacyFdb, tables.get_walkQbridgeFdb, if_pos hnone, none_or, if_neg hsome]

def HasUsableRow (mac : MacAddress) : Prop :=
  (∃ r ∈ tables.legacy, r.mac = mac ∧ IsUsable r.port r.status) ∨
    ∃ r ∈ tables.qbridge, r.mac = mac ∧ IsUsable r.port r.status

def HasRow (mac : MacAddress) (p s : ℤ) : Prop :=
  (∃ r ∈ tables.legacy, r.address.bind SnmpValue.toMac = some mac ∧ ReadsAs r.port r.status p s) ∨
    ∃ r ∈ tables.qbridge, r.mac = mac ∧ ReadsAs r.port r.status p s

def KeepsUsableRows : Prop :=
  ∀ (others : Walks) (bridgePorts : SnmpCollection (HashMap ℤ ℤ)) (order : List (List ℕ)),
    ((legacyFdb (tables.walks others)).orInsertAll
      (walkQbridgeFdb (tables.walks others))).Enumerates order →
    (∀ mac, tables.HasUsableRow mac →
      ∃ e ∈ (queryBridgeFdb (tables.walks others) bridgePorts order).records, e.macAddress = mac) ∧
    ∀ e ∈ (queryBridgeFdb (tables.walks others) bridgePorts order).records,
      tables.HasRow e.macAddress e.bridgePort e.status

structure Collapses : Prop where
  usable : ∀ mac, tables.HasUsableRow mac →
    (∃ r ∈ tables.legacy, r.address.bind SnmpValue.toMac = some mac ∧ IsUsable r.port r.status) ∨
      (¬tables.Touches mac ∧
        IsUsable (tables.lastQbridge mac (·.port)) (tables.lastQbridge mac (·.status)))
  whole : ∀ mac p s, ¬tables.Touches mac → (s = 3 ∨ s = 5) →
    ReadsAs (tables.lastQbridge mac (·.port)) (tables.lastQbridge mac (·.status)) p s →
      tables.HasRow mac p s

theorem keepsUsableRows_iff : tables.KeepsUsableRows ↔ tables.Collapses := by
  constructor
  · intro h
    let others : Walks := fun _ => ⟨[], .endOfSubtree⟩
    obtain ⟨order, horder⟩ := ((legacyFdb (tables.walks others)).orInsertAll
      (walkQbridgeFdb (tables.walks others))).exists_enumerates
    obtain ⟨hkept, hwhole⟩ := h others (.skipped empty) order horder
    refine ⟨fun mac hmac => ?_, fun mac p s htouches hs hreads => ?_⟩
    · obtain ⟨e, he, rfl⟩ := hkept mac hmac
      obtain ⟨⟨r, hr, haddress, hreads⟩ | ⟨htouches, hreads⟩, hs, -⟩ :=
        (tables.mem_records horder).mp he
      · exact .inl ⟨r, hr, haddress, e.bridgePort, e.status, hreads, hs⟩
      · exact .inr ⟨htouches, e.bridgePort, e.status, hreads, hs⟩
    · exact hwhole ⟨mac, p, empty.get p, s⟩ ((tables.mem_records horder).mpr
        ⟨.inr ⟨htouches, hreads⟩, hs, rfl⟩)
  · rintro ⟨husable, hwhole⟩ others bridgePorts order horder
    constructor
    · intro mac hmac
      obtain ⟨r, hr, haddress, p, s, hreads, hs⟩ | ⟨htouches, p, s, hreads, hs⟩ := husable mac hmac
      · exact ⟨⟨mac, p, bridgePorts.records.get p, s⟩, (tables.mem_records horder).mpr
          ⟨.inl ⟨r, hr, haddress, hreads⟩, hs, rfl⟩, rfl⟩
      · exact ⟨⟨mac, p, bridgePorts.records.get p, s⟩, (tables.mem_records horder).mpr
          ⟨.inr ⟨htouches, hreads⟩, hs, rfl⟩, rfl⟩
    · intro e he
      obtain ⟨hrow | ⟨htouches, hreads⟩, hs, -⟩ := (tables.mem_records horder).mp he
      · exact .inl hrow
      · exact hwhole e.macAddress e.bridgePort e.status htouches hs hreads

end FdbTables

def staticInVlanTables : FdbTables where
  legacy := []
  qbridge := [⟨1, 0x001A2B3C4D5E, some (.integer 5), some (.integer 3)⟩,
    ⟨2, 0x001A2B3C4D5E, some (.integer 7), some (.integer 4)⟩]
  legacy_nodup := List.nodup_nil
  qbridge_nodup := by decide

theorem not_keepsUsableRows_static : ¬staticInVlanTables.KeepsUsableRows := by
  intro h
  let others : Walks := fun _ => ⟨[], .endOfSubtree⟩
  obtain ⟨order, horder⟩ := ((legacyFdb (staticInVlanTables.walks others)).orInsertAll
    (walkQbridgeFdb (staticInVlanTables.walks others))).exists_enumerates
  have husable : staticInVlanTables.HasUsableRow 0x001A2B3C4D5E := by
    refine .inr ⟨⟨1, 0x001A2B3C4D5E, some (.integer 5), some (.integer 3)⟩, by decide, rfl, 5, 3, ?_⟩
    exact ⟨⟨by decide, by decide⟩, .inl rfl⟩
  obtain ⟨e, he, hmac⟩ := (h others (.skipped empty) order horder).1 _ husable
  obtain ⟨⟨r, hr, -⟩ | ⟨-, -, hstatus⟩, hs, -⟩ := (staticInVlanTables.mem_records horder).mp he
  · exact nomatch hr
  · have hlast : (staticInVlanTables.lastQbridge 0x001A2B3C4D5E (·.status)).bind SnmpValue.toI32 =
        some 4 := by decide
    rw [hmac, hlast, some.injEq] at hstatus
    omega

end Merged

end Scanopy
