import Scanopy.Snmp.Collect

/-! The local ports of LLDP neighbours. A neighbour is put on an interface by what the agent says of
its local port, unless another neighbour is there already. -/

namespace Scanopy

open List Option

section Evidence

def nameTest (text : Option String) (e : IfTableEntry) : Bool :=
  text.any fun text => trim text ≠ "" && e.hasName (trim text)

def suffixTest (text : Option String) (e : IfTableEntry) : Bool :=
  text.any fun text => trim text ≠ "" &&
    (endsAtBoundary (trim text) e.ifName || endsAtBoundary (trim text) e.ifDescr)

def wordTest (text : Option String) (e : IfTableEntry) : Bool :=
  text.any fun text => (splitWhitespace text).any e.hasName

def macTest (mac : Option MacAddress) (e : IfTableEntry) : Bool :=
  mac.any fun mac => e.ifPhysAddress = some mac

def LocalPortEvidence.test (p : LldpLocalPort) : LocalPortEvidence → IfTableEntry → Bool
  | interfaceIndex => fun _ => false
  | uniqueMac => macTest p.portIdMac
  | portIdName => nameTest p.portId
  | portIdSuffix => suffixTest p.portId
  | portDescName => nameTest p.portDesc
  | portDescWord => wordTest p.portDesc

def LldpLocalPort.firstMatchTests (p : LldpLocalPort) : List (IfTableEntry → Bool) :=
  [nameTest p.portId, suffixTest p.portId, nameTest p.portDesc]

def LldpLocalPort.IsIdentified (p : LldpLocalPort) (entries : List IfTableEntry) : Prop :=
  (p.portIdSubtype = some 2 ∧ ∃ id i, p.portId = some id ∧ parseI32 (trim id) = some i) ∨
    (p.portIdSubtype = some 3 ∧ ∃ mac i, p.portIdMac = some mac ∧ uniqueInterfaceMac entries mac = some i)

variable {entries : List IfTableEntry} {p : LldpLocalPort}

theorem bind_findNamed (text : Option String) : text.bind (findNamed entries) =
    (entries.find? (nameTest text)).map (·.ifIndex) := by
  cases text with
  | none =>
    have hnone : entries.find? (nameTest none) = none := find?_eq_none.mpr fun _ _ => nofun
    rw [hnone]
    rfl
  | some text =>
    rw [bind_some, findNamed]
    by_cases hempty : trim text = ""
    · have hnone : entries.find? (nameTest (some text)) = none :=
        find?_eq_none.mpr fun _ _ => by simp [nameTest, hempty]
      rw [if_pos hempty, hnone]
      rfl
    · have htest : nameTest (some text) = fun e => e.hasName (trim text) := by
        funext e
        simp [nameTest, hempty]
      rw [if_neg hempty, htest]

theorem bind_findBySuffix (text : Option String) : text.bind (findBySuffix entries) =
    (entries.find? (suffixTest text)).map (·.ifIndex) := by
  cases text with
  | none =>
    have hnone : entries.find? (suffixTest none) = none := find?_eq_none.mpr fun _ _ => nofun
    rw [hnone]
    rfl
  | some text =>
    rw [bind_some, findBySuffix]
    by_cases hempty : trim text = ""
    · have hnone : entries.find? (suffixTest (some text)) = none :=
        find?_eq_none.mpr fun _ _ => by simp [suffixTest, hempty]
      rw [if_pos hempty, hnone]
      rfl
    · have htest : suffixTest (some text) = fun e =>
          endsAtBoundary (trim text) e.ifName || endsAtBoundary (trim text) e.ifDescr := by
        funext e
        simp [suffixTest, hempty]
      rw [if_neg hempty, htest]

variable {e : IfTableEntry} {i : ℤ}

theorem ifIndex_of_uniqueInterfaceMac {mac : MacAddress}
    (h : uniqueInterfaceMac entries mac = some i) (he : e ∈ entries)
    (hmac : e.ifPhysAddress = some mac) : e.ifIndex = i := by
  rw [uniqueInterfaceMac] at h
  split at h
  · exact nomatch h
  · split at h
    · rename_i only hfilter
      have hmem : e ∈ entries.filter fun e => e.ifPhysAddress = some mac :=
        mem_filter.mpr ⟨he, decide_eq_true hmac⟩
      rw [hfilter, mem_singleton] at hmem
      rw [hmem]
      exact some.inj h
    · exact nomatch h

theorem ifIndex_of_findByWord {desc : String} (h : findByWord entries desc = some i)
    (he : e ∈ entries) (htest : wordTest (some desc) e) : e.ifIndex = i := by
  obtain ⟨word, hword, hname⟩ := List.any_eq_true.mp htest
  rw [findByWord] at h
  split at h
  · rename_i only hdedup
    have hmem : e.ifIndex ∈ ((splitWhitespace desc).flatMap fun word =>
        (entries.filter (·.hasName word)).map (·.ifIndex)).dedup := by
      refine mem_dedup.mpr (mem_flatMap.mpr ⟨word, hword, ?_⟩)
      exact List.mem_map.mpr ⟨e, mem_filter.mpr ⟨he, hname⟩, rfl⟩
    rw [hdedup, mem_singleton] at hmem
    rw [hmem]
    exact some.inj h
  · exact nomatch h

end Evidence

section Unique
variable {entries : List IfTableEntry} {p : LldpLocalPort}
variable {test : IfTableEntry → Bool}

def UniqueEvidence (localPortNum : ℤ) (locPorts : HashMap ℤ LldpLocalPort)
    (entries : List IfTableEntry) : Prop :=
  ∀ p ifIndex evidence, locPorts.get localPortNum = some p →
    resolveLldpLocalPort localPortNum locPorts entries = some (ifIndex, evidence) →
      evidence ≠ .interfaceIndex → ∀ e ∈ entries, evidence.test p e → e.ifIndex = ifIndex

def resolveByText (p : LldpLocalPort) (entries : List IfTableEntry) : Option (ℤ × LocalPortEvidence) :=
  ((entries.find? (nameTest p.portId)).map fun e => (e.ifIndex, LocalPortEvidence.portIdName)).or
    (((entries.find? (suffixTest p.portId)).map fun e => (e.ifIndex, .portIdSuffix)).or
      (((entries.find? (nameTest p.portDesc)).map fun e => (e.ifIndex, .portDescName)).or
        ((p.portDesc.bind (findByWord entries)).map fun i => (i, .portDescWord))))

variable {localPortNum : ℤ} {locPorts : HashMap ℤ LldpLocalPort}

theorem resolveLldpLocalPort_eq (hp : locPorts.get localPortNum = some p) :
    resolveLldpLocalPort localPortNum locPorts entries = (if p.portIdSubtype = some 2 then
        (p.portId.bind fun id => parseI32 (trim id)).map fun i => (i, LocalPortEvidence.interfaceIndex)
      else none).or
        ((if p.portIdSubtype = some 3 then
          (p.portIdMac.bind (uniqueInterfaceMac entries)).map fun i => (i, .uniqueMac)
        else none).or (resolveByText p entries)) := by
  simp only [resolveLldpLocalPort, hp, bind_some, bind_findNamed, bind_findBySuffix, Option.map_map]
  rfl

theorem resolve_of_isIdentified (hp : locPorts.get localPortNum = some p)
    (h : p.IsIdentified entries) :
    ∃ i evidence, resolveLldpLocalPort localPortNum locPorts entries = some (i, evidence) ∧
      (evidence = .interfaceIndex ∨ evidence = .uniqueMac ∧
        ∃ mac, p.portIdMac = some mac ∧ uniqueInterfaceMac entries mac = some i) := by
  rw [resolveLldpLocalPort_eq hp]
  obtain ⟨hsubtype, id, i, hid, hi⟩ | ⟨hsubtype, mac, i, hmac, hi⟩ := h
  · refine ⟨i, .interfaceIndex, ?_, .inl rfl⟩
    rw [if_pos hsubtype, hid, bind_some, hi, map_some, some_or]
  · refine ⟨i, .uniqueMac, ?_, .inr ⟨rfl, mac, hmac, hi⟩⟩
    have hne : p.portIdSubtype ≠ some 2 := by
      rw [hsubtype]
      decide
    rw [if_neg hne, none_or, if_pos hsubtype, hmac, bind_some, hi, map_some, some_or]

theorem resolve_of_not_isIdentified (hp : locPorts.get localPortNum = some p)
    (h : ¬p.IsIdentified entries) :
    resolveLldpLocalPort localPortNum locPorts entries = resolveByText p entries := by
  have hindex : (if p.portIdSubtype = some 2 then (p.portId.bind fun id => parseI32 (trim id)).map
      fun i => (i, LocalPortEvidence.interfaceIndex) else none) = none := by
    split
    · rename_i hsubtype
      refine map_eq_none_iff.mpr (bind_eq_none_iff.mpr fun id hid => ?_)
      refine eq_none_iff_forall_ne_some.mpr fun i hi => h ?_
      exact .inl ⟨hsubtype, id, i, hid, hi⟩
    · rfl
  have hmac : (if p.portIdSubtype = some 3 then (p.portIdMac.bind (uniqueInterfaceMac entries)).map
      fun i => (i, LocalPortEvidence.uniqueMac) else none) = none := by
    split
    · rename_i hsubtype
      refine map_eq_none_iff.mpr (bind_eq_none_iff.mpr fun mac hmac => ?_)
      refine eq_none_iff_forall_ne_some.mpr fun i hi => h ?_
      exact .inr ⟨hsubtype, mac, i, hmac, hi⟩
    · rfl
  rw [resolveLldpLocalPort_eq hp, hindex, hmac, none_or, none_or]

def Agree (test : IfTableEntry → Bool) (entries : List IfTableEntry) : Prop :=
  ∀ e ∈ entries, ∀ e' ∈ entries, test e = true → test e' = true → e.ifIndex = e'.ifIndex

theorem tiersAgree_firstMatchTests :
    Lookup.TiersAgree p.firstMatchTests (·.ifIndex) entries ↔
      Agree (nameTest p.portId) entries ∧ (entries.find? (nameTest p.portId) = none →
        Agree (suffixTest p.portId) entries ∧ (entries.find? (suffixTest p.portId) = none →
          Agree (nameTest p.portDesc) entries)) := by
  have hlast : ∀ {test : IfTableEntry → Bool}, Lookup.TiersAgree [test] (·.ifIndex) entries ↔
      Agree test entries := by
    intro test
    rw [Lookup.tiersAgree_cons]
    exact and_iff_left fun _ _ hnone => nomatch hnone
  rw [LldpLocalPort.firstMatchTests, Lookup.tiersAgree_cons, Lookup.tiersAgree_cons, hlast]
  rfl

theorem agree_iff_of_find {e : IfTableEntry}
    (h : entries.find? test = some e) :
    (∀ e' ∈ entries, test e' → e'.ifIndex = e.ifIndex) ↔ Agree test entries := by
  constructor
  · intro hunique a ha b hb hta htb
    rw [hunique a ha hta, hunique b hb htb]
  · intro hagree e' he' htest
    exact hagree e' he' e (mem_of_find?_eq_some h) htest (find?_some h)

theorem agree_of_find_none (h : entries.find? test = none) :
    Agree test entries := fun e he _ _ htest => absurd htest (find?_eq_none.mp h e he)

theorem uniqueText_iff : (∀ ifIndex evidence, resolveByText p entries = some (ifIndex, evidence) →
      ∀ e ∈ entries, evidence.test p e → e.ifIndex = ifIndex) ↔
    Lookup.TiersAgree p.firstMatchTests (·.ifIndex) entries := by
  rw [tiersAgree_firstMatchTests, resolveByText]
  cases hname : entries.find? (nameTest p.portId) with
  | some e =>
    simp only [map_some, some_or, some.injEq, Prod.mk.injEq]
    rw [← agree_iff_of_find hname]
    constructor
    · exact fun h => ⟨h e.ifIndex .portIdName ⟨rfl, rfl⟩, nofun⟩
    · rintro ⟨h, -⟩ _ _ ⟨rfl, rfl⟩
      exact h
  | none =>
    simp only [map_none, none_or, agree_of_find_none hname, true_and, forall_true_left]
    cases hsuffix : entries.find? (suffixTest p.portId) with
    | some e =>
      simp only [map_some, some_or, some.injEq, Prod.mk.injEq]
      rw [← agree_iff_of_find hsuffix]
      constructor
      · exact fun h => ⟨h e.ifIndex .portIdSuffix ⟨rfl, rfl⟩, nofun⟩
      · rintro ⟨h, -⟩ _ _ ⟨rfl, rfl⟩
        exact h
    | none =>
      simp only [map_none, none_or, agree_of_find_none hsuffix, true_and, forall_true_left]
      cases hdesc : entries.find? (nameTest p.portDesc) with
      | some e =>
        simp only [map_some, some_or, some.injEq, Prod.mk.injEq]
        rw [← agree_iff_of_find hdesc]
        constructor
        · exact fun h => h e.ifIndex .portDescName ⟨rfl, rfl⟩
        · rintro h _ _ ⟨rfl, rfl⟩
          exact h
      | none =>
        simp only [map_none, none_or, agree_of_find_none hdesc, iff_true]
        intro i evidence h e he htest
        obtain ⟨_, hword, heq⟩ := map_eq_some_iff.mp h
        obtain ⟨rfl, rfl⟩ := Prod.mk.inj heq
        obtain ⟨desc, hdesc, hword⟩ := bind_eq_some_iff.mp hword
        rw [LocalPortEvidence.test, hdesc] at htest
        exact ifIndex_of_findByWord hword he htest

/-- The evidence is unique for ports that their id identifies, and otherwise if the interfaces agree
that pass the first of the three tests that any passes. -/
theorem uniqueEvidence_iff (localPortNum : ℤ) (locPorts : HashMap ℤ LldpLocalPort)
    (entries : List IfTableEntry) : UniqueEvidence localPortNum locPorts entries ↔
      ∀ p, locPorts.get localPortNum = some p →
        p.IsIdentified entries ∨ Lookup.TiersAgree p.firstMatchTests (·.ifIndex) entries := by
  refine forall_congr' fun p => ?_
  constructor
  · intro h hp
    by_cases hidentified : p.IsIdentified entries
    · exact .inl hidentified
    · refine .inr (uniqueText_iff.mp fun i evidence hresolve e he htest => ?_)
      refine h i evidence hp ((resolve_of_not_isIdentified hp hidentified).trans hresolve) ?_ e he htest
      rintro rfl
      exact nomatch htest
  · intro h i evidence hp hresolve hevidence
    by_cases hidentified : p.IsIdentified entries
    · obtain ⟨j, evidence', hresolve', hkind⟩ := resolve_of_isIdentified hp hidentified
      rw [hresolve, some.injEq, Prod.mk.injEq] at hresolve'
      obtain ⟨rfl, rfl⟩ := hresolve'
      obtain hkind | ⟨rfl, mac, hmac, hunique⟩ := hkind
      · exact absurd hkind hevidence
      · intro e he htest
        rw [LocalPortEvidence.test, hmac] at htest
        exact ifIndex_of_uniqueInterfaceMac hunique he (by simpa [macTest] using htest)
    · have hagree := (h hp).resolve_left hidentified
      rw [resolve_of_not_isIdentified hp hidentified] at hresolve
      exact uniqueText_iff.mpr hagree i evidence hresolve

/-- In a stack of switches the port 4 is 1:4 and 2:4. -/
theorem not_uniqueEvidence_stack :
    ¬UniqueEvidence 4 (HashMap.empty.insert 4 { portIdSubtype := some 5, portId := some "4" })
      [{ ifIndex := 1004, ifName := some "1:4" }, { ifIndex := 2004, ifName := some "2:4" }] := by
  intro h
  have hindex := h { portIdSubtype := some 5, portId := some "4" } 1004 .portIdSuffix
    (HashMap.get_insert_self ..) (by decide) (by decide) { ifIndex := 2004, ifName := some "2:4" }
    (by decide) (by decide)
  exact absurd hindex (by decide)

end Unique

section Dropped

structure LocalPortOutcome where
  unmatched : ℕ := 0
  dropped : ℕ := 0
  deriving DecidableEq

def countDropped (ifIndexes : List ℤ) (st : List ℤ × ℕ) (n : LldpNeighbor) : List ℤ × ℕ :=
  if n.localPortIndex ∉ ifIndexes then (st.1, st.2 + 1)
  else if n.localPortIndex ∈ st.1 then (st.1, st.2 + 1)
  else (n.localPortIndex :: st.1, st.2)

def countDroppedNeighbours (neighbors : List LldpNeighbor) (entries : List IfTableEntry) : ℕ :=
  (neighbors.foldl (countDropped (entries.map (·.ifIndex))) ([], 0)).2

/-- What `remap_lldp_local_ports` counts. Without a table of local ports nothing is unmatched. -/
def localPortOutcome (neighbors : List LldpNeighbor) (locPorts : HashMap ℤ LldpLocalPort)
    (entries : List IfTableEntry) : LocalPortOutcome where
  unmatched := if locPorts.keys = ∅ then 0
    else (neighbors.filter fun n =>
      (resolveLldpLocalPort n.localPortIndex locPorts entries).isNone).length
  dropped := countDroppedNeighbours (remapLldpLocalPorts neighbors locPorts entries) entries

def attachedNeighbour (neighbors : List LldpNeighbor) (entry : IfTableEntry) : Option ℕ :=
  neighbors.findIdx? fun n => n.localPortIndex = entry.ifIndex

def unattachedNeighbours (neighbors : List LldpNeighbor) (entries : List IfTableEntry) : List ℕ :=
  (List.range neighbors.length).filter fun k =>
    entries.all fun e => attachedNeighbour neighbors e ≠ some k

/-- What an interface says of its LLDP neighbour. -/
structure LldpFields where
  chassisId : Option LldpChassisId := none
  portId : Option LldpPortId := none
  sysName : Option String := none
  portDesc : Option String := none
  mgmtAddr : Option IpAddr := none
  sysDesc : Option String := none

def SnmpInterface.lldpFields (i : SnmpInterface) : LldpFields where
  chassisId := i.base.lldpChassisId
  portId := i.base.lldpPortId
  sysName := i.base.lldpSysName
  portDesc := i.base.lldpPortDesc
  mgmtAddr := i.base.lldpMgmtAddr
  sysDesc := i.base.lldpSysDesc

def LldpNeighbor.lldpFields (macText : MacText) (n : LldpNeighbor) : LldpFields where
  chassisId := n.remoteChassisIdSubtype.bind fun subtype =>
    n.remoteChassisIdBytes.bind (LldpChassisId.fromSnmp macText.parse subtype)
  portId := n.remotePortIdSubtype.bind fun subtype =>
    n.remotePortIdBytes.bind (LldpPortId.fromSnmp macText.parse subtype)
  sysName := n.remoteSysName
  portDesc := n.remotePortDesc
  mgmtAddr := n.remoteMgmtAddr
  sysDesc := n.remoteSysDesc

variable {neighbors : List LldpNeighbor} {entries : List IfTableEntry}

theorem mem_taken {port : ℤ} (ifIndexes : List ℤ) :
    port ∈ (neighbors.foldl (countDropped ifIndexes) ([], 0)).1 ↔
      port ∈ ifIndexes ∧ ∃ n ∈ neighbors, n.localPortIndex = port := by
  induction neighbors using List.reverseRecOn with
  | nil => simp
  | append_singleton neighbors n ih =>
    rw [foldl_append, foldl_cons, foldl_nil, countDropped]
    have happend : (∃ m ∈ neighbors ++ [n], m.localPortIndex = port) ↔
        (∃ m ∈ neighbors, m.localPortIndex = port) ∨ n.localPortIndex = port := by simp
    rw [happend]
    split
    · rename_i hunknown
      rw [ih, and_or_left, or_iff_left]
      rintro ⟨hmem, rfl⟩
      exact hunknown hmem
    · rename_i hknown
      rw [not_not] at hknown
      split
      · rename_i htaken
        rw [ih, and_or_left, or_iff_left_of_imp]
        rintro ⟨-, rfl⟩
        exact ih.mp htaken
      · rw [mem_cons, ih, and_or_left, or_comm]
        refine or_congr_right ⟨?_, ?_⟩
        · rintro rfl
          exact ⟨hknown, rfl⟩
        · exact fun h => h.2.symm

theorem attachedNeighbour_append (n : LldpNeighbor) (e : IfTableEntry) :
    attachedNeighbour (neighbors ++ [n]) e = (attachedNeighbour neighbors e).or
      (if n.localPortIndex = e.ifIndex then some neighbors.length else none) := by
  rw [attachedNeighbour, findIdx?_append]
  refine congrArg _ ?_
  split
  · rename_i hindex
    simp [findIdx?_cons, hindex]
  · rename_i hindex
    simp [findIdx?_cons, hindex]

theorem attachedNeighbour_lt {e : IfTableEntry} {k : ℕ} (h : attachedNeighbour neighbors e = some k) :
    k < neighbors.length := by
  obtain ⟨hlt, -⟩ := findIdx?_eq_some_iff_getElem.mp h
  exact hlt

theorem attachedNeighbour_eq_none {e : IfTableEntry} : attachedNeighbour neighbors e = none ↔
    ∀ n ∈ neighbors, n.localPortIndex ≠ e.ifIndex := by
  simp [attachedNeighbour, findIdx?_eq_none_iff]

theorem unattachedNeighbours_append (n : LldpNeighbor) :
    (unattachedNeighbours (neighbors ++ [n]) entries).length =
      (unattachedNeighbours neighbors entries).length +
        if (∃ e ∈ entries, e.ifIndex = n.localPortIndex) ∧
          ∀ m ∈ neighbors, m.localPortIndex ≠ n.localPortIndex then 0 else 1 := by
  rw [unattachedNeighbours, unattachedNeighbours, length_append, length_singleton,
    range_succ, filter_append, length_append]
  congr 1
  · -- the positions before the last one
    refine congrArg List.length (filter_congr fun k hk => ?_)
    have hlt := mem_range.mp hk
    rw [Bool.eq_iff_iff, List.all_eq_true, List.all_eq_true]
    refine forall₂_congr fun e _ => ?_
    rw [attachedNeighbour_append, decide_eq_true_eq, decide_eq_true_eq]
    cases hattached : attachedNeighbour neighbors e with
    | some j => rw [some_or]
    | none =>
      rw [none_or]
      split
      · simp
        omega
      · rfl
  · have hlast : (entries.all fun e =>
        attachedNeighbour (neighbors ++ [n]) e ≠ some neighbors.length) = false ↔
        (∃ e ∈ entries, e.ifIndex = n.localPortIndex) ∧
          ∀ m ∈ neighbors, m.localPortIndex ≠ n.localPortIndex := by
      rw [List.all_eq_false]
      simp only [attachedNeighbour_append, decide_eq_true_eq, not_not]
      constructor
      · rintro ⟨e, he, hattached⟩
        cases hold : attachedNeighbour neighbors e with
        | some j =>
          rw [hold, some_or, some.injEq] at hattached
          have hlt := attachedNeighbour_lt hold
          omega
        | none =>
          rw [hold, none_or] at hattached
          split at hattached
          · rename_i hindex
            rw [hindex]
            exact ⟨⟨e, he, rfl⟩, attachedNeighbour_eq_none.mp hold⟩
          · exact nomatch hattached
      · rintro ⟨⟨e, he, hindex⟩, hfirst⟩
        refine ⟨e, he, ?_⟩
        rw [← hindex] at hfirst
        rw [attachedNeighbour_eq_none.mpr hfirst, none_or, if_pos hindex.symm]
    split
    · rename_i hattached
      rw [filter_singleton, hlast.mpr hattached]
      rfl
    · rename_i hdropped
      rw [← hlast, Bool.not_eq_false] at hdropped
      rw [filter_singleton, hdropped]
      rfl

theorem countDroppedNeighbours_eq : countDroppedNeighbours neighbors entries =
    (unattachedNeighbours neighbors entries).length := by
  rw [countDroppedNeighbours]
  induction neighbors using List.reverseRecOn with
  | nil => rfl
  | append_singleton neighbors n ih =>
    rw [foldl_append, foldl_cons, foldl_nil, unattachedNeighbours_append, ← ih, countDropped]
    have hknown : n.localPortIndex ∈ entries.map (·.ifIndex) ↔
        ∃ e ∈ entries, e.ifIndex = n.localPortIndex := List.mem_map
    have htaken := @mem_taken neighbors n.localPortIndex (entries.map (·.ifIndex))
    split
    · rename_i hunknown
      rw [if_neg fun h => hunknown (hknown.mpr h.1)]
    · rename_i hindex
      rw [not_not] at hindex
      split
      · rename_i hmem
        obtain ⟨-, m, hm, heq⟩ := htaken.mp hmem
        rw [if_neg fun h => h.2 m hm heq]
      · rename_i hmem
        have hfirst : ∀ m ∈ neighbors, m.localPortIndex ≠ n.localPortIndex :=
          fun m hm heq => hmem (htaken.mpr ⟨hindex, m, hm, heq⟩)
        rw [if_pos ⟨hknown.mp hindex, hfirst⟩]
        rfl

theorem find?_eq_attached (entry : IfTableEntry) :
    (neighbors.find? fun n => n.localPortIndex = entry.ifIndex) =
      (attachedNeighbour neighbors entry).bind (neighbors[·]?) :=
  find?_eq_bind_findIdx?_getElem?

theorem lldpFields_convertSnmpIfEntry (macText : MacText) (newId : Uuid) (now : Timestamp)
    (entry : IfTableEntry) (networkId : Uuid) (records : SnmpRecords) :
    SnmpInterface.lldpFields
        (convertSnmpIfEntry macText newId now entry networkId records) =
      ((attachedNeighbour records.lldpNeighbors entry).bind (records.lldpNeighbors[·]?)).elim {}
        (LldpNeighbor.lldpFields macText) := by
  rw [← find?_eq_attached, SnmpInterface.lldpFields, convertSnmpIfEntry]
  cases records.lldpNeighbors.find? fun n => n.localPortIndex = entry.ifIndex with
  | none => rfl
  | some n => rfl

theorem convertSnmpIfEntry_attached (macText : MacText) (newId : Uuid) (now : Timestamp)
    (entry : IfTableEntry) (networkId : Uuid) (records : SnmpRecords) :
    convertSnmpIfEntry macText newId now entry networkId records =
      convertSnmpIfEntry macText newId now entry networkId { records with
        lldpNeighbors := (attachedNeighbour records.lldpNeighbors entry).toList.filterMap
          (records.lldpNeighbors[·]?) } := by
  have hfind : (((attachedNeighbour records.lldpNeighbors entry).toList.filterMap
      (records.lldpNeighbors[·]?)).find? fun n => n.localPortIndex = entry.ifIndex) =
        records.lldpNeighbors.find? fun n => n.localPortIndex = entry.ifIndex := by
    rw [@find?_eq_attached records.lldpNeighbors entry]
    cases hattached : attachedNeighbour records.lldpNeighbors entry with
    | none => rfl
    | some k =>
      obtain ⟨hlt, hk, -⟩ := findIdx?_eq_some_iff_getElem.mp hattached
      simp only [toList_some, filterMap_cons, filterMap_nil, bind_some, getElem?_eq_getElem hlt]
      rw [find?_cons, hk]
  simp only [convertSnmpIfEntry, hfind]

/-- Every neighbour but those that an interface is converted with is counted as dropped: an
interface carries what its neighbour says, and nothing of the others. -/
theorem dropped_localPortOutcome (neighbors : List LldpNeighbor) (locPorts : HashMap ℤ LldpLocalPort)
    (entries : List IfTableEntry) :
    (localPortOutcome neighbors locPorts entries).dropped =
        (unattachedNeighbours (remapLldpLocalPorts neighbors locPorts entries) entries).length ∧
      ∀ (macText : MacText) (newId : Uuid) (now : Timestamp) (entry : IfTableEntry) (networkId : Uuid)
        (records : SnmpRecords),
        let remapped := remapLldpLocalPorts neighbors locPorts entries
        convertSnmpIfEntry macText newId now entry networkId { records with lldpNeighbors := remapped } =
          convertSnmpIfEntry macText newId now entry networkId { records with
            lldpNeighbors := (attachedNeighbour remapped entry).toList.filterMap (remapped[·]?) } ∧
        SnmpInterface.lldpFields (convertSnmpIfEntry macText newId now entry networkId
            { records with lldpNeighbors := remapped }) =
          ((attachedNeighbour remapped entry).bind (remapped[·]?)).elim {}
            (LldpNeighbor.lldpFields macText) := by
  refine ⟨countDroppedNeighbours_eq, fun macText newId now entry networkId records => ⟨?_, ?_⟩⟩
  · exact convertSnmpIfEntry_attached macText newId now entry networkId { records with
      lldpNeighbors := remapLldpLocalPorts neighbors locPorts entries }
  · exact lldpFields_convertSnmpIfEntry macText newId now entry networkId { records with
      lldpNeighbors := remapLldpLocalPorts neighbors locPorts entries }

end Dropped

end Scanopy
