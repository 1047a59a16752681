import Mathlib.Data.Nat.Digits.Defs
import Scanopy.Daemon.Controllers

/-! The interfaces that a daemon makes of an Instant On device. The identifier of a port is folded
to the index of its interface; the uplink and the clients find the interface again by it. -/

namespace Scanopy

open List Option FirstMatch

/-- `str::parse::<i64>`. -/
def parseI64 (s : String) : Option ℤ :=
  (match s.toList with
    | '-' :: cs => (parseDigits cs).map fun n => -(n : ℤ)
    | '+' :: cs => (parseDigits cs).map Int.ofNat
    | cs => (parseDigits cs).map Int.ofNat).filter fun n => -2 ^ 63 ≤ n ∧ n < 2 ^ 63

/-- Arithmetic of 64 bits that stays within its range. -/
def saturateI64 (n : ℤ) : ℤ := max (-2 ^ 63) (min n (2 ^ 63 - 1))

structure InstantOnPort where
  id : Option String := none
  name : Option String := none
  portNumber : Option FlexInt := none
  up : Option FlexBool := none
  enabled : Option FlexBool := none
  speed : Option FlexInt := none

structure InstantOnUplink where
  connectedTo : Option String := none
  connectedToMacAddress : Option String := none
  portId : Option String := none
  remotePortId : Option String := none

structure InstantOnTables where
  ports : List InstantOnPort := []
  uplink : Option InstantOnUplink := none

structure InstantOnClient where
  macAddress : Option String := none
  portId : Option String := none

namespace InstantOnPort

/-- The parts of an identifier that are numbers. The characters `/`, `-` and `:` separate. -/
def components (id : String) : List ℤ :=
  (splitOnChar ':' (id.toList.map fun c => if c = '/' ∨ c = '-' then ':' else c)).filterMap fun c =>
    parseI64 (trim (String.ofList c))

def folded (components : List ℤ) : ℤ :=
  components.foldl (fun acc n => saturateI64 (saturateI64 (acc * 1000) + n)) 0

def fallback (port : InstantOnPort) (position : ℕ) : ℤ :=
  (port.portNumber.map (·.asI32)).getD (min (asI32 position + 1) (2 ^ 31 - 1))

def portIfIndex (port : InstantOnPort) (position : ℕ) : ℤ :=
  match port.id.map components with
  | none | some [] => port.fallback position
  | some parts => max 0 (min (folded parts) (2 ^ 31 - 1))

def portToInterface (port : InstantOnPort) (position : ℕ) (networkId : Uuid) : SwitchPort :=
  let ifIndex := port.portIfIndex position
  let name := (((port.name.map trim).filter fun n => !n.isEmpty).or
    ((port.id.map trim).filter fun id => !id.isEmpty)).getD s!"Port {ifIndex}"
  { SwitchPort.named networkId ifIndex name with
    speedBps := speedBps port.speed
    adminStatus := if port.enabled = some false then .down else .up
    operStatus := if port.up = some true then .up else .down }

def parts (port : InstantOnPort) : List ℤ := (port.id.map components).getD []

def idNumber (port : InstantOnPort) : ℕ := Nat.ofDigits 1000 (port.parts.map Int.toNat).reverse

def isNamed (name : String) (port : InstantOnPort) : Bool := port.id.map trim = some name

end InstantOnPort

namespace InstantOnTables
variable (parseMac : String → Option MacAddress) (tables : InstantOnTables)
  (deviceMac : Option String) (clients : List InstantOnClient) (networkId : Uuid)
  (byId : HashMap String (InstantOnDevice InstantOnTables))

def indexOfPort (portId : String) : Option ℤ :=
  (tables.ports.zipIdx.find? fun entry => entry.1.isNamed portId).map fun entry =>
    entry.1.portIfIndex entry.2

def parentMac (uplink : InstantOnUplink) : Option String :=
  (uplink.connectedToMacAddress.bind (canonicalMac parseMac)).or
    (((uplink.connectedTo.bind byId.get).bind (·.macAddress)).bind (canonicalMac parseMac))

def parentNeighbour (uplink : InstantOnUplink) (mac : String) : PortNeighbour where
  chassisId := some (.macAddress mac)
  portId := (((uplink.remotePortId.map trim).bind fun remote =>
    (uplink.connectedTo.bind byId.get).bind fun parent => parent.tables.indexOfPort remote).map
      fun index => .locallyAssigned (toString index))
  sysName := nonBlank ((uplink.connectedTo.bind byId.get).bind (·.name))

def applyUplink (interfaces : List SwitchPort) : List SwitchPort :=
  match tables.uplink with
  | none => interfaces
  | some uplink =>
    match uplink.portId.map trim with
    | none => interfaces
    | some localPortId =>
      match tables.indexOfPort localPortId, parentMac parseMac byId uplink with
      | some localIndex, some mac =>
        updatePort interfaces localIndex (SwitchPort.setNeighbour (parentNeighbour byId uplink mac))
      | _, _ => interfaces

def pushMac (fdbMacs : Option (List String)) (mac : String) : Option (List String) :=
  let fdb := fdbMacs.getD []
  some (if mac ∈ fdb then fdb else fdb ++ [mac])

def applyClientMac (interfaces : List SwitchPort) (client : InstantOnClient) : List SwitchPort :=
  match client.macAddress.bind (canonicalMac parseMac) with
  | none => interfaces
  | some mac =>
    if deviceMac = some mac then interfaces
    else match client.portId.map trim with
      | none => interfaces
      | some portId => match tables.indexOfPort portId with
        | none => interfaces
        | some index => updatePort interfaces index fun i =>
          { i with fdbMacs := pushMac i.fdbMacs mac }

def applyClientMacs (interfaces : List SwitchPort) : List SwitchPort :=
  clients.foldl (applyClientMac parseMac tables deviceMac) interfaces

def uplinkInterface (uplink : InstantOnUplink) : SwitchPort :=
  SwitchPort.named networkId 1 ((nonBlank uplink.portId).getD "uplink")

def portInterfaces : List SwitchPort :=
  match tables.ports with
  | [] => tables.uplink.toList.map (uplinkInterface networkId)
  | ports => ports.mapIdx fun position port => port.portToInterface position networkId

def mapInterfaces : List SwitchPort :=
  applyClientMacs parseMac tables deviceMac clients
    (applyUplink parseMac tables byId (portInterfaces tables networkId))

def uplinkRecord : Option (String × PortNeighbour) := do
  let uplink ← tables.uplink
  let portId ← uplink.portId
  let mac ← parentMac parseMac byId uplink
  return (trim portId, parentNeighbour byId uplink mac)

def clientRecord (client : InstantOnClient) : Option (String × String) := do
  let mac ← (client.macAddress.bind (canonicalMac parseMac)).filter fun mac => deviceMac ≠ some mac
  let portId ← client.portId
  return (trim portId, mac)

def clientMacs (port : InstantOnPort) : List String :=
  (((clients.filterMap (clientRecord parseMac deviceMac)).filter fun r =>
    port.isNamed r.1).map Prod.snd).reverse.dedup.reverse

structure KeepsIdentity : Prop where
  distinct : ((mapInterfaces parseMac tables deviceMac clients networkId byId).map
    fun i => i.ifIndex).Nodup
  uplinked : ∀ (position : ℕ) (port : InstantOnPort), tables.ports[position]? = some port →
    ∀ i : SwitchPort,
    (mapInterfaces parseMac tables deviceMac clients networkId byId)[position]? = some i →
      i.neighbour = (((uplinkRecord parseMac tables byId).filter fun r =>
        port.isNamed r.1).map Prod.snd).getD {}
  attached : ∀ (position : ℕ) (port : InstantOnPort), tables.ports[position]? = some port →
    ∀ i : SwitchPort,
    (mapInterfaces parseMac tables deviceMac clients networkId byId)[position]? = some i →
      i.fdbMacs.getD [] = clientMacs parseMac deviceMac clients port

def PortsAt (p q : ℕ) (a b : InstantOnPort) : Prop :=
  tables.ports[p]? = some a ∧ tables.ports[q]? = some b ∧ p ≠ q

/-- No two ports come to one index in any of the ways to number them, and no text that is used names
two ports. -/
structure Apart : Prop where
  numeric : ∀ (p q : ℕ) (a b : InstantOnPort), tables.PortsAt p q a b → a.parts ≠ [] → b.parts ≠ [] →
    a.idNumber ≠ b.idNumber ∧ (a.idNumber < 2 ^ 31 - 1 ∨ b.idNumber < 2 ^ 31 - 1)
  mixed : ∀ (p q : ℕ) (a b : InstantOnPort), tables.PortsAt p q a b → a.parts ≠ [] → b.parts = [] →
    b.fallback q ≠ min (a.idNumber : ℤ) (2 ^ 31 - 1)
  plain : ∀ (p q : ℕ) (a b : InstantOnPort), tables.PortsAt p q a b → a.parts = [] → b.parts = [] →
    a.fallback p ≠ b.fallback q
  named : ∀ (p q : ℕ) (a b : InstantOnPort), tables.PortsAt p q a b → ∀ name, a.isNamed name = true →
    b.isNamed name = true → (∀ r, uplinkRecord parseMac tables byId = some r → r.1 ≠ name) ∧
      ∀ r ∈ clients.filterMap (clientRecord parseMac deviceMac), r.1 ≠ name

end InstantOnTables

namespace InstantOnPort
variable {port : InstantOnPort} {position : ℕ}
variable {n : ℤ}

theorem nonneg_of_parseI64 {s : String} (h : parseI64 s = some n) (hs : '-' ∉ s.toList) :
    0 ≤ n := by
  unfold parseI64 at h
  obtain ⟨hparse, -⟩ := filter_eq_some_iff.mp h
  split at hparse
  · rename_i cs heq
    exact absurd (heq ▸ mem_cons_self) hs
  · obtain ⟨m, -, rfl⟩ := map_eq_some_iff.mp hparse
    exact Int.natCast_nonneg m
  · obtain ⟨m, -, rfl⟩ := map_eq_some_iff.mp hparse
    exact Int.natCast_nonneg m

theorem nonneg_of_mem_components {id : String} (h : n ∈ components id) : 0 ≤ n := by
  unfold components at h
  obtain ⟨group, hgroup, hparse⟩ := mem_filterMap.mp h
  refine nonneg_of_parseI64 hparse fun hminus => ?_
  have hmem := mem_of_mem_trim hminus
  rw [String.toList_ofList] at hmem
  obtain ⟨c, -, hc⟩ := List.mem_map.mp (mem_of_mem_splitOnChar hgroup hmem)
  split_ifs at hc with hsep
  · exact absurd hc (by decide)
  · exact hsep (.inr hc)

theorem nonneg_of_mem_parts (h : n ∈ port.parts) : 0 ≤ n := by
  unfold parts at h
  cases hid : port.id.map components with
  | none =>
    rw [hid] at h
    exact absurd h not_mem_nil
  | some l =>
    rw [hid, getD_some] at h
    obtain ⟨id, -, rfl⟩ := map_eq_some_iff.mp hid
    exact nonneg_of_mem_components h

theorem foldl_saturate {parts : List ℤ} (h : ∀ n ∈ parts, 0 ≤ n) (v : ℕ) :
    parts.foldl (fun acc n => saturateI64 (saturateI64 (acc * 1000) + n))
        (min (v : ℤ) (2 ^ 63 - 1)) =
      min (((parts.map Int.toNat).foldl (fun v n => n + 1000 * v) v : ℕ) : ℤ) (2 ^ 63 - 1) := by
  induction parts generalizing v with
  | nil => rfl
  | cons n parts ih =>
    obtain ⟨hn, hparts⟩ := forall_mem_cons.mp h
    have hstep : saturateI64 (saturateI64 (min (v : ℤ) (2 ^ 63 - 1) * 1000) + n) =
        min ((n.toNat + 1000 * v : ℕ) : ℤ) (2 ^ 63 - 1) := by
      unfold saturateI64
      omega
    rw [foldl_cons, hstep, ih hparts, map_cons, foldl_cons]

theorem folded_parts (port : InstantOnPort) :
    folded port.parts = min (port.idNumber : ℤ) (2 ^ 63 - 1) := by
  have hdigits : port.idNumber = (port.parts.map Int.toNat).foldl (fun v n => n + 1000 * v) 0 := by
    unfold idNumber
    rw [Nat.ofDigits_eq_foldr, foldr_reverse]
    rfl
  have hnonneg : ∀ n ∈ port.parts, 0 ≤ n := fun n hn => nonneg_of_mem_parts hn
  have hfold := foldl_saturate hnonneg 0
  unfold folded
  rw [hdigits]
  exact hfold

theorem portIfIndex_eq (port : InstantOnPort) (position : ℕ) : port.portIfIndex position =
    if port.parts = [] then port.fallback position
    else min (port.idNumber : ℤ) (2 ^ 31 - 1) := by
  have hfolded := folded_parts port
  unfold portIfIndex
  unfold parts at hfolded ⊢
  split
  · rename_i hid
    rw [hid]
    rfl
  · rename_i hid
    rw [hid]
    rfl
  · rename_i l hl hid
    rw [hid, getD_some] at hfolded ⊢
    rw [if_neg hl, hfolded]
    omega

end InstantOnPort

namespace InstantOnTables
variable {parseMac : String → Option MacAddress} {tables : InstantOnTables}
  {deviceMac : Option String} {clients : List InstantOnClient} {networkId : Uuid}
  {byId : HashMap String (InstantOnDevice InstantOnTables)} {p q : ℕ} {a b : InstantOnPort}
  {name : String}
variable {i : SwitchPort}

def portIndexes (tables : InstantOnTables) : List ℤ :=
  match tables.ports with
  | [] => tables.uplink.toList.map fun _ => 1
  | ports => ports.mapIdx fun position port => port.portIfIndex position

theorem map_ifIndex_portInterfaces :
    (portInterfaces tables networkId).map (fun i => i.ifIndex) = tables.portIndexes := by
  unfold portInterfaces portIndexes
  cases tables.ports with
  | nil => exact List.map_map
  | cons port ports =>
    dsimp only
    refine ext_getElem? fun n => ?_
    rw [getElem?_map, getElem?_mapIdx, getElem?_mapIdx, Option.map_map]
    rfl

theorem getElem?_portInterfaces (h : tables.ports[p]? = some a) :
    (portInterfaces tables networkId)[p]? = some (a.portToInterface p networkId) := by
  unfold portInterfaces
  split
  · rename_i hnil
    rw [hnil] at h
    cases h
  · rw [getElem?_mapIdx, h, map_some]

theorem getElem?_portIndexes (h : tables.ports[p]? = some a) :
    tables.portIndexes[p]? = some (a.portIfIndex p) := by
  have hindexes : (portInterfaces tables 0).map (fun i => i.ifIndex) = tables.portIndexes :=
    map_ifIndex_portInterfaces
  rw [← hindexes, getElem?_map, getElem?_portInterfaces h]
  rfl

def Distinct (tables : InstantOnTables) : Prop :=
  ∀ (p q : ℕ) (a b : InstantOnPort), tables.PortsAt p q a b → a.portIfIndex p ≠ b.portIfIndex q

theorem nodup_portIndexes : tables.portIndexes.Nodup ↔ tables.Distinct := by
  constructor
  · intro h p q a b ⟨hp, hq, hne⟩ heq
    have hpos := getElem?_portIndexes hp
    rw [heq, ← getElem?_portIndexes hq] at hpos
    have hlt := (List.getElem?_eq_some_iff.mp (getElem?_portIndexes hp)).1
    exact hne ((getElem?_inj hlt h).mp hpos)
  · intro h
    unfold portIndexes
    split
    · cases tables.uplink with
      | none => exact nodup_nil
      | some uplink => exact nodup_singleton _
    · rw [nodup_iff_getElem?_ne_getElem?]
      intro p q hlt hq heq
      rw [length_mapIdx] at hq
      rw [getElem?_mapIdx, getElem?_mapIdx, getElem?_eq_getElem (hlt.trans hq),
        getElem?_eq_getElem hq, map_some, map_some] at heq
      exact h p q _ _ ⟨getElem?_eq_getElem _, getElem?_eq_getElem _, hlt.ne⟩
        (some.inj heq)

theorem distinct_iff : tables.Distinct ↔
    (∀ (p q : ℕ) (a b : InstantOnPort), tables.PortsAt p q a b → a.parts ≠ [] → b.parts ≠ [] →
      a.idNumber ≠ b.idNumber ∧ (a.idNumber < 2 ^ 31 - 1 ∨ b.idNumber < 2 ^ 31 - 1)) ∧
    (∀ (p q : ℕ) (a b : InstantOnPort), tables.PortsAt p q a b → a.parts ≠ [] → b.parts = [] →
      b.fallback q ≠ min (a.idNumber : ℤ) (2 ^ 31 - 1)) ∧
    ∀ (p q : ℕ) (a b : InstantOnPort), tables.PortsAt p q a b → a.parts = [] → b.parts = [] →
      a.fallback p ≠ b.fallback q := by
  constructor
  · intro h
    refine ⟨fun p q a b hat ha hb => ?_, fun p q a b hat ha hb => ?_, fun p q a b hat ha hb => ?_⟩
    · have hne := h p q a b hat
      rw [InstantOnPort.portIfIndex_eq, InstantOnPort.portIfIndex_eq, if_neg ha, if_neg hb] at hne
      omega
    · have hne := h p q a b hat
      rw [InstantOnPort.portIfIndex_eq, InstantOnPort.portIfIndex_eq, if_neg ha, if_pos hb] at hne
      exact hne.symm
    · have hne := h p q a b hat
      rw [InstantOnPort.portIfIndex_eq, InstantOnPort.portIfIndex_eq, if_pos ha, if_pos hb] at hne
      exact hne
  · rintro ⟨hnumeric, hmixed, hplain⟩ p q a b hat
    obtain ⟨hp, hq, hne⟩ := hat
    rw [InstantOnPort.portIfIndex_eq, InstantOnPort.portIfIndex_eq]
    by_cases ha : a.parts = []
    · by_cases hb : b.parts = []
      · rw [if_pos ha, if_pos hb]
        exact hplain p q a b ⟨hp, hq, hne⟩ ha hb
      · rw [if_pos ha, if_neg hb]
        exact hmixed q p b a ⟨hq, hp, hne.symm⟩ hb ha
    · by_cases hb : b.parts = []
      · rw [if_neg ha, if_pos hb]
        exact (hmixed p q a b ⟨hp, hq, hne⟩ ha hb).symm
      · have hnumbers := hnumeric p q a b ⟨hp, hq, hne⟩ ha hb
        rw [if_neg ha, if_neg hb]
        omega

def firstNamed (tables : InstantOnTables) (name : String) : Option (InstantOnPort × ℕ) :=
  tables.ports.zipIdx.find? fun entry => entry.1.isNamed name

/-- The record with this text is written to the port at a position. -/
def takes (tables : InstantOnTables) (p : ℕ) (name : String) : Bool :=
  (tables.firstNamed name).map Prod.snd = some p

theorem of_firstNamed (h : tables.firstNamed name = some (a, p)) :
    tables.ports[p]? = some a ∧ a.isNamed name = true := by
  have hmem := mem_of_find?_eq_some h
  have hname := find?_some (p := fun entry : InstantOnPort × ℕ => entry.1.isNamed name) h
  exact ⟨mem_zipIdx_iff_getElem?.mp hmem, hname⟩

theorem exists_firstNamed (hp : tables.ports[p]? = some a) (hname : a.isNamed name = true) :
    ∃ b q, tables.firstNamed name = some (b, q) := by
  have hsome : (tables.firstNamed name).isSome = true := by
    unfold firstNamed
    rw [find?_isSome]
    exact ⟨(a, p), mem_zipIdx_iff_getElem?.mpr hp, hname⟩
  obtain ⟨⟨b, q⟩, hfirst⟩ := isSome_iff_exists.mp hsome
  exact ⟨b, q, hfirst⟩

theorem takes_eq_true : tables.takes p name = true ↔ ∃ a, tables.firstNamed name = some (a, p) := by
  unfold takes
  rw [decide_eq_true_iff, map_eq_some_iff]
  constructor
  · rintro ⟨⟨a, q⟩, hfirst, rfl⟩
    exact ⟨a, hfirst⟩
  · exact fun ⟨a, hfirst⟩ => ⟨(a, p), hfirst, rfl⟩

theorem isNamed_of_takes (hp : tables.ports[p]? = some a) (h : tables.takes p name = true) :
    a.isNamed name = true := by
  obtain ⟨b, hfirst⟩ := takes_eq_true.mp h
  obtain ⟨hb, hname⟩ := of_firstNamed hfirst
  rw [hp] at hb
  rwa [some.inj hb]

theorem indexOfPort_eq_some (hdistinct : tables.Distinct) (hp : tables.ports[p]? = some a) :
    tables.indexOfPort name = some (a.portIfIndex p) ↔ tables.takes p name = true := by
  have hindex : tables.indexOfPort name =
      (tables.firstNamed name).map fun entry => entry.1.portIfIndex entry.2 := rfl
  rw [hindex, takes_eq_true, map_eq_some_iff]
  constructor
  · rintro ⟨⟨b, q⟩, hfirst, heq⟩
    have hb := (of_firstNamed hfirst).1
    have hqp : q = p := by
      by_contra hne
      exact hdistinct q p b a ⟨hb, hp, hne⟩ heq
    subst hqp
    exact ⟨b, hfirst⟩
  · rintro ⟨b, hfirst⟩
    have hb := (of_firstNamed hfirst).1
    rw [hp] at hb
    cases hb
    exact ⟨(a, p), hfirst, rfl⟩

section Updates
variable {V : Type} {change : V → SwitchPort → SwitchPort} {records : List (String × V)}

def targeted (tables : InstantOnTables) (change : V → SwitchPort → SwitchPort)
    (records : List (String × V)) : List (ℤ × (SwitchPort → SwitchPort)) :=
  records.filterMap fun r => (tables.indexOfPort r.1).map fun index => (index, change r.2)

theorem foldl_targeted (hdistinct : tables.Distinct) (hp : tables.ports[p]? = some a)
    (i : SwitchPort) :
    ((targeted tables change records).filter (·.1 = a.portIfIndex p)).foldl (fun i u => u.2 i) i =
      ((records.filter fun r => tables.takes p r.1).map Prod.snd).foldl (fun i v => change v i) i := by
  induction records generalizing i with
  | nil => rfl
  | cons r records ih =>
    have htakes : tables.indexOfPort r.1 = some (a.portIfIndex p) ↔ tables.takes p r.1 = true :=
      indexOfPort_eq_some hdistinct hp
    unfold targeted at ih ⊢
    rw [filterMap_cons, filter_cons]
    cases hindex : tables.indexOfPort r.1 with
    | none =>
      have hnot : tables.takes p r.1 ≠ true := by
        intro htaken
        rw [htakes.mpr htaken] at hindex
        cases hindex
      rw [if_neg hnot]
      exact ih i
    | some index =>
      rw [hindex, some.injEq] at htakes
      dsimp only [map_some]
      rw [filter_cons]
      by_cases heq : index = a.portIfIndex p
      · rw [if_pos (decide_eq_true heq), if_pos (htakes.mp heq), foldl_cons, map_cons, foldl_cons]
        exact ih _
      · rw [if_neg (by rwa [decide_eq_true_iff]), if_neg fun h => heq (htakes.mpr h)]
        exact ih i

end Updates

def pushChange (mac : String) (i : SwitchPort) : SwitchPort :=
  { i with fdbMacs := pushMac i.fdbMacs mac }

theorem applyUplink_eq (interfaces : List SwitchPort) :
    applyUplink parseMac tables byId interfaces = FirstMatch.modifyAll (fun i => i.ifIndex)
      (targeted tables SwitchPort.setNeighbour (uplinkRecord parseMac tables byId).toList)
      interfaces := by
  unfold applyUplink uplinkRecord targeted
  cases tables.uplink with
  | none => rfl
  | some uplink =>
    dsimp only
    cases hport : uplink.portId with
    | none => simp [hport, modifyAll]
    | some portId =>
      cases hmac : parentMac parseMac byId uplink with
      | none => cases hindex : tables.indexOfPort (trim portId) <;>
          simp [hport, hmac, hindex, modifyAll]
      | some mac => cases hindex : tables.indexOfPort (trim portId) <;>
          simp [hport, hmac, hindex, modifyAll, updatePort]

theorem applyClientMacs_eq (interfaces : List SwitchPort) :
    applyClientMacs parseMac tables deviceMac clients interfaces =
      FirstMatch.modifyAll (fun i => i.ifIndex)
        (targeted tables pushChange (clients.filterMap (clientRecord parseMac deviceMac)))
        interfaces := by
  unfold applyClientMacs targeted modifyAll
  rw [foldl_filterMap, foldl_filterMap]
  congr 1
  funext interfaces client
  unfold applyClientMac clientRecord
  cases client.macAddress.bind (canonicalMac parseMac) with
  | none => rfl
  | some mac =>
    dsimp only
    by_cases hown : deviceMac = some mac
    · simp [hown, Option.filter]
    · cases client.portId with
      | none => simp [hown, Option.filter]
      | some portId =>
        cases hindex : tables.indexOfPort (trim portId) with
        | none => simp [hown, hindex, Option.filter]
        | some index =>
          simp [hown, hindex, Option.filter]
          rfl

theorem ifIndex_of_mem_updates : ∀ u ∈ targeted tables SwitchPort.setNeighbour
      (uplinkRecord parseMac tables byId).toList ++
    targeted tables pushChange (clients.filterMap (clientRecord parseMac deviceMac)),
    ∀ i : SwitchPort, (u.2 i).ifIndex = i.ifIndex := by
  intro u hu i
  rcases mem_append.mp hu with hu | hu
  · obtain ⟨r, -, hr⟩ := mem_filterMap.mp hu
    obtain ⟨index, -, rfl⟩ := map_eq_some_iff.mp hr
    rfl
  · obtain ⟨r, -, hr⟩ := mem_filterMap.mp hu
    obtain ⟨index, -, rfl⟩ := map_eq_some_iff.mp hr
    rfl

theorem mapInterfaces_eq : mapInterfaces parseMac tables deviceMac clients networkId byId =
    FirstMatch.modifyAll (fun i => i.ifIndex)
      (targeted tables SwitchPort.setNeighbour (uplinkRecord parseMac tables byId).toList ++
        targeted tables pushChange (clients.filterMap (clientRecord parseMac deviceMac)))
      (portInterfaces tables networkId) := by
  rw [mapInterfaces, applyClientMacs_eq, applyUplink_eq, modifyAll_append]

theorem map_ifIndex_mapInterfaces :
    (mapInterfaces parseMac tables deviceMac clients networkId byId).map (fun i => i.ifIndex) =
      tables.portIndexes := by
  rw [mapInterfaces_eq, map_key_modifyAll ifIndex_of_mem_updates,
    map_ifIndex_portInterfaces]

theorem getElem?_mapInterfaces (hdistinct : tables.Distinct) (hp : tables.ports[p]? = some a) :
    (mapInterfaces parseMac tables deviceMac clients networkId byId)[p]? = some
      ((((clients.filterMap (clientRecord parseMac deviceMac)).filter fun r =>
        tables.takes p r.1).map Prod.snd).foldl (fun i mac => pushChange mac i)
          ((((uplinkRecord parseMac tables byId).toList.filter fun r =>
            tables.takes p r.1).map Prod.snd).foldl (fun i n => i.setNeighbour n)
              (a.portToInterface p networkId))) := by
  have hindex : (a.portToInterface p networkId).ifIndex = a.portIfIndex p := rfl
  have hfirst := not_mem_take_of_nodup (nodup_portIndexes.mpr hdistinct)
    (getElem?_portIndexes hp)
  rw [mapInterfaces_eq, getElem?_modifyAll ifIndex_of_mem_updates,
    getElem?_portInterfaces hp, map_some, map_take, map_ifIndex_portInterfaces, hindex,
    if_neg hfirst]
  unfold updated
  simp only [hindex]
  rw [filter_append, foldl_append, foldl_targeted hdistinct hp, foldl_targeted hdistinct hp]

section Columns
variable {macs : List String} {neighbours : List PortNeighbour} {i : SwitchPort}

theorem neighbour_foldl_pushChange :
    (macs.foldl (fun i mac => pushChange mac i) i).neighbour = i.neighbour := by
  induction macs generalizing i with
  | nil => rfl
  | cons mac macs ih =>
    rw [foldl_cons, ih]
    rfl

theorem fdbMacs_foldl_setNeighbour :
    (neighbours.foldl (fun i n => i.setNeighbour n) i).fdbMacs = i.fdbMacs := by
  induction neighbours generalizing i with
  | nil => rfl
  | cons n neighbours ih =>
    rw [foldl_cons, ih]
    rfl

theorem fdbMacs_foldl_pushChange (h : i.fdbMacs = none) :
    (macs.foldl (fun i mac => pushChange mac i) i).fdbMacs.getD [] = macs.reverse.dedup.reverse := by
  induction macs using List.reverseRecOn with
  | nil =>
    rw [foldl_nil, h]
    rfl
  | append_singleton macs mac ih =>
    rw [foldl_append, foldl_cons, foldl_nil, reverse_append,
      reverse_singleton, singleton_append, pushChange, pushMac, ih, getD_some]
    have hmem : mac ∈ macs.reverse.dedup.reverse ↔ mac ∈ macs.reverse := mem_reverse.trans mem_dedup
    by_cases hseen : mac ∈ macs.reverse
    · rw [if_pos (hmem.mpr hseen), dedup_cons_of_mem hseen]
    · rw [if_neg fun h => hseen (hmem.mp h), dedup_cons_of_notMem hseen, reverse_cons]

end Columns

theorem neighbour_mapInterfaces (hdistinct : tables.Distinct) (hp : tables.ports[p]? = some a)
    (hi : (mapInterfaces parseMac tables deviceMac clients networkId byId)[p]? = some i) :
    i.neighbour = (((uplinkRecord parseMac tables byId).filter fun r =>
      tables.takes p r.1).map Prod.snd).getD {} := by
  rw [getElem?_mapInterfaces hdistinct hp] at hi
  rw [← some.inj hi, neighbour_foldl_pushChange]
  cases uplinkRecord parseMac tables byId with
  | none => rfl
  | some r =>
    rw [toList_some, filter_cons, filter_some]
    split_ifs
    · rfl
    · rfl

theorem fdbMacs_mapInterfaces (hdistinct : tables.Distinct) (hp : tables.ports[p]? = some a)
    (hi : (mapInterfaces parseMac tables deviceMac clients networkId byId)[p]? = some i) :
    i.fdbMacs.getD [] = (((clients.filterMap (clientRecord parseMac deviceMac)).filter fun r =>
      tables.takes p r.1).map Prod.snd).reverse.dedup.reverse := by
  rw [getElem?_mapInterfaces hdistinct hp] at hi
  rw [← some.inj hi]
  refine fdbMacs_foldl_pushChange ?_
  rw [fdbMacs_foldl_setNeighbour]
  rfl

theorem eq_of_isNamed {name' : String} (h : a.isNamed name = true) (h' : a.isNamed name' = true) :
    name = name' := by
  unfold InstantOnPort.isNamed at h h'
  exact some.inj ((of_decide_eq_true h).symm.trans (of_decide_eq_true h'))

theorem takes_eq_isNamed (hp : tables.ports[p]? = some a)
    (hsingle : ∀ (q : ℕ) (b : InstantOnPort), tables.PortsAt p q a b → a.isNamed name = true →
      b.isNamed name ≠ true) : tables.takes p name = a.isNamed name := by
  rw [Bool.eq_iff_iff]
  constructor
  · exact isNamed_of_takes hp
  · intro hname
    obtain ⟨b, q, hfirst⟩ := exists_firstNamed hp hname
    obtain ⟨hq, hb⟩ := of_firstNamed hfirst
    have hqp : p = q := by
      by_contra hne
      exact hsingle q b ⟨hp, hq, hne⟩ hname hb
    subst hqp
    exact takes_eq_true.mpr ⟨b, hfirst⟩

theorem exists_not_takes (hat : tables.PortsAt p q a b) (ha : a.isNamed name = true)
    (hb : b.isNamed name = true) : ∃ (n : ℕ) (c : InstantOnPort), tables.ports[n]? = some c ∧
      c.isNamed name = true ∧ tables.takes n name = false := by
  obtain ⟨hp, hq, hne⟩ := hat
  by_cases htakes : tables.takes p name = true
  · refine ⟨q, b, hq, hb, ?_⟩
    rw [Bool.eq_false_iff]
    intro htakes'
    obtain ⟨c, hc⟩ := takes_eq_true.mp htakes
    obtain ⟨d, hd⟩ := takes_eq_true.mp htakes'
    rw [hc, some.injEq, Prod.mk.injEq] at hd
    exact hne hd.2
  · exact ⟨p, a, hp, ha, Bool.eq_false_iff.mpr htakes⟩

theorem ne_empty_of_uplinkRecord {r : String × PortNeighbour}
    (h : uplinkRecord parseMac tables byId = some r) : r.2 ≠ {} := by
  unfold uplinkRecord at h
  simp only [bind_eq_bind, bind_eq_some_iff] at h
  obtain ⟨uplink, -, portId, -, mac, -, hpure⟩ := h
  cases hpure
  exact nofun

/-- The ports keep their identity if no two come to one index in any of the ways to number them, and
no text that is used names two of them. -/
theorem keepsIdentity_iff (parseMac : String → Option MacAddress) (tables : InstantOnTables)
    (deviceMac : Option String) (clients : List InstantOnClient) (networkId : Uuid)
    (byId : HashMap String (InstantOnDevice InstantOnTables)) :
    KeepsIdentity parseMac tables deviceMac clients networkId byId ↔
      Apart parseMac tables deviceMac clients byId := by
  constructor
  · intro h
    have hdistinct : tables.Distinct := by
      rw [← nodup_portIndexes, ← map_ifIndex_mapInterfaces]
      exact h.distinct
    obtain ⟨hnumeric, hmixed, hplain⟩ := distinct_iff.mp hdistinct
    refine ⟨hnumeric, hmixed, hplain, fun p q a b hat name ha hb => ?_⟩
    obtain ⟨n, c, hn, hc, htakes⟩ := exists_not_takes hat ha hb
    obtain ⟨i, hi⟩ : ∃ i, (mapInterfaces parseMac tables deviceMac clients networkId byId)[n]? =
        some i := ⟨_, getElem?_mapInterfaces hdistinct hn⟩
    refine ⟨fun r hr heq => ?_, fun r hr heq => ?_⟩
    · subst heq
      have htold := h.uplinked n c hn i hi
      rw [neighbour_mapInterfaces hdistinct hn hi, hr, filter_some, filter_some, htakes,
        hc] at htold
      exact ne_empty_of_uplinkRecord hr htold.symm
    · subst heq
      have htold := h.attached n c hn i hi
      rw [fdbMacs_mapInterfaces hdistinct hn hi] at htold
      have hmac : r.2 ∈ clientMacs parseMac deviceMac clients c := by
        unfold clientMacs
        rw [mem_reverse, mem_dedup, mem_reverse]
        exact List.mem_map_of_mem (mem_filter.mpr ⟨hr, hc⟩)
      rw [← htold, mem_reverse, mem_dedup, mem_reverse] at hmac
      obtain ⟨r', hr', -⟩ := List.mem_map.mp hmac
      have htaken := (mem_filter.mp hr').2
      -- a port has one identifier
      rw [eq_of_isNamed (isNamed_of_takes hn htaken) hc, htakes] at htaken
      cases htaken
  · intro h
    have hdistinct : tables.Distinct := distinct_iff.mpr ⟨h.numeric, h.mixed, h.plain⟩
    refine ⟨?_, fun p a hp i hi => ?_, fun p a hp i hi => ?_⟩
    · rw [map_ifIndex_mapInterfaces]
      exact nodup_portIndexes.mpr hdistinct
    · rw [neighbour_mapInterfaces hdistinct hp hi]
      cases hrecord : uplinkRecord parseMac tables byId with
      | none => rfl
      | some r =>
        have htakes : tables.takes p r.1 = a.isNamed r.1 := takes_eq_isNamed hp fun q b hat ha hb =>
            (h.named p q a b hat r.1 ha hb).1 r hrecord rfl
        rw [filter_some, filter_some, htakes]
    · rw [fdbMacs_mapInterfaces hdistinct hp hi, clientMacs]
      congr 4
      refine filter_congr fun r hr => ?_
      exact takes_eq_isNamed hp fun q b hat ha hb => (h.named p q a b hat r.1 ha hb).2 r hr rfl

section Stack

def coreStack : InstantOnTables where
  ports := [{ id := some "gi1/0/1" }, { id := some "gi2/0/1" }]

/-- The number of the member is lost with the letters in front of it. -/
theorem not_keepsIdentity : ¬∀ (parseMac : String → Option MacAddress) (tables : InstantOnTables)
    (deviceMac : Option String) (clients : List InstantOnClient) (networkId : Uuid)
    (byId : HashMap String (InstantOnDevice InstantOnTables)),
    (tables.ports.filterMap (·.id)).Nodup →
      KeepsIdentity parseMac tables deviceMac clients networkId byId := by
  intro h
  have hids : (coreStack.ports.filterMap (·.id)).Nodup := by decide
  have hdistinct := (h paddedMac coreStack none [] 1 HashMap.empty hids).distinct
  rw [map_ifIndex_mapInterfaces] at hdistinct
  exact absurd hdistinct (by decide +kernel)

end Stack

end InstantOnTables
end Scanopy
