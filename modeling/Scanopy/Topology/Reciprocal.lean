import Scanopy.Topology.Links

/-! Ports that name each other. The adjacency of a network has the ports of each device by the device
that they name; two ports are paired if each is the only one of its device that names the other's. -/

namespace Scanopy

open List Option

structure NamingPort where
  id : Uuid
  hostId : Uuid
  remote : Option Uuid
  deriving DecidableEq

structure NeighborAdjacency where
  ports : List NamingPort
  nodup : (ports.map (·.id)).Nodup

section Pairs

/-- The pair of devices that a port counts for. A device that names itself counts for none. -/
def NamingPort.between (p : NamingPort) : Option (Uuid × Uuid) :=
  p.remote.bind fun remote => if remote ≠ p.hostId then some (p.hostId, remote) else none

def pushPort (m : HashMap (Uuid × Uuid) (List Uuid)) (p : NamingPort) :
    HashMap (Uuid × Uuid) (List Uuid) :=
  match p.between with
  | some key => m.alter key [] fun ports => ports ++ [p.id]
  | none => m

def NeighborAdjacency.portsBetween (adjacency : NeighborAdjacency) :
    HashMap (Uuid × Uuid) (List Uuid) := adjacency.ports.foldl pushPort HashMap.empty

def pairPorts (portsBetween : HashMap (Uuid × Uuid) (List Uuid)) (pairs : HashMap Uuid (Uuid × Uuid))
    (entry : (Uuid × Uuid) × List Uuid) : HashMap Uuid (Uuid × Uuid) :=
  match entry.2, portsBetween.get (entry.1.2, entry.1.1) with
  | [localPort], some [remotePort] => pairs.insert localPort (remotePort, entry.1.2)
  | _, _ => pairs

/-- `reciprocal_pairs`, with the order in which the map is gone through. -/
def reciprocalPairs (portsBetween : HashMap (Uuid × Uuid) (List Uuid)) (order : List (Uuid × Uuid)) :
    HashMap Uuid (Uuid × Uuid) :=
  (portsBetween.iterate order).foldl (pairPorts portsBetween) HashMap.empty

end Pairs

section Adjacency

namespace NeighborAdjacency
variable (adjacency : NeighborAdjacency)
variable {p : NamingPort} {key : Uuid × Uuid}

def naming (key : Uuid × Uuid) : List NamingPort := adjacency.ports.filter fun p => p.between = some key

theorem mem_naming :
    p ∈ adjacency.naming key ↔ p ∈ adjacency.ports ∧ p.between = some key := by
  rw [naming, mem_filter, decide_eq_true_eq]

theorem get_portsBetween (key : Uuid × Uuid) : adjacency.portsBetween.get key =
    if adjacency.naming key = [] then none else some ((adjacency.naming key).map (·.id)) := by
  rw [portsBetween, naming]
  generalize adjacency.ports = ports
  induction ports using List.reverseRecOn with
  | nil => rfl
  | append_singleton ports p ih =>
    rw [foldl_append, foldl_cons, foldl_nil, pushPort, filter_append]
    cases hbetween : p.between with
    | none =>
      have hlast : [p].filter (fun p => p.between = some key) = [] := by simp [hbetween]
      rw [hlast, append_nil, ih]
    | some key' =>
      dsimp only
      rw [HashMap.get_alter]
      by_cases hkey : key = key'
      · have hlast : [p].filter (fun p => p.between = some key) = [p] := by simp [hbetween, hkey]
        rw [if_pos hkey, hlast, ← hkey, ih]
        split
        · rename_i hnil
          rw [hnil]
          rfl
        · simp
      · have hlast : [p].filter (fun p => p.between = some key) = [] := by
          simp [hbetween, Ne.symm hkey]
        rw [if_neg hkey, hlast, append_nil, ih]

theorem get_portsBetween_singleton {id : Uuid} :
    adjacency.portsBetween.get key = some [id] ↔ ∃ p, adjacency.naming key = [p] ∧ p.id = id := by
  rw [get_portsBetween]
  split
  · rename_i hnil
    simp [hnil]
  · rw [some.injEq, map_eq_singleton_iff]

theorem naming_eq_singleton : adjacency.naming key = [p] ↔
    p ∈ adjacency.ports ∧ p.between = some key ∧
      ∀ c ∈ adjacency.ports, c.between = some key → c = p := by
  constructor
  · intro h
    have hp : p ∈ adjacency.naming key := by rw [h]; exact mem_singleton_self p
    obtain ⟨hmem, hkey⟩ := adjacency.mem_naming.mp hp
    refine ⟨hmem, hkey, fun c hc hckey => ?_⟩
    have hcmem : c ∈ adjacency.naming key := adjacency.mem_naming.mpr ⟨hc, hckey⟩
    rw [h] at hcmem
    exact mem_singleton.mp hcmem
  · rintro ⟨hmem, hkey, honly⟩
    have hnodup : (adjacency.naming key).Nodup := adjacency.nodup.of_map.filter _
    have hperm : (adjacency.naming key).Perm [p] := by
      refine (perm_ext_iff_of_nodup hnodup (nodup_singleton p)).mpr fun c => ?_
      rw [adjacency.mem_naming, mem_singleton]
      constructor
      · exact fun hc => honly c hc.1 hc.2
      · rintro rfl
        exact ⟨hmem, hkey⟩
    exact perm_singleton.mp hperm

end NeighborAdjacency

def pairOf (portsBetween : HashMap (Uuid × Uuid) (List Uuid)) (entry : (Uuid × Uuid) × List Uuid) :
    Option (Uuid × Uuid × Uuid) :=
  match entry.2, portsBetween.get (entry.1.2, entry.1.1) with
  | [localPort], some [remotePort] => some (localPort, remotePort, entry.1.2)
  | _, _ => none

theorem pairOf_eq_some {portsBetween : HashMap (Uuid × Uuid) (List Uuid)} {key : Uuid × Uuid}
    {ports : List Uuid} {localPort remotePort remoteHost : Uuid} :
    pairOf portsBetween (key, ports) = some (localPort, remotePort, remoteHost) ↔
      ports = [localPort] ∧ portsBetween.get (key.2, key.1) = some [remotePort] ∧
        remoteHost = key.2 := by
  unfold pairOf
  split
  · rename_i a b hports hremote
    dsimp only at hports hremote
    rw [hports, hremote]
    simp only [some.injEq, Prod.mk.injEq, cons.injEq, and_true]
    tauto
  · rename_i hnot
    refine iff_of_false nofun ?_
    rintro ⟨rfl, hremote, -⟩
    exact hnot localPort remotePort rfl hremote

theorem get_reciprocalPairs_eq (portsBetween : HashMap (Uuid × Uuid) (List Uuid))
    (order : List (Uuid × Uuid)) (id : Uuid) : (reciprocalPairs portsBetween order).get id =
      ((((portsBetween.iterate order).filterMap (pairOf portsBetween)).filter
        fun e => e.1 = id).getLast?).map Prod.snd := by
  have hfold : reciprocalPairs portsBetween order =
      ((portsBetween.iterate order).filterMap (pairOf portsBetween)).foldl
        (fun m e => m.insert e.1 e.2) HashMap.empty := by
    rw [reciprocalPairs, foldl_filterMap]
    refine foldl_ext _ _ _ fun pairs entry _ => ?_
    unfold pairPorts pairOf
    split <;> rfl
  rw [hfold, HashMap.get_foldl_insert, HashMap.get_empty, or_none]

end Adjacency

section Matching
variable (adjacency : NeighborAdjacency) {order : List (Uuid × Uuid)}
variable {a b : NamingPort} {remoteHost : Uuid}

structure NamesOnly (a b : NamingPort) : Prop where
  names : a.remote = some b.hostId
  apart : a.hostId ≠ b.hostId
  only : ∀ c ∈ adjacency.ports, c.hostId = a.hostId → c.remote = some b.hostId → c = a

theorem NamingPort.between_eq_some {p : NamingPort} {localHost : Uuid} :
    p.between = some (localHost, remoteHost) ↔
      p.hostId = localHost ∧ p.remote = some remoteHost ∧ localHost ≠ remoteHost := by
  rw [NamingPort.between, bind_eq_some_iff]
  constructor
  · rintro ⟨remote, hremote, h⟩
    split at h
    · rename_i hne
      obtain ⟨rfl, rfl⟩ := Prod.mk.inj (some.inj h)
      exact ⟨rfl, hremote, Ne.symm hne⟩
    · exact nomatch h
  · rintro ⟨rfl, hremote, hne⟩
    exact ⟨remoteHost, hremote, if_pos (Ne.symm hne)⟩

theorem naming_eq_singleton_iff (ha : a ∈ adjacency.ports) :
    adjacency.naming (a.hostId, b.hostId) = [a] ↔ NamesOnly adjacency a b := by
  rw [adjacency.naming_eq_singleton]
  simp only [NamingPort.between_eq_some]
  constructor
  · rintro ⟨-, ⟨-, hnames, hne⟩, honly⟩
    exact ⟨hnames, hne, fun c hc hhost hremote => honly c hc ⟨hhost, hremote, hne⟩⟩
  · rintro ⟨hnames, hne, honly⟩
    exact ⟨ha, ⟨trivial, hnames, hne⟩, fun c hc hkey => honly c hc hkey.1 hkey.2.1⟩

variable (horder : adjacency.portsBetween.Enumerates order)
include horder

theorem get_reciprocalPairs {id remotePort : Uuid} :
    (reciprocalPairs adjacency.portsBetween order).get id = some (remotePort, remoteHost) ↔
      ∃ a b, adjacency.naming (a.hostId, b.hostId) = [a] ∧
        adjacency.naming (b.hostId, a.hostId) = [b] ∧ a.id = id ∧ b.id = remotePort ∧
          b.hostId = remoteHost := by
  have hmem : ∀ e, e ∈ (adjacency.portsBetween.iterate order).filterMap
      (pairOf adjacency.portsBetween) ↔ ∃ a b, adjacency.naming (a.hostId, b.hostId) = [a] ∧
        adjacency.naming (b.hostId, a.hostId) = [b] ∧ e = (a.id, b.id, b.hostId) := by
    rintro ⟨localPort, remotePort, remoteHost⟩
    rw [mem_filterMap]
    constructor
    · rintro ⟨⟨key, ports⟩, hentry, hpair⟩
      obtain ⟨rfl, hremote, rfl⟩ := pairOf_eq_some.mp hpair
      obtain ⟨a, ha, rfl⟩ := adjacency.get_portsBetween_singleton.mp (horder.mem_iterate.mp hentry)
      obtain ⟨b, hb, rfl⟩ := adjacency.get_portsBetween_singleton.mp hremote
      obtain ⟨localHost, remoteHost⟩ := key
      have hakey := (adjacency.naming_eq_singleton.mp ha).2.1
      have hbkey := (adjacency.naming_eq_singleton.mp hb).2.1
      obtain ⟨rfl, -⟩ := NamingPort.between_eq_some.mp hakey
      obtain ⟨rfl, -⟩ := NamingPort.between_eq_some.mp hbkey
      exact ⟨a, b, ha, hb, rfl⟩
    · rintro ⟨a, b, ha, hb, heq⟩
      simp only [Prod.mk.injEq] at heq
      obtain ⟨rfl, rfl, rfl⟩ := heq
      refine ⟨((a.hostId, b.hostId), [a.id]), horder.mem_iterate.mpr ?_, pairOf_eq_some.mpr ?_⟩
      · exact adjacency.get_portsBetween_singleton.mpr ⟨a, ha, rfl⟩
      · exact ⟨rfl, adjacency.get_portsBetween_singleton.mpr ⟨b, hb, rfl⟩, rfl⟩
  -- a port names one device, so what is recorded for it is recorded once
  have hagree : ∀ a b a' b', adjacency.naming (a.hostId, b.hostId) = [a] →
      adjacency.naming (b.hostId, a.hostId) = [b] → adjacency.naming (a'.hostId, b'.hostId) = [a'] →
        adjacency.naming (b'.hostId, a'.hostId) = [b'] → a.id = a'.id → a = a' ∧ b = b' := by
    intro a b a' b' ha hb ha' hb' hid
    obtain ⟨hmem, hkey, -⟩ := adjacency.naming_eq_singleton.mp ha
    obtain ⟨hmem', hkey', -⟩ := adjacency.naming_eq_singleton.mp ha'
    obtain rfl := inj_on_of_nodup_map adjacency.nodup hmem hmem' hid
    rw [hkey, some.injEq, Prod.mk.injEq] at hkey'
    rw [← hkey'.2, hb, cons.injEq] at hb'
    exact ⟨rfl, hb'.1⟩
  rw [get_reciprocalPairs_eq, map_eq_some_iff]
  constructor
  · rintro ⟨e, hlast, heq⟩
    obtain ⟨he, hid⟩ := mem_filter.mp (mem_of_getLast? hlast)
    obtain ⟨a, b, ha, hb, rfl⟩ := (hmem e).mp he
    obtain ⟨rfl, rfl⟩ := Prod.mk.inj heq
    exact ⟨a, b, ha, hb, of_decide_eq_true hid, rfl, rfl⟩
  · rintro ⟨a, b, ha, hb, rfl, rfl, rfl⟩
    have hfound : (a.id, b.id, b.hostId) ∈ ((adjacency.portsBetween.iterate order).filterMap
        (pairOf adjacency.portsBetween)).filter fun e => e.1 = a.id :=
      mem_filter.mpr ⟨(hmem _).mpr ⟨a, b, ha, hb, rfl⟩, decide_eq_true rfl⟩
    cases hlast : (((adjacency.portsBetween.iterate order).filterMap
        (pairOf adjacency.portsBetween)).filter fun e => e.1 = a.id).getLast? with
    | none =>
      rw [getLast?_eq_none_iff] at hlast
      rw [hlast] at hfound
      exact absurd hfound not_mem_nil
    | some e =>
      obtain ⟨he, hid⟩ := mem_filter.mp (mem_of_getLast? hlast)
      obtain ⟨a', b', ha', hb', rfl⟩ := (hmem e).mp he
      obtain ⟨rfl, rfl⟩ := hagree a' b' a b ha' hb' ha hb (of_decide_eq_true hid)
      exact ⟨_, rfl, rfl⟩

theorem get_reciprocalPairs_port (ha : a ∈ adjacency.ports)
    (hb : b ∈ adjacency.ports) :
    (reciprocalPairs adjacency.portsBetween order).get a.id = some (b.id, b.hostId) ↔
      NamesOnly adjacency a b ∧ NamesOnly adjacency b a := by
  rw [get_reciprocalPairs adjacency horder, ← naming_eq_singleton_iff adjacency ha,
    ← naming_eq_singleton_iff adjacency hb]
  constructor
  · rintro ⟨a', b', ha', hb', hida, hidb, -⟩
    have hmem := (adjacency.naming_eq_singleton.mp ha').1
    have hmem' := (adjacency.naming_eq_singleton.mp hb').1
    obtain rfl := inj_on_of_nodup_map adjacency.nodup hmem ha hida
    obtain rfl := inj_on_of_nodup_map adjacency.nodup hmem' hb hidb
    exact ⟨ha', hb'⟩
  · exact fun h => ⟨a, b, h.1, h.2, rfl, rfl, rfl⟩

/-- The pairs are symmetric, join ports of two devices, and are those of ports that name only each
other. -/
theorem reciprocalPairs_matching :
    (∀ a ∈ adjacency.ports, ∀ b ∈ adjacency.ports,
      ((reciprocalPairs adjacency.portsBetween order).get a.id = some (b.id, b.hostId) ↔
        (reciprocalPairs adjacency.portsBetween order).get b.id = some (a.id, a.hostId)) ∧
      ((reciprocalPairs adjacency.portsBetween order).get a.id = some (b.id, b.hostId) ↔
        NamesOnly adjacency a b ∧ NamesOnly adjacency b a)) ∧
    ∀ id remotePort remoteHost,
      (reciprocalPairs adjacency.portsBetween order).get id = some (remotePort, remoteHost) →
        ∃ a ∈ adjacency.ports, ∃ b ∈ adjacency.ports, a.id = id ∧ b.id = remotePort ∧
          b.hostId = remoteHost ∧ a.hostId ≠ b.hostId := by
  constructor
  · intro a ha b hb
    have hab := get_reciprocalPairs_port adjacency horder ha hb
    have hba := get_reciprocalPairs_port adjacency horder hb ha
    exact ⟨hab.trans (and_comm.trans hba.symm), hab⟩
  · intro id remotePort remoteHost h
    obtain ⟨a, b, ha, hb, rfl, rfl, rfl⟩ := (get_reciprocalPairs adjacency horder).mp h
    have hamem := (adjacency.naming_eq_singleton.mp ha).1
    have hbmem := (adjacency.naming_eq_singleton.mp hb).1
    exact ⟨a, hamem, b, hbmem, rfl, rfl, rfl, ((naming_eq_singleton_iff adjacency hamem).mp ha).apart⟩

omit horder in
/-- Two switches with one cable. -/
theorem reciprocalPairs_cable :
    let adjacency : NeighborAdjacency := ⟨[⟨11, 1, some 2⟩, ⟨21, 2, some 1⟩], by decide⟩
    adjacency.portsBetween.Enumerates [(1, 2), (2, 1)] ∧
      ((reciprocalPairs adjacency.portsBetween [(1, 2), (2, 1)]).get 11 = some (21, 2) ↔
        (reciprocalPairs adjacency.portsBetween [(1, 2), (2, 1)]).get 21 = some (11, 1)) := by
  intro adjacency
  have horder : adjacency.portsBetween.Enumerates [(1, 2), (2, 1)] := by decide
  exact ⟨horder, ((reciprocalPairs_matching adjacency horder).1 ⟨11, 1, some 2⟩ (by decide)
    ⟨21, 2, some 1⟩ (by decide)).1⟩

end Matching

theorem IdentityResolution.id?_eq_some {r : IdentityResolution} {id : Uuid} :
    r.id? = some id ↔ r = .resolved id := by
  cases r <;> simp [IdentityResolution.id?]

namespace NetworkInventory
variable (parseMac : String → Option MacAddress) (inv : NetworkInventory) (networkId : Uuid)
variable {i : SnmpInterface}

def adjacency : NeighborAdjacency where
  ports := (inv.interfaces.rows.filter (namesNeighbor networkId)).map fun i =>
    ⟨i.id, i.base.hostId, (inv.deviceVerdict parseMac networkId i).id?⟩
  nodup := by
    rw [List.map_map]
    exact inv.interfaces.nodup.sublist (List.filter_sublist.map _)

theorem map_id_naming (localHost remoteHost : Uuid) :
    ((inv.adjacency parseMac networkId).naming (localHost, remoteHost)).map (·.id) =
      inv.portsBetween parseMac networkId localHost remoteHost := by
  rw [NeighborAdjacency.naming, adjacency, List.filter_map, List.map_map, List.filter_filter,
    portsBetween]
  have hsame : ∀ i : SnmpInterface, ((⟨i.id, i.base.hostId,
      (inv.deviceVerdict parseMac networkId i).id?⟩ : NamingPort).between =
        some (localHost, remoteHost) ↔ i.base.hostId = localHost ∧
          inv.deviceVerdict parseMac networkId i = .resolved remoteHost ∧
            remoteHost ≠ localHost) := by
    intro i
    rw [NamingPort.between_eq_some, IdentityResolution.id?_eq_some, ne_comm]
  refine congrArg _ (filter_congr fun i _ => ?_)
  rw [Bool.eq_iff_iff]
  simp only [Function.comp_apply, Bool.and_eq_true, decide_eq_true_eq, hsame]
  tauto

theorem reciprocal_eq_some_iff {remotePort remoteHost : Uuid} :
    inv.reciprocal parseMac networkId i = some (remotePort, remoteHost) ↔
      inv.deviceVerdict parseMac networkId i = .resolved remoteHost ∧
        (∃ id, inv.portsBetween parseMac networkId i.base.hostId remoteHost = [id]) ∧
          inv.portsBetween parseMac networkId remoteHost i.base.hostId = [remotePort] := by
  unfold reciprocal
  split
  · rename_i remote hverdict
    rw [hverdict, IdentityResolution.resolved.injEq]
    split
    · rename_i hlocal hremote
      rw [some.injEq, Prod.mk.injEq]
      constructor
      · rintro ⟨rfl, rfl⟩
        exact ⟨rfl, ⟨_, hlocal⟩, hremote⟩
      · rintro ⟨rfl, -, h⟩
        exact ⟨(cons.inj (hremote.symm.trans h)).1, rfl⟩
    · rename_i hnot
      refine iff_of_false (fun h => absurd h.symm (some_ne_none _)) ?_
      rintro ⟨rfl, ⟨id, hlocal⟩, hremote⟩
      exact hnot id remotePort hlocal hremote
  · rename_i hverdict
    exact iff_of_false (fun h => absurd h.symm (some_ne_none _)) fun h => hverdict remoteHost h.1

/-- The pair of a port as the pass looks it up. -/
theorem get_reciprocalPairs_adjacency {order : List (Uuid × Uuid)}
    (horder : (inv.adjacency parseMac networkId).portsBetween.Enumerates order)
    (hi : i ∈ inv.interfaces.rows) (hnames : namesNeighbor networkId i) :
    (reciprocalPairs (inv.adjacency parseMac networkId).portsBetween order).get i.id =
      inv.reciprocal parseMac networkId i := by
  refine Option.ext fun ⟨remotePort, remoteHost⟩ => ?_
  rw [get_reciprocalPairs _ horder, reciprocal_eq_some_iff]
  simp only [← map_id_naming, map_eq_singleton_iff]
  have hport : (⟨i.id, i.base.hostId, (inv.deviceVerdict parseMac networkId i).id?⟩ : NamingPort) ∈
      (inv.adjacency parseMac networkId).ports :=
    List.mem_map.mpr ⟨i, mem_filter.mpr ⟨hi, hnames⟩, rfl⟩
  constructor
  · rintro ⟨a, b, ha, hb, hid, rfl, rfl⟩
    obtain ⟨hmem, hkey, -⟩ := (NeighborAdjacency.naming_eq_singleton _).mp ha
    obtain rfl := inj_on_of_nodup_map (inv.adjacency parseMac networkId).nodup hmem hport hid
    have hverdict := (NamingPort.between_eq_some.mp hkey).2.1
    exact ⟨IdentityResolution.id?_eq_some.mp hverdict, ⟨_, _, ha, rfl⟩, b, hb, rfl⟩
  · rintro ⟨hverdict, ⟨id, a, ha, rfl⟩, b, hb, rfl⟩
    obtain ⟨hbmem, hbkey, -⟩ := (NeighborAdjacency.naming_eq_singleton _).mp hb
    obtain ⟨rfl, -, hne⟩ := NamingPort.between_eq_some.mp hbkey
    -- the port itself is one that names the device, so it is the only one
    have hself := (NeighborAdjacency.naming_eq_singleton _).mp ha |>.2.2 _ hport
      (NamingPort.between_eq_some.mpr ⟨rfl, IdentityResolution.id?_eq_some.mpr hverdict, hne.symm⟩)
    subst hself
    exact ⟨⟨i.id, i.base.hostId, _⟩, b, ha, hb, rfl, rfl, rfl⟩

end NetworkInventory

end Scanopy
