import Scanopy.Lib.HashMap
import Scanopy.Shared.Entities

/-! The addresses that a scan visits. Where an interface can send ARP requests, the targets of a
network are collected up to a limit; the other subnets are streamed. -/

namespace Scanopy

open List Nat

section Addresses
variable {w : ℕ} {c : Cidr w} {addr : BitVec w}

def Cidr.addresses (c : Cidr w) : List (BitVec w) :=
  (List.range (2 ^ (w - c.networkLength))).map fun n => BitVec.ofNat w (c.address.toNat + n)

theorem Cidr.toNat_address_add {n : ℕ} (hn : n < 2 ^ (w - c.networkLength)) :
    (BitVec.ofNat w (c.address.toNat + n)).toNat = c.address.toNat + n := by
  rw [BitVec.toNat_ofNat]
  refine mod_eq_of_lt ?_
  -- the address is a multiple of the size, which divides the size of the address space
  have hsplit : 2 ^ w = 2 ^ c.networkLength * 2 ^ (w - c.networkLength) := by
    rw [← pow_add, Nat.add_sub_cancel' c.length_le]
  obtain ⟨k, hk⟩ := dvd_of_mod_eq_zero c.host_part_zero
  have hlt := c.address.isLt
  rw [hsplit, hk, mul_comm] at hlt
  have hkbound := Nat.lt_of_mul_lt_mul_right hlt
  calc c.address.toNat + n < 2 ^ (w - c.networkLength) * k + 2 ^ (w - c.networkLength) := by omega
    _ = (k + 1) * 2 ^ (w - c.networkLength) := by ring
    _ ≤ 2 ^ c.networkLength * 2 ^ (w - c.networkLength) := Nat.mul_le_mul_right _ hkbound
    _ = 2 ^ w := hsplit.symm

theorem Cidr.mem_addresses : addr ∈ c.addresses ↔ c.contains addr = true := by
  unfold Cidr.addresses
  rw [mem_map]
  constructor
  · rintro ⟨n, hn, rfl⟩
    have hn := mem_range.mp hn
    obtain ⟨k, hk⟩ := dvd_of_mod_eq_zero c.host_part_zero
    have hpos : 0 < 2 ^ (w - c.networkLength) := Nat.two_pow_pos _
    unfold Cidr.contains
    rw [beq_iff_eq, Cidr.toNat_address_add hn, hk, mul_add_div hpos, div_eq_of_lt hn,
      Nat.mul_div_cancel_left k hpos, add_zero]
  · intro h
    have haddress := Cidr.address_toNat_of_contains h
    have hdecomp := div_add_mod' addr.toNat (2 ^ (w - c.networkLength))
    have hlt := mod_lt addr.toNat (Nat.two_pow_pos (w - c.networkLength))
    refine ⟨addr.toNat % 2 ^ (w - c.networkLength), mem_range.mpr hlt, ?_⟩
    rw [haddress, hdecomp, BitVec.ofNat_toNat, BitVec.setWidth_eq]

theorem Cidr.pairwise_addresses (c : Cidr w) :
    c.addresses.Pairwise fun a b => a.toNat < b.toNat := by
  refine pairwise_map.mpr (pairwise_lt_range.imp_of_mem fun hm hn hlt => ?_)
  rw [Cidr.toNat_address_add (mem_range.mp hm), Cidr.toNat_address_add (mem_range.mp hn)]
  exact Nat.add_lt_add_left hlt _

theorem Cidr.nodup_addresses (c : Cidr w) : c.addresses.Nodup :=
  c.pairwise_addresses.imp fun hlt heq => absurd (congrArg BitVec.toNat heq) hlt.ne

@[simp] theorem Cidr.length_addresses (c : Cidr w) :
    c.addresses.length = 2 ^ (w - c.networkLength) := by
  rw [Cidr.addresses, length_map, length_range]

end Addresses

namespace IpCidr

def addresses : IpCidr → List IpAddr
  | v4 c => c.addresses.map .v4
  | v6 c => c.addresses.map .v6

theorem mem_addresses {c : IpCidr} {ip : IpAddr} : ip ∈ c.addresses ↔ c.contains ip = true := by
  cases c with
  | v4 c =>
    cases ip with
    | v4 addr => simp [addresses, contains, Cidr.mem_addresses]
    | v6 addr => simp [addresses, contains]
  | v6 c =>
    cases ip with
    | v4 addr => simp [addresses, contains]
    | v6 addr => simp [addresses, contains, Cidr.mem_addresses]

theorem nodup_addresses (c : IpCidr) : c.addresses.Nodup := by
  cases c with
  | v4 c => exact c.nodup_addresses.map fun _ _ h => IpAddr.v4.inj h
  | v6 c => exact c.nodup_addresses.map fun _ _ h => IpAddr.v6.inj h

end IpCidr

/-- What the enumeration of a scan reads. A rescan has targets, a sweep has none. -/
structure ScanScope where
  subnetCidrToMac : HashMap IpCidr (Option MacAddress)
  arpAvailable : Bool
  maxArpTargets : ℕ
  targetIps : Option (Finset IpAddr)

namespace ScanScope
variable (scope : ScanScope)

def isTargeted (ip : IpAddr) : Bool := scope.targetIps.all fun targets => ip ∈ targets

def hasMac (cidr : IpCidr) : Bool := ((scope.subnetCidrToMac.get cidr).bind id).isSome

def scannable (subnets : List Subnet) : List Subnet :=
  subnets.filter fun s => !s.base.subnetType.isLoopback

def partitionSubnets (subnets : List Subnet) : List Subnet × List Subnet :=
  if scope.arpAvailable then subnets.partition fun s => scope.hasMac s.base.cidr else ([], subnets)

def pushTargets : List (BitVec 32) → List IpAddr → List (BitVec 32)
  | entry, [] => entry
  | entry, addr :: rest =>
    if !scope.isTargeted addr then pushTargets entry rest
    else match addr with
      | .v4 ip =>
        if scope.maxArpTargets ≤ (entry ++ [ip]).length then entry ++ [ip]
        else pushTargets (entry ++ [ip]) rest
      | .v6 _ => pushTargets entry rest

def subnetToIps (interfaced : List Subnet) : HashMap IpCidr (Subnet × List (BitVec 32)) :=
  interfaced.foldl (fun m s => m.alter s.base.cidr (s, []) fun entry =>
    (entry.1, scope.pushTargets entry.2 s.base.cidr.addresses)) HashMap.empty

/-- The requests of the ARP scans, whose networks are visited in the order `order`. -/
def arpTargets (order : List IpCidr) (interfaced : List Subnet) : List (IpAddr × Subnet) :=
  ((scope.subnetToIps interfaced).iterate order).flatMap fun entry =>
    entry.2.2.map fun ip => (.v4 ip, entry.2.1)

def streamedTargets (nonInterfaced : List Subnet) : List (IpAddr × Subnet) :=
  nonInterfaced.flatMap fun s =>
    (s.base.cidr.addresses.filter scope.isTargeted).map fun ip => (ip, s)

def visits (order : List IpCidr) (subnets : List Subnet) : List (IpAddr × Subnet) :=
  let parts := scope.partitionSubnets (scannable subnets)
  scope.arpTargets order parts.1 ++ scope.streamedTargets parts.2

def arpCandidates (addrs : List IpAddr) : List (BitVec 32) :=
  (addrs.filter scope.isTargeted).filterMap fun
    | .v4 ip => some ip
    | .v6 _ => none

/-- How many more targets a list takes. The list is looked at after each of them, so that one is
always taken. -/
def room (entry : List (BitVec 32)) : ℕ := max 1 (scope.maxArpTargets - entry.length)

variable {scope} {subnets interfaced : List Subnet} {order : List IpCidr}

theorem pushTargets_eq (entry : List (BitVec 32)) (addrs : List IpAddr) :
    scope.pushTargets entry addrs =
      entry ++ (scope.arpCandidates addrs).take (scope.room entry) := by
  induction addrs generalizing entry with
  | nil =>
    rw [pushTargets, arpCandidates, filter_nil, filterMap_nil, take_nil, append_nil]
  | cons addr rest ih =>
    unfold pushTargets
    by_cases htarget : scope.isTargeted addr = true
    · rw [htarget, Bool.not_true, if_neg Bool.false_ne_true]
      have hcandidates : scope.arpCandidates (addr :: rest) = (match addr with
          | .v4 ip => ip :: scope.arpCandidates rest
          | .v6 _ => scope.arpCandidates rest) := by
        rw [arpCandidates, filter_cons_of_pos htarget]
        cases addr <;> rfl
      rw [hcandidates]
      cases addr with
      | v6 bits => exact ih entry
      | v4 ip =>
        dsimp only
        rw [length_append, length_singleton]
        split_ifs with hfull
        · have hroom : scope.room entry = 1 := by
            unfold room
            omega
          rw [hroom, take_succ_cons, take_zero]
        · have hroom : scope.room entry = scope.room (entry ++ [ip]) + 1 := by
            unfold room
            rw [length_append, length_singleton]
            omega
          rw [ih, hroom, take_succ_cons, append_assoc, singleton_append]
    · rw [Bool.not_eq_true] at htarget
      rw [htarget, Bool.not_false, if_pos rfl, ih, arpCandidates, arpCandidates,
        filter_cons_of_neg (by rw [htarget]; exact Bool.false_ne_true)]

theorem get_subnetToIps (interfaced : List Subnet) (cidr : IpCidr) :
    (scope.subnetToIps interfaced).get cidr =
      (interfaced.filter (·.base.cidr = cidr)).head?.map fun s =>
        (s, (interfaced.filter (·.base.cidr = cidr)).foldl
          (fun entry s => scope.pushTargets entry s.base.cidr.addresses) []) := by
  induction interfaced using List.reverseRecOn with
  | nil => rfl
  | append_singleton l a ih =>
    have hlast : scope.subnetToIps (l ++ [a]) = (scope.subnetToIps l).alter a.base.cidr (a, [])
        fun entry => (entry.1, scope.pushTargets entry.2 a.base.cidr.addresses) := by
      rw [subnetToIps, foldl_append]
      rfl
    rw [hlast, HashMap.get_alter, filter_append]
    by_cases hcidr : cidr = a.base.cidr
    · subst hcidr
      have hsingle : [a].filter (·.base.cidr = a.base.cidr) = [a] := by simp
      rw [if_pos rfl, ih, hsingle, foldl_append]
      cases l.filter (·.base.cidr = a.base.cidr) <;> rfl
    · have hnone : [a].filter (·.base.cidr = cidr) = [] := by simp [Ne.symm hcidr]
      rw [if_neg hcidr, ih, hnone, append_nil]

theorem arpTargets_perm (hnodup : (interfaced.map (·.base.cidr)).Nodup)
    (horder : (scope.subnetToIps interfaced).Enumerates order) :
    (scope.arpTargets order interfaced).Perm (interfaced.flatMap fun s =>
      (scope.pushTargets [] s.base.cidr.addresses).map fun ip => (.v4 ip, s)) := by
  have hget : ∀ s ∈ interfaced, (scope.subnetToIps interfaced).get s.base.cidr =
      some (s, scope.pushTargets [] s.base.cidr.addresses) := by
    intro s hs
    have hfilter : interfaced.filter (·.base.cidr = s.base.cidr) = [s] := by
      refine perm_singleton.mp ((perm_ext_iff_of_nodup
        (hnodup.of_map.filter _) (nodup_singleton s)).mpr fun t => ?_)
      rw [mem_filter, mem_singleton, decide_eq_true_iff]
      constructor
      · rintro ⟨ht, hcidr⟩
        exact inj_on_of_nodup_map hnodup ht hs hcidr
      · rintro rfl
        exact ⟨hs, rfl⟩
    rw [get_subnetToIps, hfilter]
    rfl
  have hkeys : order.Perm (interfaced.map (·.base.cidr)) := by
    refine (perm_ext_iff_of_nodup horder.1 hnodup).mpr fun cidr => ?_
    rw [horder.mem_iff, mem_map]
    constructor
    · rintro ⟨v, hv⟩
      rw [get_subnetToIps, Option.map_eq_some_iff] at hv
      obtain ⟨s, hs, -⟩ := hv
      obtain ⟨hs, hcidr⟩ := mem_filter.mp (mem_of_mem_head? hs)
      exact ⟨s, hs, of_decide_eq_true hcidr⟩
    · rintro ⟨s, hs, rfl⟩
      exact ⟨_, hget s hs⟩
  have hentries : (scope.subnetToIps interfaced).iterate (interfaced.map (·.base.cidr)) =
      interfaced.map fun s => (s.base.cidr, s, scope.pushTargets [] s.base.cidr.addresses) := by
    rw [HashMap.iterate, filterMap_map, ← filterMap_eq_map]
    refine filterMap_congr fun s hs => ?_
    rw [Function.comp_apply, hget s hs]
    rfl
  unfold arpTargets
  refine ((hkeys.filterMap _).flatMap_right _).trans (Perm.of_eq ?_)
  show ((scope.subnetToIps interfaced).iterate (interfaced.map (·.base.cidr))).flatMap _ = _
  rw [hentries, flatMap_map]

def sendsArp (scope : ScanScope) (s : Subnet) : Bool :=
  scope.arpAvailable && scope.hasMac s.base.cidr

def subnetVisits (scope : ScanScope) (s : Subnet) : List IpAddr :=
  if scope.sendsArp s then
    ((scope.arpCandidates s.base.cidr.addresses).take (max 1 scope.maxArpTargets)).map .v4
  else s.base.cidr.addresses.filter scope.isTargeted

theorem partitionSubnets_eq (scope : ScanScope) (subnets : List Subnet) :
    scope.partitionSubnets subnets =
      (subnets.filter scope.sendsArp, subnets.filter fun s => !scope.sendsArp s) := by
  unfold partitionSubnets sendsArp
  cases scope.arpAvailable with
  | true =>
    rw [if_pos rfl, partition_eq_filter_filter]
    simp only [Bool.true_and]
    rfl
  | false =>
    rw [if_neg Bool.false_ne_true]
    simp

theorem visits_perm (hnodup : ((scannable subnets).map (·.base.cidr)).Nodup)
    (horder : (scope.subnetToIps
      ((scannable subnets).filter scope.sendsArp)).Enumerates order) :
    (scope.visits order subnets).Perm ((scannable subnets).flatMap fun s =>
      (scope.subnetVisits s).map fun ip => (ip, s)) := by
  unfold visits
  dsimp only
  rw [partitionSubnets_eq]
  have harp : (scope.arpTargets order ((scannable subnets).filter scope.sendsArp)).Perm
      (((scannable subnets).filter scope.sendsArp).flatMap fun s =>
        (scope.subnetVisits s).map fun ip => (ip, s)) := by
    refine (arpTargets_perm ((filter_sublist.map _).nodup hnodup) horder).trans
      (Perm.of_eq (flatMap_congr fun s hs => ?_))
    rw [subnetVisits, if_pos (mem_filter.mp hs).2, pushTargets_eq, nil_append, map_map]
    rfl
  have hstream : scope.streamedTargets ((scannable subnets).filter fun s => !scope.sendsArp s) =
      ((scannable subnets).filter fun s => !scope.sendsArp s).flatMap fun s =>
        (scope.subnetVisits s).map fun ip => (ip, s) := by
    refine flatMap_congr fun s hs => ?_
    have hsends : scope.sendsArp s = false := by simpa using (mem_filter.mp hs).2
    rw [subnetVisits, hsends, if_neg Bool.false_ne_true]
  rw [hstream]
  refine (harp.append_right _).trans ?_
  rw [← flatMap_append]
  exact (filter_append_perm _ _).flatMap_right _

theorem nodup_subnetVisits (scope : ScanScope) (s : Subnet) : (scope.subnetVisits s).Nodup := by
  unfold subnetVisits
  split_ifs
  · refine List.Nodup.map (fun _ _ h => IpAddr.v4.inj h) ((take_sublist _ _).nodup ?_)
    refine List.Nodup.filterMap ?_ ((s.base.cidr.nodup_addresses).filter _)
    rintro (a | a) (b | b) c ha hb <;> simp_all
  · exact s.base.cidr.nodup_addresses.filter _

theorem filter_subnetVisits (scope : ScanScope) (subnets : List Subnet) (ip : IpAddr) :
    (subnets.flatMap fun s => (scope.subnetVisits s).map fun ip => (ip, s)).filter (·.1 = ip) =
      (subnets.filter fun s => ip ∈ scope.subnetVisits s).map fun s => (ip, s) := by
  induction subnets with
  | nil => rfl
  | cons s subnets ih =>
    have hfirst : ((scope.subnetVisits s).map fun ip => (ip, s)).filter (·.1 = ip) =
        (List.replicate ((scope.subnetVisits s).count ip) ip).map fun ip => (ip, s) := by
      rw [filter_map]
      exact congrArg _ (filter_eq ip)
    rw [flatMap_cons, filter_append, ih, hfirst]
    by_cases hmem : ip ∈ scope.subnetVisits s
    · rw [filter_cons, if_pos (decide_eq_true hmem),
        count_eq_one_of_mem (scope.nodup_subnetVisits s) hmem]
      rfl
    · rw [filter_cons, if_neg (by rwa [decide_eq_true_iff]), count_eq_zero.mpr hmem]
      rfl

end ScanScope
end Scanopy
