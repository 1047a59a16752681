import Mathlib.Data.Finset.Sort
import Scanopy.Daemon.Enumeration
import Scanopy.Lib.Sorting
import Scanopy.Subnets.Placement

/-! The subnets that a rescan is narrowed to. Each target is attributed to the network with the
longest prefix that contains it; the scan then sees all subnets and all targets, and no longer which
belongs to which. -/

namespace Scanopy

open List ScanScope

/-- IPv4 before IPv6, and then by the bytes. -/
def IpAddr.sortKey : IpAddr → ℕ
  | .v4 bits => bits.toNat
  | .v6 bits => 2 ^ 32 + bits.toNat

theorem IpAddr.sortKey_injective : Function.Injective IpAddr.sortKey := by
  intro a b h
  cases a with
  | v4 a =>
    have ha := a.isLt
    cases b with
    | v4 b => exact congrArg v4 (BitVec.eq_of_toNat_eq h)
    | v6 b =>
      have h : a.toNat = 2 ^ 32 + b.toNat := h
      omega
  | v6 a =>
    cases b with
    | v4 b =>
      have hb := b.isLt
      have h : 2 ^ 32 + a.toNat = b.toNat := h
      omega
    | v6 b => exact congrArg v6 (BitVec.eq_of_toNat_eq (Nat.add_left_cancel h))

instance : LinearOrder IpAddr := LinearOrder.lift' IpAddr.sortKey IpAddr.sortKey_injective

inductive RescanReach
  | arp
  | tcpOnly
  deriving DecidableEq

inductive RescanSkip
  | loopback
  | noInterfacedSubnet
  | noSubnetRecord (cidr : IpCidr)
  deriving DecidableEq

structure RescanResolution where
  subnets : List Subnet := []
  resolved : Finset IpAddr := ∅
  attributions : List (IpAddr × IpCidr × RescanReach) := []
  skipped : List (IpAddr × RescanSkip) := []

def longestPrefixContaining (cidrs : List IpCidr) (ip : IpAddr) : Option IpCidr :=
  maxByKey IpCidr.networkLength (cidrs.filter (·.contains ip))

/-- The interfaces of the daemon in the order in which they are iterated over. -/
abbrev Interfaces := List (IpCidr × Option MacAddress)

/-- The network that a target is scanned from. -/
def containingCidr (interfaces : Interfaces) (ip : IpAddr) : Option (IpCidr × RescanReach) :=
  match longestPrefixContaining ((interfaces.filter (·.2.isSome)).map (·.1)) ip with
  | some cidr => some (cidr, .arp)
  | none => (longestPrefixContaining (interfaces.map (·.1)) ip).map fun cidr => (cidr, .tcpOnly)

def resolveTarget (interfaces : Interfaces) (allSubnets : List Subnet) (ip : IpAddr) :
    Except RescanSkip (Subnet × IpCidr × RescanReach) :=
  if ip.isLoopback then .error .loopback
  else match containingCidr interfaces ip with
    | none => .error .noInterfacedSubnet
    | some (cidr, reach) => match allSubnets.find? (·.base.cidr = cidr) with
      | none => .error (.noSubnetRecord cidr)
      | some parent => .ok (parent, cidr, reach)

namespace RescanResolution

def add (interfaces : Interfaces) (allSubnets : List Subnet) (resolution : RescanResolution)
    (ip : IpAddr) : RescanResolution :=
  match resolveTarget interfaces allSubnets ip with
  | .error skip => { resolution with skipped := resolution.skipped ++ [(ip, skip)] }
  | .ok (parent, cidr, reach) => { resolution with
      resolved := insert ip resolution.resolved
      attributions := resolution.attributions ++ [(ip, cidr, reach)]
      subnets := if resolution.subnets.any (·.id = parent.id) then resolution.subnets
        else resolution.subnets ++ [parent] }

end RescanResolution

def resolveRescanSubnets (targetIps : Finset IpAddr) (interfaces : Interfaces)
    (allSubnets : List Subnet) : RescanResolution :=
  targetIps.sort.foldl (RescanResolution.add interfaces allSubnets) {}

structure Rescan where
  targetIps : Finset IpAddr
  subnetCidrToMac : HashMap IpCidr (Option MacAddress)
  /-- The order in which the map is iterated over. -/
  interfaceOrder : List IpCidr
  allSubnets : List Subnet
  arpAvailable : Bool
  maxArpTargets : ℕ

namespace Rescan
variable (r : Rescan)

def interfaces : Interfaces := r.subnetCidrToMac.iterate r.interfaceOrder

def target (ip : IpAddr) : Except RescanSkip (Subnet × IpCidr × RescanReach) :=
  resolveTarget r.interfaces r.allSubnets ip

def resolution : RescanResolution := resolveRescanSubnets r.targetIps r.interfaces r.allSubnets

def scope : ScanScope where
  subnetCidrToMac := r.subnetCidrToMac
  arpAvailable := r.arpAvailable
  maxArpTargets := r.maxArpTargets
  targetIps := some r.resolution.resolved

def visits (arpOrder : List IpCidr) : List (IpAddr × Subnet) :=
  r.scope.visits arpOrder r.resolution.subnets

def ArpOrder (arpOrder : List IpCidr) : Prop :=
  (r.scope.subnetToIps (r.scope.partitionSubnets
    (ScanScope.scannable r.resolution.subnets)).1).Enumerates arpOrder

end Rescan

section Resolve
variable {interfaces : Interfaces} {allSubnets : List Subnet} {ip : IpAddr} {s : Subnet}
  {cidr : IpCidr} {reach : RescanReach}

theorem contains_of_longestPrefixContaining {cidrs : List IpCidr}
    (h : longestPrefixContaining cidrs ip = some cidr) : cidr.contains ip = true :=
  (mem_filter.mp (mem_of_maxByKey h)).2

theorem contains_of_containingCidr (h : containingCidr interfaces ip = some (cidr, reach)) :
    cidr.contains ip = true := by
  unfold containingCidr at h
  split at h
  next hmac =>
    cases h
    exact contains_of_longestPrefixContaining hmac
  · obtain ⟨c, hc, heq⟩ := Option.map_eq_some_iff.mp h
    cases heq
    exact contains_of_longestPrefixContaining hc

theorem resolveTarget_ok (h : resolveTarget interfaces allSubnets ip = .ok (s, cidr, reach)) :
    s.base.cidr = cidr ∧ cidr.contains ip = true ∧
      allSubnets.find? (·.base.cidr = cidr) = some s := by
  unfold resolveTarget at h
  split_ifs at h
  split at h
  · cases h
  next hcontaining =>
    split at h
    · cases h
    next hfind =>
      cases h
      exact ⟨of_decide_eq_true (find?_some (p := fun t : Subnet => t.base.cidr = cidr) hfind),
        contains_of_containingCidr hcontaining, hfind⟩

theorem eq_of_cidr {ip' : IpAddr} {s' : Subnet} {a a' : IpCidr × RescanReach}
    (h : resolveTarget interfaces allSubnets ip = .ok (s, a))
    (h' : resolveTarget interfaces allSubnets ip' = .ok (s', a'))
    (hcidr : s'.base.cidr = s.base.cidr) : s' = s := by
  obtain ⟨hs, -, hfind⟩ := resolveTarget_ok h
  obtain ⟨hs', -, hfind'⟩ := resolveTarget_ok h'
  rw [← hs', hcidr, hs, hfind] at hfind'
  exact (Option.some.inj hfind').symm

end Resolve

structure Resolves (interfaces : Interfaces) (allSubnets : List Subnet) (l : List IpAddr)
    (r : RescanResolution) : Prop where
  resolved : ∀ ip, ip ∈ r.resolved ↔
    ip ∈ l ∧ ∃ a, resolveTarget interfaces allSubnets ip = .ok a
  attributed : ∀ ip a, (ip, a) ∈ r.attributions ↔
    ip ∈ l ∧ ∃ s, resolveTarget interfaces allSubnets ip = .ok (s, a)
  skipped : ∀ ip skip, (ip, skip) ∈ r.skipped ↔
    ip ∈ l ∧ resolveTarget interfaces allSubnets ip = .error skip
  drawn : ∀ s ∈ r.subnets, ∃ ip ∈ l, ∃ a, resolveTarget interfaces allSubnets ip = .ok (s, a)
  covered : ∀ ip ∈ l, ∀ s a, resolveTarget interfaces allSubnets ip = .ok (s, a) →
    ∃ s' ∈ r.subnets, s'.id = s.id
  distinct : (r.subnets.map (·.id)).Nodup

namespace Resolves
variable {interfaces : Interfaces} {allSubnets : List Subnet} {l : List IpAddr}
  {r : RescanResolution} {ip : IpAddr}

theorem add_error {skip : RescanSkip} (h : Resolves interfaces allSubnets l r)
    (hskip : resolveTarget interfaces allSubnets ip = .error skip) :
    Resolves interfaces allSubnets (l ++ [ip]) (r.add interfaces allSubnets ip) := by
  have hold : ∀ ip' a, resolveTarget interfaces allSubnets ip' = .ok a →
      (ip' ∈ l ++ [ip] ↔ ip' ∈ l) := by
    intro ip' a ha
    rw [mem_append, mem_singleton]
    refine or_iff_left fun heq => ?_
    rw [heq, hskip] at ha
    cases ha
  unfold RescanResolution.add
  rw [hskip]
  refine ⟨fun ip' => ?_, fun ip' a => ?_, fun ip' skip' => ?_, fun s hs => ?_,
    fun ip' hip' s a ha => ?_, h.distinct⟩
  · refine (h.resolved ip').trans (and_congr_left fun ⟨a, ha⟩ => (hold ip' a ha).symm)
  · refine (h.attributed ip' a).trans (and_congr_left fun ⟨s, hs⟩ => (hold ip' _ hs).symm)
  · rw [mem_append, mem_append, mem_singleton, mem_singleton, or_and_right,
      h.skipped, Prod.mk.injEq]
    refine or_congr_right ⟨?_, ?_⟩
    · rintro ⟨rfl, rfl⟩
      exact ⟨rfl, hskip⟩
    · rintro ⟨rfl, hskip'⟩
      exact ⟨rfl, Except.error.inj (hskip'.symm.trans hskip)⟩
  · obtain ⟨ip', hip', ha⟩ := h.drawn s hs
    exact ⟨ip', mem_append_left _ hip', ha⟩
  · exact h.covered ip' ((hold ip' _ ha).mp hip') s a ha

theorem add_ok {parent : Subnet} {a : IpCidr × RescanReach} (h : Resolves interfaces allSubnets l r)
    (hok : resolveTarget interfaces allSubnets ip = .ok (parent, a)) :
    Resolves interfaces allSubnets (l ++ [ip]) (r.add interfaces allSubnets ip) := by
  unfold RescanResolution.add
  rw [hok]
  refine ⟨fun ip' => ?_, fun ip' a' => ?_, fun ip' skip => ?_, fun s hs => ?_,
    fun ip' hip' s a' ha' => ?_, ?_⟩
  · rw [Finset.mem_insert, h.resolved, mem_append, mem_singleton, or_and_right, or_comm]
    refine or_congr_right ⟨?_, And.left⟩
    rintro rfl
    exact ⟨rfl, _, hok⟩
  · rw [mem_append, mem_append, mem_singleton, mem_singleton, or_and_right,
      h.attributed, Prod.mk.injEq]
    refine or_congr_right ⟨?_, ?_⟩
    · rintro ⟨rfl, rfl⟩
      exact ⟨rfl, parent, hok⟩
    · rintro ⟨rfl, s, hs⟩
      exact ⟨rfl, (Prod.mk.inj (Except.ok.inj (hs.symm.trans hok))).2⟩
  · rw [h.skipped, mem_append, mem_singleton]
    refine and_congr_left fun hskip => (or_iff_left fun heq => ?_).symm
    rw [heq, hok] at hskip
    cases hskip
  · have hs : s ∈ r.subnets ∨ s = parent := by
      dsimp only at hs
      split_ifs at hs
      · exact .inl hs
      · exact (mem_append.mp hs).imp_right mem_singleton.mp
    rcases hs with hs | rfl
    · obtain ⟨ip', hip', ha'⟩ := h.drawn s hs
      exact ⟨ip', mem_append_left _ hip', ha'⟩
    · exact ⟨ip, mem_append_right _ (mem_singleton_self ip), a, hok⟩
  · have hkept : ∀ s' ∈ r.subnets, s' ∈ (if r.subnets.any (·.id = parent.id) then r.subnets
        else r.subnets ++ [parent]) := by
      intro s' hs'
      split_ifs
      · exact hs'
      · exact mem_append_left _ hs'
    rcases mem_append.mp hip' with hip' | hip'
    · obtain ⟨s', hs', hid⟩ := h.covered ip' hip' s a' ha'
      exact ⟨s', hkept s' hs', hid⟩
    · rw [mem_singleton.mp hip', hok] at ha'
      cases ha'
      dsimp only
      split_ifs with hany
      · obtain ⟨s', hs', hid⟩ := List.any_eq_true.mp hany
        exact ⟨s', hs', of_decide_eq_true hid⟩
      · exact ⟨parent, mem_append_right _ (mem_singleton_self parent), rfl⟩
  · dsimp only
    split_ifs with hany
    · exact h.distinct
    · rw [map_append, map_singleton]
      refine h.distinct.append (nodup_singleton _) ?_
      rw [disjoint_singleton]
      intro hmem
      obtain ⟨s', hs', hid⟩ := mem_map.mp hmem
      exact hany (List.any_eq_true.mpr ⟨s', hs', decide_eq_true hid⟩)

end Resolves

theorem resolves_foldl (interfaces : Interfaces) (allSubnets : List Subnet) (l : List IpAddr) :
    Resolves interfaces allSubnets l (l.foldl (RescanResolution.add interfaces allSubnets) {}) := by
  induction l using List.reverseRecOn with
  | nil =>
    have hnone : ∀ {ip : IpAddr} {P : Prop}, ¬(ip ∈ [] ∧ P) := fun h => not_mem_nil h.1
    exact ⟨fun ip => iff_of_false (Finset.notMem_empty ip) hnone,
      fun _ _ => iff_of_false not_mem_nil hnone,
      fun _ _ => iff_of_false not_mem_nil hnone, fun _ h => absurd h not_mem_nil,
      fun _ h => absurd h not_mem_nil, nodup_nil⟩
  | append_singleton l ip ih =>
    rw [foldl_append, foldl_cons, foldl_nil]
    cases hresolve : resolveTarget interfaces allSubnets ip with
    | error skip => exact ih.add_error hresolve
    | ok a => exact ih.add_ok hresolve

structure Rescan.VisitsOnce (r : Rescan) (arpOrder : List IpCidr) : Prop where
  parted : ∀ ip, ip ∈ r.targetIps ↔
    ip ∈ r.resolution.resolved ∨ ip ∈ r.resolution.skipped.map Prod.fst
  apart : ∀ ip ∈ r.resolution.resolved, ip ∉ r.resolution.skipped.map Prod.fst
  attributed : ∀ ip ∈ r.resolution.resolved, ∃ a, (ip, a) ∈ r.resolution.attributions
  visited : ∀ ip cidr reach, (ip, cidr, reach) ∈ r.resolution.attributions →
    ((r.visits arpOrder).filter (·.1 = ip)).map (·.2.base.cidr) = [cidr]

def Rescan.Reaches (r : Rescan) (s : Subnet) (ip : IpAddr) : Prop :=
  s.base.cidr.contains ip = true ∧ (r.scope.sendsArp s = true → (∃ bits, ip = .v4 bits) ∧
    (r.targetIps.filter fun t => (r.target t).isOk = true ∧ s.base.cidr.contains t = true ∧
      t < ip).card < max 1 r.maxArpTargets)

def Rescan.Separated (r : Rescan) : Prop :=
  ∀ ip ∈ r.targetIps, ∀ s a, r.target ip = .ok (s, a) →
    s.base.subnetType.isLoopback = false ∧ r.Reaches s ip ∧
      ∀ ip' ∈ r.targetIps, ∀ s' a', r.target ip' = .ok (s', a') → s'.base.cidr ≠ s.base.cidr →
        s'.id ≠ s.id ∧ (s'.base.subnetType.isLoopback = false → ¬r.Reaches s' ip)

namespace Rescan
variable {r : Rescan} {arpOrder : List IpCidr} {ip : IpAddr} {s : Subnet}
  {a : IpCidr × RescanReach}

theorem resolves (r : Rescan) : Resolves r.interfaces r.allSubnets r.targetIps.sort r.resolution :=
  resolves_foldl r.interfaces r.allSubnets r.targetIps.sort

theorem mem_resolved : ip ∈ r.resolution.resolved ↔ ip ∈ r.targetIps ∧ (r.target ip).isOk = true := by
  rw [r.resolves.resolved, Finset.mem_sort]
  refine and_congr_right fun _ => ?_
  show (∃ a, r.target ip = .ok a) ↔ _
  cases r.target ip with
  | ok a => exact iff_of_true ⟨a, rfl⟩ rfl
  | error skip => exact iff_of_false (fun ⟨_, h⟩ => nomatch h) Bool.false_ne_true

theorem mem_skipped : ip ∈ r.resolution.skipped.map Prod.fst ↔
    ip ∈ r.targetIps ∧ (r.target ip).isOk = false := by
  have hskip : (∃ skip, r.target ip = .error skip) ↔ (r.target ip).isOk = false := by
    cases r.target ip with
    | ok a => exact iff_of_false (fun ⟨_, h⟩ => nomatch h) (Ne.symm Bool.false_ne_true)
    | error skip => exact iff_of_true ⟨skip, rfl⟩ rfl
  rw [← hskip, mem_map]
  constructor
  · rintro ⟨⟨ip, skip⟩, hmem, rfl⟩
    obtain ⟨htarget, hskip⟩ := (r.resolves.skipped ip skip).mp hmem
    exact ⟨(Finset.mem_sort _).mp htarget, skip, hskip⟩
  · rintro ⟨htarget, skip, hskip⟩
    exact ⟨(ip, skip), (r.resolves.skipped ip skip).mpr ⟨(Finset.mem_sort _).mpr htarget, hskip⟩, rfl⟩

theorem nodup_cidrs (r : Rescan) : (r.resolution.subnets.map (·.base.cidr)).Nodup := by
  refine (r.resolves.distinct.of_map).map_on fun s hs t ht hcidr => ?_
  obtain ⟨ip, -, a, ha⟩ := r.resolves.drawn s hs
  obtain ⟨ip', -, a', ha'⟩ := r.resolves.drawn t ht
  exact eq_of_cidr ha' ha hcidr

theorem isTargeted_scope : r.scope.isTargeted ip = true ↔ ip ∈ r.resolution.resolved := by
  unfold isTargeted scope
  rw [Option.all_some, decide_eq_true_iff]

theorem pairwise_candidates (r : Rescan) (cidr : IpCidr) :
    ((r.scope.arpCandidates cidr.addresses).map IpAddr.v4).Pairwise (· < ·) := by
  have hlt : ∀ {a b : BitVec 32}, a.toNat < b.toNat → IpAddr.v4 a < .v4 b := fun h => h
  cases cidr with
  | v4 c =>
    refine pairwise_map.mpr (List.Pairwise.filterMap _ ?_
      ((pairwise_map.mpr (c.pairwise_addresses.imp hlt)).filter _))
    rintro (a | a) (b | b) h c hc d hd
    · cases hc
      cases hd
      exact h
    · cases hd
    · cases hc
    · cases hc
  | v6 c =>
    have hnone : r.scope.arpCandidates (IpCidr.v6 c).addresses = [] := by
      refine filterMap_eq_nil_iff.mpr fun ip hip => ?_
      obtain ⟨bits, -, rfl⟩ := mem_map.mp (mem_filter.mp hip).1
      rfl
    rw [hnone]
    exact List.Pairwise.nil

theorem mem_candidates {cidr : IpCidr} {bits : BitVec 32} :
    bits ∈ r.scope.arpCandidates cidr.addresses ↔
      cidr.contains (.v4 bits) = true ∧ .v4 bits ∈ r.resolution.resolved := by
  unfold arpCandidates
  rw [mem_filterMap, ← IpCidr.mem_addresses, ← isTargeted_scope, ← mem_filter]
  constructor
  · rintro ⟨ip | ip, hip, hbits⟩
    · cases hbits
      exact hip
    · cases hbits
  · exact fun h => ⟨.v4 bits, h, rfl⟩

theorem length_candidates_lt (cidr : IpCidr) (bits : BitVec 32) :
    (((r.scope.arpCandidates cidr.addresses).map IpAddr.v4).filter (· < .v4 bits)).length =
      (r.targetIps.filter fun t => (r.target t).isOk = true ∧ cidr.contains t = true ∧
        t < .v4 bits).card := by
  have hnodup : (((r.scope.arpCandidates cidr.addresses).map IpAddr.v4).filter
      (· < .v4 bits)).Nodup :=
    List.Pairwise.filter _ ((r.pairwise_candidates cidr).imp fun h => h.ne)
  rw [← toFinset_card_of_nodup hnodup]
  congr 1
  ext ip
  rw [mem_toFinset, mem_filter, mem_map, Finset.mem_filter, decide_eq_true_iff,
    ← and_assoc, ← and_assoc, ← mem_resolved]
  refine and_congr_left fun hlt => ?_
  constructor
  · rintro ⟨b, hb, rfl⟩
    exact (mem_candidates.mp hb).symm
  · rintro ⟨hresolved, hcontains⟩
    cases ip with
    | v4 b => exact ⟨b, mem_candidates.mpr ⟨hcontains, hresolved⟩, rfl⟩
    | v6 b =>
      -- an IPv6 address does not come before an IPv4 address
      have hlt : 2 ^ 32 + b.toNat < bits.toNat := hlt
      have hbits := bits.isLt
      omega

theorem mem_subnetVisits (hresolved : ip ∈ r.resolution.resolved) :
    ip ∈ r.scope.subnetVisits s ↔ r.Reaches s ip := by
  unfold subnetVisits Reaches
  cases hsends : r.scope.sendsArp s with
  | false =>
    rw [if_neg Bool.false_ne_true, mem_filter, IpCidr.mem_addresses, isTargeted_scope,
      and_iff_left hresolved, and_iff_left nofun]
  | true =>
    rw [if_pos rfl, map_take, Sorting.mem_take_iff (r.pairwise_candidates s.base.cidr),
      mem_map, imp_iff_right rfl]
    constructor
    · rintro ⟨⟨bits, hbits, rfl⟩, hlt⟩
      rw [length_candidates_lt] at hlt
      exact ⟨(mem_candidates.mp hbits).1, ⟨bits, rfl⟩, hlt⟩
    · rintro ⟨hcontains, ⟨bits, rfl⟩, hlt⟩
      rw [← length_candidates_lt] at hlt
      exact ⟨⟨bits, mem_candidates.mpr ⟨hcontains, hresolved⟩, rfl⟩, hlt⟩

def scanned (r : Rescan) : List Subnet := ScanScope.scannable r.resolution.subnets

theorem mem_scanned : s ∈ r.scanned ↔
    s ∈ r.resolution.subnets ∧ s.base.subnetType.isLoopback = false := by
  unfold scanned scannable
  rw [mem_filter, Bool.not_eq_true']

theorem visited_iff (horder : r.ArpOrder arpOrder) (hresolved : ip ∈ r.resolution.resolved)
    (cidr : IpCidr) :
    ((r.visits arpOrder).filter (·.1 = ip)).map (·.2.base.cidr) = [cidr] ↔
      (∃ s ∈ r.scanned, s.base.cidr = cidr ∧ r.Reaches s ip) ∧
        ∀ s ∈ r.scanned, r.Reaches s ip → s.base.cidr = cidr := by
  have hnodup : (r.scanned.map (·.base.cidr)).Nodup := (filter_sublist.map _).nodup r.nodup_cidrs
  have horder : (r.scope.subnetToIps (r.scanned.filter r.scope.sendsArp)).Enumerates arpOrder := by
    unfold ArpOrder at horder
    rwa [partitionSubnets_eq] at horder
  have hperm := ((visits_perm hnodup horder).filter (·.1 = ip)).map (·.2.base.cidr)
  rw [filter_subnetVisits, map_map] at hperm
  have hperm : (((r.visits arpOrder).filter (·.1 = ip)).map (·.2.base.cidr)).Perm
      ((r.scanned.filter fun s => ip ∈ r.scope.subnetVisits s).map (·.base.cidr)) := hperm
  rw [← perm_singleton, hperm.congr_left]
  rw [perm_ext_iff_of_nodup ((filter_sublist.map _).nodup hnodup) (nodup_singleton _)]
  simp only [mem_map, mem_filter, decide_eq_true_iff, mem_subnetVisits hresolved, mem_singleton]
  constructor
  · intro h
    obtain ⟨s, ⟨hs, hreaches⟩, hcidr⟩ := (h cidr).mpr rfl
    exact ⟨⟨s, hs, hcidr, hreaches⟩, fun t ht hreaches => (h _).mp ⟨t, ⟨ht, hreaches⟩, rfl⟩⟩
  · rintro ⟨⟨s, hs, hcidr, hreaches⟩, honly⟩ c
    constructor
    · rintro ⟨t, ⟨ht, hreaches⟩, rfl⟩
      exact honly t ht hreaches
    · rintro rfl
      exact ⟨s, ⟨hs, hreaches⟩, hcidr⟩

theorem attributed_of_target (hip : ip ∈ r.targetIps) (ha : r.target ip = .ok (s, a)) :
    ip ∈ r.resolution.resolved ∧ (ip, a) ∈ r.resolution.attributions ∧ s.base.cidr = a.1 := by
  refine ⟨mem_resolved.mpr ⟨hip, by rw [ha]; rfl⟩, ?_, (resolveTarget_ok ha).1⟩
  exact (r.resolves.attributed ip a).mpr ⟨(Finset.mem_sort _).mpr hip, s, ha⟩

theorem eq_of_mem_subnets (ha : r.target ip = .ok (s, a)) {t : Subnet}
    (ht : t ∈ r.resolution.subnets) (hcidr : t.base.cidr = s.base.cidr) : t = s := by
  obtain ⟨ip', -, a', ha'⟩ := r.resolves.drawn t ht
  exact eq_of_cidr ha ha' hcidr

theorem reaches_of_visitsOnce (horder : r.ArpOrder arpOrder) (h : r.VisitsOnce arpOrder)
    (hip : ip ∈ r.targetIps) (ha : r.target ip = .ok (s, a)) : s ∈ r.scanned ∧ r.Reaches s ip := by
  obtain ⟨hresolved, hmem, hcidr⟩ := attributed_of_target hip ha
  obtain ⟨t, ht, htcidr, hreaches⟩ :=
    ((visited_iff horder hresolved a.1).mp (h.visited ip a.1 a.2 hmem)).1
  have hsame := eq_of_mem_subnets ha (mem_scanned.mp ht).1 (htcidr.trans hcidr.symm)
  rw [hsame] at ht hreaches
  exact ⟨ht, hreaches⟩

theorem separated_of_visitsOnce (horder : r.ArpOrder arpOrder) (h : r.VisitsOnce arpOrder) :
    r.Separated := by
  intro ip hip s a ha
  obtain ⟨hscanned, hreaches⟩ := reaches_of_visitsOnce horder h hip ha
  obtain ⟨hresolved, hmem, hcidr⟩ := attributed_of_target hip ha
  have honly := ((visited_iff horder hresolved a.1).mp (h.visited ip a.1 a.2 hmem)).2
  refine ⟨(mem_scanned.mp hscanned).2, hreaches, fun ip' hip' s' a' ha' hne => ⟨?_, ?_⟩⟩
  · intro hid
    have hs' := (mem_scanned.mp (reaches_of_visitsOnce horder h hip' ha').1).1
    have hsame := inj_on_of_nodup_map r.resolves.distinct hs' (mem_scanned.mp hscanned).1 hid
    exact hne (congrArg (·.base.cidr) hsame)
  · intro _ hreaches'
    have hs' := (reaches_of_visitsOnce horder h hip' ha').1
    exact hne ((honly s' hs' hreaches').trans hcidr.symm)

theorem visitsOnce_of_separated (horder : r.ArpOrder arpOrder) (h : r.Separated) :
    r.VisitsOnce arpOrder := by
  refine ⟨fun ip => ?_, fun ip hip hskipped => ?_, fun ip hip => ?_, fun ip cidr reach hmem => ?_⟩
  · rw [mem_resolved, mem_skipped, ← and_or_left, Bool.eq_true_or_eq_false_self, and_true]
  · rw [mem_skipped, (mem_resolved.mp hip).2] at hskipped
    exact Bool.noConfusion hskipped.2
  · obtain ⟨hip, a, ha⟩ := (r.resolves.resolved ip).mp hip
    exact ⟨a.2, (attributed_of_target ((Finset.mem_sort _).mp hip) ha).2.1⟩
  · obtain ⟨hip, s, hs⟩ := (r.resolves.attributed ip (cidr, reach)).mp hmem
    have htarget := (Finset.mem_sort _).mp hip
    obtain ⟨hresolved, -, hcidr⟩ := attributed_of_target htarget hs
    obtain ⟨hloopback, hreaches, hothers⟩ := h ip htarget s (cidr, reach) hs
    rw [visited_iff horder hresolved]
    constructor
    · obtain ⟨t, ht, hid⟩ := r.resolves.covered ip hip s (cidr, reach) hs
      obtain ⟨ip', hip', a', ha'⟩ := r.resolves.drawn t ht
      have hsame : t.base.cidr = s.base.cidr := by
        by_contra hne
        exact (hothers ip' ((Finset.mem_sort _).mp hip') t a' ha' hne).1 hid
      rw [eq_of_mem_subnets hs ht hsame] at ht
      exact ⟨s, mem_scanned.mpr ⟨ht, hloopback⟩, hcidr, hreaches⟩
    · intro t ht hreaches'
      obtain ⟨ht, htloopback⟩ := mem_scanned.mp ht
      obtain ⟨ip', hip', a', ha'⟩ := r.resolves.drawn t ht
      by_contra hne
      exact (hothers ip' ((Finset.mem_sort _).mp hip') t a' ha'
        fun heq => hne (heq.trans hcidr)).2 htloopback hreaches'

/-- A rescan visits each of its targets once and where it belongs if each is reached in its own
subnet and in the subnet of no other target; and in no other case. -/
theorem visitsOnce_iff (r : Rescan) (arpOrder : List IpCidr) (horder : r.ArpOrder arpOrder) :
    r.VisitsOnce arpOrder ↔ r.Separated :=
  ⟨separated_of_visitsOnce horder, visitsOnce_of_separated horder⟩

section Office

def officeSubnet (id : Uuid) (cidr : IpCidr) : Subnet :=
  ⟨id, 0, 0, none, none, ⟨cidr, 1, "office", none, .lan, none, .discovery, 0⟩⟩

def wide : IpCidr := .v4 ⟨0x0A000400, 23, by decide, by decide⟩
def narrow : IpCidr := .v4 ⟨0x0A000500, 30, by decide, by decide⟩
def beside : IpCidr := .v4 ⟨0x0A000508, 30, by decide, by decide⟩

def sideBySide : Rescan where
  targetIps := {.v4 0x0A000501, .v4 0x0A00050A}
  subnetCidrToMac := (HashMap.empty.insert narrow (some 1)).insert beside none
  interfaceOrder := [narrow, beside]
  allSubnets := [officeSubnet 1 narrow, officeSubnet 2 beside]
  arpAvailable := true
  maxArpTargets := 2 ^ 17

def nested : Rescan where
  targetIps := {.v4 0x0A000501, .v4 0x0A00050A}
  subnetCidrToMac := (HashMap.empty.insert narrow (some 1)).insert wide (some 1)
  interfaceOrder := [narrow, wide]
  allSubnets := [officeSubnet 1 narrow, officeSubnet 2 wide]
  arpAvailable := true
  maxArpTargets := 2 ^ 17

theorem target_sideBySide :
    sideBySide.target (.v4 0x0A000501) = .ok (officeSubnet 1 narrow, narrow, .arp) ∧
      sideBySide.target (.v4 0x0A00050A) = .ok (officeSubnet 2 beside, beside, .tcpOnly) := by
  decide

theorem sort_sideBySide : ({.v4 0x0A000501, .v4 0x0A00050A} : Finset IpAddr).sort =
    [.v4 0x0A000501, .v4 0x0A00050A] := by
  rw [Finset.sort_insert _ (by decide) (by decide), Finset.sort_singleton]

theorem arpOrder_sideBySide : sideBySide.ArpOrder [narrow] := by
  have hresolution : sideBySide.resolution = [.v4 0x0A000501, .v4 0x0A00050A].foldl
      (RescanResolution.add sideBySide.interfaces sideBySide.allSubnets) {} :=
    congrArg (List.foldl (RescanResolution.add sideBySide.interfaces sideBySide.allSubnets) {})
      sort_sideBySide
  have hinterfaced : (sideBySide.scope.partitionSubnets
      (scannable sideBySide.resolution.subnets)).1 = [officeSubnet 1 narrow] := by
    rw [hresolution]
    decide
  unfold ArpOrder
  rw [hinterfaced]
  refine ⟨nodup_singleton _, Finset.ext fun cidr => ?_⟩
  rw [HashMap.mem_keys, get_subnetToIps, mem_toFinset, mem_singleton]
  by_cases hcidr : (officeSubnet 1 narrow).base.cidr = cidr
  · rw [filter_cons, if_pos (decide_eq_true hcidr)]
    exact iff_of_true hcidr.symm ⟨_, rfl⟩
  · rw [filter_cons, if_neg (by rwa [decide_eq_true_iff])]
    exact iff_of_false (fun heq => hcidr heq.symm) (fun ⟨_, h⟩ => nomatch h)

theorem separated_sideBySide : sideBySide.Separated := by
  obtain ⟨hinner, houter⟩ := target_sideBySide
  have htargets : ∀ ip ∈ sideBySide.targetIps, ip = .v4 0x0A000501 ∨ ip = .v4 0x0A00050A := by
    decide
  intro ip hip s a ha
  rcases htargets ip hip with rfl | rfl
  · rw [hinner] at ha
    cases ha
    refine ⟨rfl, ⟨by decide, fun _ => ⟨⟨_, rfl⟩, by decide⟩⟩, fun ip' hip' s' a' ha' hne => ?_⟩
    rcases htargets ip' hip' with rfl | rfl
    · rw [hinner] at ha'
      cases ha'
      exact absurd rfl hne
    · rw [houter] at ha'
      cases ha'
      exact ⟨by decide, fun _ hreaches => absurd hreaches.1 (by decide)⟩
  · rw [houter] at ha
    cases ha
    refine ⟨rfl, ⟨by decide, fun hsends => absurd hsends (by decide)⟩,
      fun ip' hip' s' a' ha' hne => ?_⟩
    rcases htargets ip' hip' with rfl | rfl
    · rw [hinner] at ha'
      cases ha'
      exact ⟨by decide, fun _ hreaches => absurd hreaches.1 (by decide)⟩
    · rw [houter] at ha'
      cases ha'
      exact absurd rfl hne

theorem visitsOnce_sideBySide : sideBySide.VisitsOnce [narrow] :=
  (visitsOnce_iff sideBySide [narrow] arpOrder_sideBySide).mpr separated_sideBySide

/-- The target in the inner network is visited in the outer one, too. -/
theorem not_visitsOnce : ¬∀ (r : Rescan) (arpOrder : List IpCidr), r.ArpOrder arpOrder →
    r.VisitsOnce arpOrder := by
  intro h
  obtain ⟨arpOrder, horder⟩ := HashMap.exists_enumerates (nested.scope.subnetToIps
    (nested.scope.partitionSubnets (scannable nested.resolution.subnets)).1)
  have hseparated := separated_of_visitsOnce horder (h nested arpOrder horder)
  have hinner : nested.target (.v4 0x0A000501) = .ok (officeSubnet 1 narrow, narrow, .arp) := by
    decide
  have houter : nested.target (.v4 0x0A00050A) = .ok (officeSubnet 2 wide, wide, .arp) := by
    decide
  have hreaches : nested.Reaches (officeSubnet 2 wide) (.v4 0x0A000501) :=
    ⟨by decide, fun _ => ⟨⟨_, rfl⟩, by decide⟩⟩
  obtain ⟨-, -, hothers⟩ := hseparated _ (by decide) _ _ hinner
  exact (hothers _ (by decide) _ _ houter (by decide)).2 rfl hreaches

end Office

end Rescan
end Scanopy
