import Mathlib.Algebra.BigOperators.Ring.List
import Scanopy.Daemon.ArpScan
import Scanopy.Daemon.Enumeration
import Scanopy.Lib.Checked
import Scanopy.Lib.Groups

/-! The numbers that a scan computes before it starts: how many addresses it will probe, how long
the ARP requests take and how many targets a network may have, in machine integers. -/

namespace Scanopy

open List Option ScanScope IpCidr

def ArpSettings.maxArpTargets (settings : ArpSettings) : Option ℕ :=
  (Checked.sub 32 settings.cutoff.toNat).bind (Checked.shl 64 1)

structure ScanInputs where
  subnetCidrToMac : HashMap IpCidr (Option MacAddress)
  arpAvailable : Bool
  targetIps : Option (Finset IpAddr)
  settings : ArpSettings

structure ScanSizes where
  interfacedIpCount : ℕ
  nonInterfacedIpCount : ℕ
  totalIps : ℕ
  totalRounds : ℕ
  estimatedArpSecs : ℕ
  maxArpTargets : ℕ
  deriving DecidableEq

def countScanIps (subnets : List Subnet) : Option (Finset IpAddr) → Option ℕ
  | some targets => Checked.sum 64
      (fun s => some (targets.filter fun ip => s.base.cidr.contains ip = true).card) subnets
  | none => Checked.sum 64
      (fun s => (Checked.sub 32 s.base.cidr.networkLength).bind (Checked.shl 64 1)) subnets

namespace ScanInputs
variable (inputs : ScanInputs)

def scope (maxArpTargets : ℕ) : ScanScope where
  subnetCidrToMac := inputs.subnetCidrToMac
  arpAvailable := inputs.arpAvailable
  maxArpTargets := maxArpTargets
  targetIps := inputs.targetIps

def parts (subnets : List Subnet) : List Subnet × List Subnet :=
  (inputs.scope 0).partitionSubnets (ScanScope.scannable subnets)

def sizes (subnets : List Subnet) : Option ScanSizes := do
  let interfacedIpCount ← countScanIps (inputs.parts subnets).1 inputs.targetIps
  let nonInterfacedIpCount ← countScanIps (inputs.parts subnets).2 inputs.targetIps
  let totalIps ← Checked.add 64 interfacedIpCount nonInterfacedIpCount
  let totalRounds ← Checked.add 64 1 inputs.settings.retries.toNat
  let roundSecs ← Checked.add 64
    (interfacedIpCount / max inputs.settings.ratePps.toNat 1) (roundWait / 1000000)
  let sendingSecs ← Checked.mul 64 totalRounds roundSecs
  let estimatedArpSecs ← Checked.add 64 sendingSecs (postScanReceive / 1000000)
  let maxArpTargets ← inputs.settings.maxArpTargets
  return { interfacedIpCount, nonInterfacedIpCount, totalIps, totalRounds, estimatedArpSecs,
           maxArpTargets }

/-- The packets that the ARP scans of the networks in `started` may send. The others have no
interface to send from. -/
def arpPacketsTotal (sizes : ScanSizes) (started : IpCidr → Bool) (order : List IpCidr)
    (interfaced : List Subnet) : Option ℕ :=
  Checked.sum 64 (fun entry => Checked.mul 64 entry.2.2.length sizes.totalRounds)
    ((((inputs.scope sizes.maxArpTargets).subnetToIps interfaced).iterate order).filter
      fun entry => started entry.1)

end ScanInputs

def ScanScope.Untruncated (scope : ScanScope) (interfaced : List Subnet) : Prop :=
  ∀ cidr, ((interfaced.filter (·.base.cidr = cidr)).map fun s =>
    (scope.arpCandidates s.base.cidr.addresses).length).sum ≤ scope.maxArpTargets

/-- No operation leaves its range, and the addresses that are counted are those that are visited,
unless the list of a network is truncated. -/
structure ScanInputs.Exact (inputs : ScanInputs) (subnets : List Subnet) (sizes : ScanSizes)
    (order : List IpCidr) : Prop where
  packets : ∀ started,
    inputs.arpPacketsTotal sizes started order (inputs.parts subnets).1 ≠ none
  interfaced : (inputs.scope sizes.maxArpTargets).Untruncated (inputs.parts subnets).1 →
    ((inputs.scope sizes.maxArpTargets).arpTargets order (inputs.parts subnets).1).length =
      sizes.interfacedIpCount
  nonInterfaced :
    ((inputs.scope sizes.maxArpTargets).streamedTargets (inputs.parts subnets).2).length =
      sizes.nonInterfacedIpCount

def ScanInputs.SizesExactly (inputs : ScanInputs) (subnets : List Subnet) : Prop :=
  ∃ sizes, inputs.sizes subnets = some sizes ∧ ∀ order,
    ((inputs.scope sizes.maxArpTargets).subnetToIps (inputs.parts subnets).1).Enumerates order →
    inputs.Exact subnets sizes order

def IpCidr.isIpv4 : IpCidr → Bool
  | v4 _ => true
  | v6 _ => false

def addressCount (targetIps : Option (Finset IpAddr)) (s : Subnet) : ℕ :=
  match targetIps with
  | some targets => (targets.filter fun ip => s.base.cidr.contains ip = true).card
  | none => 2 ^ (32 - s.base.cidr.networkLength)

theorem countScanIps_eq_some {subnets : List Subnet} {targetIps : Option (Finset IpAddr)} {n : ℕ} :
    countScanIps subnets targetIps = some n ↔
      (∀ s ∈ subnets, targetIps = none → s.base.cidr.networkLength ≤ 32) ∧
      (subnets.map (addressCount targetIps)).sum < 2 ^ 64 ∧
      (subnets.map (addressCount targetIps)).sum = n := by
  cases targetIps with
  | some targets =>
    refine Checked.sum_eq_some (fun s n => ?_)
    rw [some_inj]
    exact (and_iff_right fun h => nomatch h).symm
  | none =>
    refine Checked.sum_eq_some (fun s n => ?_)
    rw [Checked.shl_sub_eq_some (by decide)]
    exact and_congr_left' ⟨fun h _ => h, fun h => h rfl⟩

section Visits
variable {scope : ScanScope} {targets : Finset IpAddr} {interfaced : List Subnet}

theorem length_targeted_some (htargets : scope.targetIps = some targets) (c : IpCidr) :
    (c.addresses.filter scope.isTargeted).length =
      (targets.filter fun ip => c.contains ip = true).card := by
  rw [← toFinset_card_of_nodup (c.nodup_addresses.filter _)]
  refine congrArg Finset.card (Finset.ext fun ip => ?_)
  rw [List.mem_toFinset, mem_filter, Finset.mem_filter, mem_addresses,
    isTargeted, htargets, and_comm]
  simp

theorem filter_targeted_none (htargets : scope.targetIps = none) (ips : List IpAddr) :
    ips.filter scope.isTargeted = ips := by
  refine filter_eq_self.mpr fun ip _ => ?_
  rw [isTargeted, htargets]
  rfl

theorem length_arpCandidates_v4 (scope : ScanScope) (c : Cidr 32) :
    (scope.arpCandidates (IpCidr.v4 c).addresses).length =
      ((IpCidr.v4 c).addresses.filter scope.isTargeted).length := by
  unfold arpCandidates addresses
  dsimp only
  rw [List.filter_map, filterMap_map, length_map]
  exact congrArg List.length filterMap_some

theorem arpCandidates_v6 (scope : ScanScope) (c : Cidr 128) :
    scope.arpCandidates (IpCidr.v6 c).addresses = [] := by
  unfold arpCandidates addresses
  dsimp only
  rw [List.filter_map, filterMap_map]
  exact filterMap_eq_nil_iff.mpr fun _ _ => rfl

theorem length_arpCandidates (scope : ScanScope) (s : Subnet) :
    (scope.arpCandidates s.base.cidr.addresses).length =
      if s.base.cidr.isIpv4 then addressCount scope.targetIps s else 0 := by
  unfold addressCount
  cases hcidr : s.base.cidr with
  | v4 c =>
    rw [length_arpCandidates_v4, if_pos (by rfl)]
    cases htargets : scope.targetIps with
    | some targets => exact length_targeted_some htargets _
    | none =>
      rw [filter_targeted_none htargets]
      simp [addresses, networkLength]
  | v6 c =>
    rw [arpCandidates_v6]
    rfl

theorem length_streamed (scope : ScanScope) (s : Subnet) :
    (s.base.cidr.addresses.filter scope.isTargeted).length =
      if scope.targetIps = none ∧ s.base.cidr.isIpv4 = false
      then 2 ^ (128 - s.base.cidr.networkLength) else addressCount scope.targetIps s := by
  unfold addressCount
  cases htargets : scope.targetIps with
  | some targets =>
    rw [if_neg fun h => nomatch h.1]
    exact length_targeted_some htargets _
  | none =>
    rw [filter_targeted_none htargets]
    cases hcidr : s.base.cidr <;> simp [addresses, networkLength, IpCidr.isIpv4]

theorem foldl_pushTargets {l : List Subnet} {entry : List (BitVec 32)}
    (hroom : entry.length + (l.map fun s =>
      (scope.arpCandidates s.base.cidr.addresses).length).sum ≤ scope.maxArpTargets) :
    (l.foldl (fun entry s => scope.pushTargets entry s.base.cidr.addresses) entry).length =
      entry.length + (l.map fun s => (scope.arpCandidates s.base.cidr.addresses).length).sum := by
  induction l generalizing entry with
  | nil => rfl
  | cons s l ih =>
    rw [map_cons, sum_cons] at hroom ⊢
    have htake : scope.pushTargets entry s.base.cidr.addresses =
        entry ++ scope.arpCandidates s.base.cidr.addresses := by
      rw [pushTargets_eq, take_of_length_le]
      unfold ScanScope.room
      omega
    rw [foldl_cons, htake, ih, length_append, Nat.add_assoc]
    rw [length_append]
    omega

theorem length_arpTargets {order : List IpCidr}
    (horder : (scope.subnetToIps interfaced).Enumerates order)
    (huntruncated : scope.Untruncated interfaced) :
    (scope.arpTargets order interfaced).length =
      (interfaced.map fun s => (scope.arpCandidates s.base.cidr.addresses).length).sum := by
  have hkeys : ∀ s ∈ interfaced, s.base.cidr ∈ order := by
    intro s hs
    rw [horder.mem_iff, get_subnetToIps]
    cases hhead : (interfaced.filter (·.base.cidr = s.base.cidr)).head? with
    | some first => exact ⟨_, rfl⟩
    | none =>
      have hnone := head?_eq_none_iff.mp hhead
      exact absurd (filter_eq_nil_iff.mp hnone s hs) (by simp)
  rw [← Groups.sum_filter_keys horder.1 hkeys]
  refine Groups.length_flatMap_filterMap fun cidr hcidr => ?_
  obtain ⟨entry, hentry⟩ := horder.mem_iff.mp hcidr
  refine ⟨(cidr, entry), by rw [hentry]; rfl, ?_⟩
  rw [get_subnetToIps, map_eq_some_iff] at hentry
  obtain ⟨s, -, rfl⟩ := hentry
  rw [length_map]
  have hroom := huntruncated cidr
  rw [foldl_pushTargets (by rwa [length_nil, Nat.zero_add]), length_nil, Nat.zero_add]

theorem arpPacketsTotal_ne_none (inputs : ScanInputs) (sizes : ScanSizes) (order : List IpCidr)
    (interfaced : List Subnet) :
    (∀ started, inputs.arpPacketsTotal sizes started order interfaced ≠ none) ↔
      ((inputs.scope sizes.maxArpTargets).arpTargets order interfaced).length *
        sizes.totalRounds < 2 ^ 64 := by
  let entries := ((inputs.scope sizes.maxArpTargets).subnetToIps interfaced).iterate order
  have hsum : ((inputs.scope sizes.maxArpTargets).arpTargets order interfaced).length *
      sizes.totalRounds = (entries.map fun e => e.2.2.length * sizes.totalRounds).sum := by
    rw [sum_map_mul_right, arpTargets, length_flatMap]
    simp only [length_map, entries]
  have hsome : ∀ started, inputs.arpPacketsTotal sizes started order interfaced ≠ none ↔
      (∀ e ∈ entries.filter fun e => started e.1, e.2.2.length * sizes.totalRounds < 2 ^ 64) ∧
      ((entries.filter fun e => started e.1).map fun e =>
        e.2.2.length * sizes.totalRounds).sum < 2 ^ 64 := by
    intro started
    rw [ne_none_iff_exists']
    have hvalue := fun n => Checked.sum_eq_some (w := 64) (n := n)
      (l := entries.filter fun e => started e.1)
      fun (e : IpCidr × Subnet × List (BitVec 32)) n =>
        Checked.mul_eq_some (w := 64) (a := e.2.2.length) (b := sizes.totalRounds) (n := n)
    constructor
    · rintro ⟨n, hn⟩
      obtain ⟨hall, hlt, -⟩ := (hvalue n).mp hn
      exact ⟨hall, hlt⟩
    · rintro ⟨hall, hlt⟩
      exact ⟨_, (hvalue _).mpr ⟨hall, hlt, rfl⟩⟩
  rw [hsum]
  constructor
  · intro h
    have hall := ((hsome fun _ => true).mp (h _)).2
    rwa [filter_true] at hall
  · intro hlt started
    have hsub : (entries.filter fun e => started e.1).Sublist entries := filter_sublist
    refine (hsome started).mpr ⟨fun e he => ?_, ?_⟩
    · exact (single_le_sum (fun _ _ => Nat.zero_le _) _
        (List.mem_map_of_mem (hsub.subset he))).trans_lt hlt
    · exact ((hsub.map _).sum_le_sum fun _ _ => Nat.zero_le _).trans_lt hlt

end Visits

namespace ScanInputs
variable {inputs : ScanInputs} {subnets : List Subnet} {sizes : ScanSizes}
variable {maxArpTargets : ℕ}

@[simp] theorem targetIps_scope (inputs : ScanInputs) (maxArpTargets : ℕ) :
    (inputs.scope maxArpTargets).targetIps = inputs.targetIps := rfl

def counted (inputs : ScanInputs) (l : List Subnet) : ℕ :=
  (l.map (addressCount inputs.targetIps)).sum

def naturalSizes (inputs : ScanInputs) (subnets : List Subnet) : ScanSizes :=
  let counted := inputs.counted (inputs.parts subnets).1
  { interfacedIpCount := counted
    nonInterfacedIpCount := inputs.counted (inputs.parts subnets).2
    totalIps := counted + inputs.counted (inputs.parts subnets).2
    totalRounds := 1 + inputs.settings.retries.toNat
    estimatedArpSecs := (1 + inputs.settings.retries.toNat) *
      (counted / max inputs.settings.ratePps.toNat 1 + 3) + 5
    maxArpTargets := 2 ^ (32 - inputs.settings.cutoff.toNat) }

structure Sizable (inputs : ScanInputs) (subnets : List Subnet) : Prop where
  cutoff : inputs.settings.cutoff.toNat ≤ 32
  lengths : ∀ s ∈ (inputs.parts subnets).1, inputs.targetIps = none →
    s.base.cidr.networkLength ≤ 32
  total : (inputs.naturalSizes subnets).totalIps < 2 ^ 64
  estimate : (inputs.naturalSizes subnets).estimatedArpSecs < 2 ^ 64
  packets : ∀ order, ((inputs.scope (inputs.naturalSizes subnets).maxArpTargets).subnetToIps
      (inputs.parts subnets).1).Enumerates order →
    ((inputs.scope (inputs.naturalSizes subnets).maxArpTargets).arpTargets order
      (inputs.parts subnets).1).length * (inputs.naturalSizes subnets).totalRounds < 2 ^ 64
  /-- A network that is asked by ARP is one of IPv4 or has no target. -/
  interfaced : (inputs.scope (inputs.naturalSizes subnets).maxArpTargets).Untruncated
      (inputs.parts subnets).1 →
    ∀ s ∈ (inputs.parts subnets).1, s.base.cidr.isIpv4 = true ∨
      ∃ targets, inputs.targetIps = some targets ∧
        ∀ ip ∈ targets, s.base.cidr.contains ip = false
  /-- A sweep streams IPv4 networks only. -/
  nonInterfaced : inputs.targetIps = none →
    ∀ s ∈ (inputs.parts subnets).2, s.base.cidr.isIpv4 = true

theorem maxArpTargets_eq_some {settings : ArpSettings} {n : ℕ} :
    settings.maxArpTargets = some n ↔
      settings.cutoff.toNat ≤ 32 ∧ 2 ^ (32 - settings.cutoff.toNat) = n :=
  Checked.shl_sub_eq_some (by decide)

theorem sizes_eq_some : inputs.sizes subnets = some sizes ↔
    (∀ s ∈ (inputs.parts subnets).1, inputs.targetIps = none → s.base.cidr.networkLength ≤ 32) ∧
    (∀ s ∈ (inputs.parts subnets).2, inputs.targetIps = none → s.base.cidr.networkLength ≤ 32) ∧
    (inputs.naturalSizes subnets).totalIps < 2 ^ 64 ∧
    (inputs.naturalSizes subnets).estimatedArpSecs < 2 ^ 64 ∧
    inputs.settings.cutoff.toNat ≤ 32 ∧ inputs.naturalSizes subnets = sizes := by
  have hwait : roundWait / 1000000 = 3 := by decide +kernel
  have hreceive : postScanReceive / 1000000 = 5 := by decide +kernel
  have hretries : 1 + inputs.settings.retries.toNat < 2 ^ 64 := by
    have hlt := inputs.settings.retries.toNat_lt
    omega
  unfold ScanInputs.sizes
  simp only [bind_eq_bind, bind_eq_some_iff, countScanIps_eq_some, Checked.add_eq_some,
    Checked.mul_eq_some, maxArpTargets_eq_some, hwait, hreceive]
  constructor
  · rintro ⟨_, ⟨h1, -, rfl⟩, _, ⟨h2, -, rfl⟩, _, ⟨htotal, rfl⟩, _, ⟨-, rfl⟩, _, ⟨-, rfl⟩, _,
      ⟨-, rfl⟩, _, ⟨hestimate, rfl⟩, _, ⟨hcutoff, rfl⟩, hsizes⟩
    exact ⟨h1, h2, htotal, hestimate, hcutoff, some.inj hsizes⟩
  · rintro ⟨h1, h2, htotal, hestimate, hcutoff, rfl⟩
    have hsending := (Nat.le_add_right _ _).trans_lt hestimate
    have hround : inputs.counted (inputs.parts subnets).1 /
        max inputs.settings.ratePps.toNat 1 + 3 < 2 ^ 64 :=
      (Nat.le_mul_of_pos_left _ (Nat.add_pos_left Nat.one_pos _)).trans_lt hsending
    exact ⟨_, ⟨h1, (Nat.le_add_right _ _).trans_lt htotal, rfl⟩, _,
      ⟨h2, (Nat.le_add_left _ _).trans_lt htotal, rfl⟩, _, ⟨htotal, rfl⟩, _, ⟨hretries, rfl⟩, _,
      ⟨hround, rfl⟩, _, ⟨hsending, rfl⟩, _, ⟨hestimate, rfl⟩, _, ⟨hcutoff, rfl⟩, rfl⟩

theorem addressCount_eq_zero {targetIps : Option (Finset IpAddr)} {s : Subnet} :
    addressCount targetIps s = 0 ↔ ∃ targets, targetIps = some targets ∧
      ∀ ip ∈ targets, s.base.cidr.contains ip = false := by
  cases targetIps with
  | none => simp [addressCount]
  | some targets => simp [addressCount, Finset.filter_eq_empty_iff]

theorem length_arpTargets_eq_counted {order : List IpCidr}
    {interfaced : List Subnet}
    (horder : ((inputs.scope maxArpTargets).subnetToIps interfaced).Enumerates order)
    (huntruncated : (inputs.scope maxArpTargets).Untruncated interfaced) :
    ((inputs.scope maxArpTargets).arpTargets order interfaced).length = inputs.counted interfaced ↔
      ∀ s ∈ interfaced, s.base.cidr.isIpv4 = true ∨ ∃ targets, inputs.targetIps = some targets ∧
        ∀ ip ∈ targets, s.base.cidr.contains ip = false := by
  rw [length_arpTargets horder huntruncated, counted, Groups.sum_map_eq_iff]
  · refine forall₂_congr fun s _ => ?_
    rw [length_arpCandidates, targetIps_scope, ← addressCount_eq_zero]
    split_ifs with hfamily
    · exact iff_of_true rfl (.inl hfamily)
    · rw [or_iff_right hfamily]
      exact eq_comm
  · intro s _
    rw [length_arpCandidates, targetIps_scope]
    split_ifs
    · exact le_rfl
    · exact Nat.zero_le _

theorem length_streamedTargets_eq_counted {nonInterfaced : List Subnet}
    (hlengths : ∀ s ∈ nonInterfaced, inputs.targetIps = none → s.base.cidr.networkLength ≤ 32) :
    ((inputs.scope maxArpTargets).streamedTargets nonInterfaced).length =
        inputs.counted nonInterfaced ↔
      (inputs.targetIps = none → ∀ s ∈ nonInterfaced, s.base.cidr.isIpv4 = true) := by
  have hstreamed : ((inputs.scope maxArpTargets).streamedTargets nonInterfaced).length =
      (nonInterfaced.map fun s => (s.base.cidr.addresses.filter
        (inputs.scope maxArpTargets).isTargeted).length).sum := by
    rw [streamedTargets, length_flatMap]
    simp only [length_map]
  rw [hstreamed, counted, eq_comm, Groups.sum_map_eq_iff]
  · rw [forall_comm]
    refine forall_congr' fun s => ?_
    rw [forall_comm]
    refine forall_congr' fun hs => ?_
    rw [length_streamed, targetIps_scope]
    by_cases hsix : inputs.targetIps = none ∧ s.base.cidr.isIpv4 = false
    · rw [if_pos hsix]
      have hlength := hlengths s hs hsix.1
      have hcount : addressCount inputs.targetIps s =
          2 ^ (32 - s.base.cidr.networkLength) := by rw [hsix.1, addressCount]
      have hlt : 2 ^ (32 - s.base.cidr.networkLength) < 2 ^ (128 - s.base.cidr.networkLength) :=
        Nat.pow_lt_pow_right Nat.one_lt_two (by omega)
      rw [hcount]
      exact iff_of_false hlt.ne fun h => Bool.false_ne_true (hsix.2.symm.trans (h hsix.1))
    · rw [if_neg hsix]
      refine iff_of_true rfl fun hnone => ?_
      exact Bool.eq_true_of_not_eq_false fun hfamily => hsix ⟨hnone, hfamily⟩
  · intro s hs
    rw [length_streamed, targetIps_scope]
    split_ifs with hsix
    · rw [hsix.1]
      exact Nat.pow_le_pow_right Nat.two_pos (Nat.sub_le_sub_right (by decide) _)
    · exact le_rfl

/-- The sizes of a scan are exact if and only if the prefix of the limit has at most 32 bits, a
sweep has IPv4 networks only, as have the ARP requests of a rescan, and the sums are in their
range. -/
theorem sizesExactly_iff (inputs : ScanInputs) (subnets : List Subnet) :
    inputs.SizesExactly subnets ↔ inputs.Sizable subnets := by
  constructor
  · rintro ⟨sizes, hsizes, hexact⟩
    obtain ⟨hlengths, hstreamed, htotal, hestimate, hcutoff, rfl⟩ := sizes_eq_some.mp hsizes
    obtain ⟨order, horder⟩ := HashMap.exists_enumerates
      ((inputs.scope (inputs.naturalSizes subnets).maxArpTargets).subnetToIps
        (inputs.parts subnets).1)
    have hall := hexact order horder
    refine ⟨hcutoff, hlengths, htotal, hestimate, fun order horder => ?_, fun huntruncated => ?_, ?_⟩
    · exact (arpPacketsTotal_ne_none _ _ _ _).mp (hexact order horder).packets
    · exact (length_arpTargets_eq_counted horder huntruncated).mp (hall.interfaced huntruncated)
    · exact (length_streamedTargets_eq_counted hstreamed).mp hall.nonInterfaced
  · intro h
    have hstreamed : ∀ s ∈ (inputs.parts subnets).2, inputs.targetIps = none →
        s.base.cidr.networkLength ≤ 32 := by
      intro s hs hnone
      have hfamily := h.nonInterfaced hnone s hs
      cases hcidr : s.base.cidr with
      | v4 c => exact c.length_le
      | v6 c =>
        rw [hcidr] at hfamily
        exact absurd hfamily Bool.false_ne_true
    refine ⟨inputs.naturalSizes subnets, sizes_eq_some.mpr
      ⟨h.lengths, hstreamed, h.total, h.estimate, h.cutoff, rfl⟩, fun order horder => ⟨?_, ?_, ?_⟩⟩
    · exact (arpPacketsTotal_ne_none _ _ _ _).mpr (h.packets order horder)
    · intro huntruncated
      exact (length_arpTargets_eq_counted horder huntruncated).mpr (h.interfaced huntruncated)
    · exact (length_streamedTargets_eq_counted hstreamed).mpr h.nonInterfaced

/-- A limit that is given as a prefix of 33 bits, with one IPv4 network. -/
theorem not_sizesExactly : ¬∀ (inputs : ScanInputs) (subnets : List Subnet),
    inputs.SizesExactly subnets := by
  intro h
  let office : Subnet := ⟨1, 0, 0, none, none,
    ⟨.v4 ⟨0x0A000500, 24, by decide, by decide⟩, 1, "office", none, .lan, none, .discovery, 0⟩⟩
  obtain ⟨sizes, hsizes, -⟩ := h
    ⟨HashMap.empty, true, none, { arpScanCutoff := some 33 }⟩ [office]
  have hcutoff := (sizes_eq_some.mp hsizes).2.2.2.2.1
  exact absurd hcutoff (by decide)

end ScanInputs
end Scanopy
