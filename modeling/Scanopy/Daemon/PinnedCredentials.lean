import Scanopy.Credentials.Probes
import Scanopy.Daemon.Rescans
import Scanopy.Lib.Groups

/-! The credentials that are pinned to an address and never tried. One report before the scan looks
at the scanned subnets, one after it at the hosts found; neither knows which addresses were probed.
-/

namespace Scanopy

open List

section Reports
variable (mappings : List (CredentialMapping CredentialQueryPayload)) (subnets : List Subnet)
  (targetIps : Option (Finset IpAddr)) (answered : Finset IpAddr)

def unreachableCredentialTargets : List CredentialIssue :=
  (((mappings.flatMap (·.ipOverrides)).filter fun o => !o.ip.isLoopback).filter fun o =>
    !subnets.any fun s => s.base.cidr.contains o.ip).map fun o =>
      ⟨o.credential.discoveryLabel, o.ip, .targetNotScanned⟩

def unansweredCredentialTargets : List CredentialIssue :=
  (((((mappings.flatMap (·.ipOverrides)).filter fun o => !o.ip.isLoopback).filter fun o =>
    subnets.any fun s => s.base.cidr.contains o.ip).filter fun o =>
      targetIps.all fun targets => o.ip ∈ targets).filter fun o => o.ip ∉ answered).map fun o =>
        ⟨o.credential.discoveryLabel, o.ip, .targetNotResponding⟩

end Reports

structure Sweep where
  subnetCidrToMac : HashMap IpCidr (Option MacAddress)
  arpAvailable : Bool
  maxArpTargets : ℕ
  subnets : List Subnet

inductive ScanRun
  | sweep (sweep : Sweep)
  | rescan (rescan : Rescan) (resolved : rescan.resolution.subnets ≠ [])

namespace ScanRun

def subnets : ScanRun → List Subnet
  | sweep s => s.subnets
  | rescan r _ => r.resolution.subnets

def scope : ScanRun → ScanScope
  | sweep s => ⟨s.subnetCidrToMac, s.arpAvailable, s.maxArpTargets, none⟩
  | rescan r _ => r.scope

def isRequested : ScanRun → IpAddr → Bool
  | sweep _, _ => true
  | rescan r _, ip => ip ∈ r.targetIps

def scannedSubnets (run : ScanRun) : List Subnet := ScanScope.scannable run.subnets

def isInScope (run : ScanRun) (ip : IpAddr) : Bool :=
  run.scannedSubnets.any fun s => s.base.cidr.contains ip

end ScanRun

/-- What a run comes to. A host that was deep-scanned is recorded or is not. -/
structure ScanOutcome (run : ScanRun) where
  /-- The order in which the map of the ARP targets is iterated over. -/
  arpOrder : List IpCidr
  enumerates : (run.scope.subnetToIps
    (run.scope.partitionSubnets run.scannedSubnets).1).Enumerates arpOrder
  deepScanned : Finset IpAddr
  recorded : Finset IpAddr
  visited : ∀ ip ∈ deepScanned, ∃ s, (ip, s) ∈ run.scope.visits arpOrder run.subnets
  scanned : recorded ⊆ deepScanned

def pinnedCredentials (mappings : List (CredentialMapping CredentialQueryPayload)) :
    List (IpOverride CredentialQueryPayload) :=
  (mappings.flatMap (·.ipOverrides)).filter fun o => !o.ip.isLoopback

def IpOverride.issueKey (o : IpOverride CredentialQueryPayload) : String × IpAddr :=
  (o.credential.discoveryLabel, o.ip)

namespace ScanOutcome
variable {run : ScanRun} (outcome : ScanOutcome run)
  (mappings : List (CredentialMapping CredentialQueryPayload))

def reported : List CredentialIssue :=
  unreachableCredentialTargets mappings run.scannedSubnets ++
    unansweredCredentialTargets mappings run.scannedSubnets run.scope.targetIps outcome.recorded

def untried : List (IpOverride CredentialQueryPayload) :=
  (pinnedCredentials mappings).filter fun o => run.isRequested o.ip && o.ip ∉ outcome.deepScanned

/-- Each credential that was not tried is reported once, and no other is. -/
def Accounted : Prop :=
  ((outcome.reported mappings).map fun issue => (issue.label, issue.ip)).Perm
    ((outcome.untried mappings).map IpOverride.issueKey)

structure Tells : Prop where
  recorded : ∀ o ∈ pinnedCredentials mappings, o.ip ∈ outcome.deepScanned →
    o.ip ∈ outcome.recorded
  narrowed : ∀ o ∈ pinnedCredentials mappings, run.isRequested o.ip = false →
    run.isInScope o.ip = true
  unresolved : ∀ o ∈ pinnedCredentials mappings, run.isRequested o.ip = true →
    run.scope.isTargeted o.ip = false → run.isInScope o.ip = false

end ScanOutcome

namespace ScanScope
variable {scope : ScanScope} {subnets interfaced : List Subnet} {order : List IpCidr} {ip : IpAddr}
variable {bits : BitVec 32} {entry : List (BitVec 32)} {addrs : List IpAddr}

theorem mem_arpCandidates :
    bits ∈ scope.arpCandidates addrs ↔ .v4 bits ∈ addrs ∧ scope.isTargeted (.v4 bits) = true := by
  unfold arpCandidates
  rw [mem_filterMap, ← mem_filter]
  constructor
  · rintro ⟨addr, haddr, hbits⟩
    cases addr with
    | v4 b =>
      have hb : b = bits := Option.some.inj hbits
      rwa [hb] at haddr
    | v6 b => cases hbits
  · exact fun h => ⟨.v4 bits, h, rfl⟩

theorem mem_of_mem_pushTargets
    (h : bits ∈ scope.pushTargets entry addrs) :
    bits ∈ entry ∨ .v4 bits ∈ addrs ∧ scope.isTargeted (.v4 bits) = true := by
  rw [pushTargets_eq, mem_append] at h
  exact h.imp_right fun hbits => mem_arpCandidates.mp (mem_of_mem_take hbits)

theorem mem_of_mem_foldl_pushTargets
    (h : bits ∈ subnets.foldl (fun entry s => scope.pushTargets entry s.base.cidr.addresses) entry) :
    bits ∈ entry ∨ (∃ s ∈ subnets, s.base.cidr.contains (.v4 bits) = true) ∧
      scope.isTargeted (.v4 bits) = true := by
  induction subnets generalizing entry with
  | nil => exact .inl h
  | cons s subnets ih =>
    rcases ih h with hentry | ⟨⟨t, ht, hcontains⟩, htargeted⟩
    · refine (mem_of_mem_pushTargets hentry).imp_right fun ⟨haddr, htargeted⟩ => ?_
      exact ⟨⟨s, mem_cons_self, IpCidr.mem_addresses.mp haddr⟩, htargeted⟩
    · exact .inr ⟨⟨t, mem_cons_of_mem s ht, hcontains⟩, htargeted⟩

theorem of_mem_visits {s : Subnet} (horder : (scope.subnetToIps
      (scope.partitionSubnets (scannable subnets)).1).Enumerates order)
    (h : (ip, s) ∈ scope.visits order subnets) :
    (∃ t ∈ scannable subnets, t.base.cidr.contains ip = true) ∧ scope.isTargeted ip = true := by
  rw [partitionSubnets_eq] at horder
  unfold visits at h
  rw [partitionSubnets_eq] at h
  rcases mem_append.mp h with harp | hstream
  · obtain ⟨⟨cidr, t, ips⟩, hentry, hip⟩ := mem_flatMap.mp harp
    obtain ⟨bits, hbits, heq⟩ := mem_map.mp hip
    obtain ⟨rfl, -⟩ := Prod.mk.inj heq
    have hget := horder.mem_iterate.mp hentry
    rw [get_subnetToIps, Option.map_eq_some_iff] at hget
    obtain ⟨u, -, hu⟩ := hget
    have hips := (Prod.mk.inj hu).2
    rw [← hips] at hbits
    rcases mem_of_mem_foldl_pushTargets hbits with hnone | ⟨⟨v, hv, hcontains⟩, htargeted⟩
    · exact absurd hnone not_mem_nil
    · have hv := mem_of_mem_filter (mem_of_mem_filter hv)
      exact ⟨⟨v, hv, hcontains⟩, htargeted⟩
  · obtain ⟨t, ht, hip⟩ := mem_flatMap.mp hstream
    obtain ⟨addr, haddr, heq⟩ := mem_map.mp hip
    obtain ⟨rfl, -⟩ := Prod.mk.inj heq
    obtain ⟨haddr, htargeted⟩ := mem_filter.mp haddr
    exact ⟨⟨t, mem_of_mem_filter ht, IpCidr.mem_addresses.mp haddr⟩, htargeted⟩

end ScanScope

theorem ScanRun.isRequested_of_isTargeted {run : ScanRun} {ip : IpAddr}
    (h : run.scope.isTargeted ip = true) : run.isRequested ip = true := by
  cases run with
  | sweep s => rfl
  | rescan r hresolved =>
    have hip := (Rescan.mem_resolved.mp (Rescan.isTargeted_scope.mp h)).1
    exact decide_eq_true hip

namespace ScanOutcome
variable {run : ScanRun} {outcome : ScanOutcome run} {ip : IpAddr}
  {mappings : List (CredentialMapping CredentialQueryPayload)}

theorem isInScope_of_deepScanned (h : ip ∈ outcome.deepScanned) :
    run.isInScope ip = true ∧ run.scope.isTargeted ip = true := by
  obtain ⟨s, hs⟩ := outcome.visited ip h
  obtain ⟨⟨t, ht, hcontains⟩, htargeted⟩ := ScanScope.of_mem_visits outcome.enumerates hs
  exact ⟨List.any_eq_true.mpr ⟨t, ht, hcontains⟩, htargeted⟩

def reports (outcome : ScanOutcome run) (ip : IpAddr) : Bool :=
  !run.isInScope ip || run.scope.isTargeted ip && ip ∉ outcome.recorded

theorem reported_perm (outcome : ScanOutcome run)
    (mappings : List (CredentialMapping CredentialQueryPayload)) :
    ((outcome.reported mappings).map fun issue => (issue.label, issue.ip)).Perm
      (((pinnedCredentials mappings).filter fun o => outcome.reports o.ip).map
        IpOverride.issueKey) := by
  have hunreachable : (pinnedCredentials mappings).filter (fun o => !run.isInScope o.ip) =
      ((pinnedCredentials mappings).filter fun o => outcome.reports o.ip).filter fun o =>
        !run.isInScope o.ip := by
    rw [filter_filter]
    refine filter_congr fun o _ => ?_
    unfold reports
    cases run.isInScope o.ip <;> rfl
  have hunanswered : (((pinnedCredentials mappings).filter fun o => run.isInScope o.ip).filter
      fun o => run.scope.isTargeted o.ip).filter (fun o => o.ip ∉ outcome.recorded) =
        ((pinnedCredentials mappings).filter fun o => outcome.reports o.ip).filter fun o =>
          !!run.isInScope o.ip := by
    rw [filter_filter, filter_filter, filter_filter]
    refine filter_congr fun o _ => ?_
    unfold reports
    cases run.isInScope o.ip
    · simp
    · simp [Bool.and_comm]
  have hsplit := filter_append_perm (fun o => !run.isInScope o.ip)
    ((pinnedCredentials mappings).filter fun o => outcome.reports o.ip)
  rw [← hunreachable, ← hunanswered] at hsplit
  have hkeys := hsplit.map IpOverride.issueKey
  rw [map_append] at hkeys
  unfold reported
  rw [map_append, unreachableCredentialTargets, unansweredCredentialTargets, map_map, map_map]
  exact hkeys

theorem accounted_iff_forall : outcome.Accounted mappings ↔ ∀ o ∈ pinnedCredentials mappings,
    outcome.reports o.ip = (run.isRequested o.ip && o.ip ∉ outcome.deepScanned) := by
  have hperm := outcome.reported_perm mappings
  have hkeys : (((pinnedCredentials mappings).filter fun o => outcome.reports o.ip).map
      IpOverride.issueKey).Perm ((outcome.untried mappings).map IpOverride.issueKey) ↔
        ∀ o ∈ pinnedCredentials mappings,
          outcome.reports o.ip = (run.isRequested o.ip && o.ip ∉ outcome.deepScanned) :=
    Groups.map_filter_perm_iff (p := fun k : String × IpAddr => outcome.reports k.2)
      (q := fun k : String × IpAddr => run.isRequested k.2 && k.2 ∉ outcome.deepScanned)
  exact Iff.trans ⟨fun h => hperm.symm.trans h, fun h => hperm.trans h⟩ hkeys

/-- The pinned credentials are accounted for if each address that was probed has a host, each that
was not asked for is in scope, and each that was asked for and not resolved is not. -/
theorem accounted_iff (outcome : ScanOutcome run)
    (mappings : List (CredentialMapping CredentialQueryPayload)) :
    outcome.Accounted mappings ↔ outcome.Tells mappings := by
  rw [accounted_iff_forall]
  constructor
  · intro h
    refine ⟨fun o ho hdeep => ?_, fun o ho hrequested => ?_, fun o ho hrequested htargeted => ?_⟩
    · obtain ⟨hscope, htargeted⟩ := isInScope_of_deepScanned hdeep
      have ho := h o ho
      unfold reports at ho
      rw [hscope, htargeted, decide_eq_false (not_not.mpr hdeep)] at ho
      simpa using ho
    · have htargeted : run.scope.isTargeted o.ip ≠ true := by
        intro htargeted
        rw [ScanRun.isRequested_of_isTargeted htargeted] at hrequested
        cases hrequested
      have ho := h o ho
      unfold reports at ho
      rw [hrequested, Bool.eq_false_iff.mpr htargeted] at ho
      simpa using ho
    · have hdeep : o.ip ∉ outcome.deepScanned := by
        intro hdeep
        rw [(isInScope_of_deepScanned hdeep).2] at htargeted
        cases htargeted
      have ho := h o ho
      unfold reports at ho
      rw [hrequested, htargeted, decide_eq_true hdeep] at ho
      simpa using ho
  · intro h o ho
    unfold reports
    by_cases hdeep : o.ip ∈ outcome.deepScanned
    · obtain ⟨hscope, htargeted⟩ := isInScope_of_deepScanned hdeep
      have hrecorded := h.recorded o ho hdeep
      simp [hscope, hdeep, hrecorded]
    · have hrecorded : o.ip ∉ outcome.recorded := fun hrecorded => hdeep (outcome.scanned hrecorded)
      have hnarrowed := h.narrowed o ho
      have hunresolved := h.unresolved o ho
      have hrequested : run.scope.isTargeted o.ip = true → run.isRequested o.ip = true :=
        ScanRun.isRequested_of_isTargeted
      rw [decide_eq_true hdeep, decide_eq_true hrecorded, Bool.and_true, Bool.and_true]
      cases htargeted : run.scope.isTargeted o.ip with
      | true => rw [hrequested htargeted, Bool.or_true]
      | false =>
        rw [Bool.or_false]
        cases hasked : run.isRequested o.ip with
        | true => rw [hunresolved hasked htargeted, Bool.not_false]
        | false => rw [hnarrowed hasked, Bool.not_true]

section Office

def officeNetwork : IpCidr := .v4 ⟨0x0A000500, 24, Cidr.slash24_le, by decide⟩

def rescanOfSeven : Rescan where
  targetIps := {.v4 0x0A000507}
  subnetCidrToMac := HashMap.empty.insert officeNetwork none
  interfaceOrder := [officeNetwork]
  allSubnets := [Rescan.officeSubnet 1 officeNetwork]
  arpAvailable := false
  maxArpTargets := 2 ^ 17

theorem subnets_rescanOfSeven :
    rescanOfSeven.resolution.subnets = [Rescan.officeSubnet 1 officeNetwork] := by
  have hresolution : rescanOfSeven.resolution = [.v4 0x0A000507].foldl
      (RescanResolution.add rescanOfSeven.interfaces rescanOfSeven.allSubnets) {} :=
    congrArg (List.foldl (RescanResolution.add rescanOfSeven.interfaces rescanOfSeven.allSubnets) {})
      (Finset.sort_singleton _ _)
  rw [hresolution]
  decide

def runOfSeven : ScanRun :=
  .rescan rescanOfSeven (by rw [subnets_rescanOfSeven]; exact List.cons_ne_nil _ _)

def elsewhere : List (CredentialMapping CredentialQueryPayload) :=
  [⟨none, [⟨.v4 0xC0A80109, .unifiController ⟨8443, "default", .apiKey (.value "key")⟩, 1⟩]⟩]

/-- A rescan reports the credential of a controller that it was not asked to visit. -/
theorem not_accounted : ¬∀ (run : ScanRun) (outcome : ScanOutcome run)
    (mappings : List (CredentialMapping CredentialQueryPayload)), outcome.Accounted mappings := by
  intro h
  obtain ⟨order, horder⟩ := HashMap.exists_enumerates (runOfSeven.scope.subnetToIps
    (runOfSeven.scope.partitionSubnets runOfSeven.scannedSubnets).1)
  -- the target is silent
  have haccounted := accounted_iff_forall.mp (h runOfSeven
    ⟨order, horder, ∅, ∅, fun _ hip => absurd hip (Finset.notMem_empty _), subset_rfl⟩ elsewhere)
      _ mem_cons_self
  have hsubnets : runOfSeven.subnets = [Rescan.officeSubnet 1 officeNetwork] :=
    subnets_rescanOfSeven
  have hscope : runOfSeven.isInScope (.v4 0xC0A80109) = false := by
    unfold ScanRun.isInScope ScanRun.scannedSubnets
    rw [hsubnets]
    decide
  have hrequested : runOfSeven.isRequested (.v4 0xC0A80109) = false := by decide
  unfold reports at haccounted
  rw [hscope, hrequested] at haccounted
  cases haccounted

end Office

end ScanOutcome
end Scanopy
