import Scanopy.Hosts.Children
import Scanopy.Hosts.Records
import Scanopy.Vlans.Service

/-! The digest of a session: the hosts and VLANs that it has added, and those that have gone stale
since the session before it, as far as its session could reach them. -/

namespace Scanopy

open List

structure TrackedInterfaceBase extends InterfaceBase where
  lastSeenAt : Timestamp
  deriving DecidableEq

instance : Sighted TrackedInterfaceBase where
  lastSeenAt := (·.lastSeenAt)

structure DigestTables where
  hosts : RowTable TrackedHostBase
  ipAddresses : RowTable IPAddressBase
  services : RowTable TrackedServiceBase
  interfaces : RowTable TrackedInterfaceBase
  ports : RowTable TrackedPortBase
  subnets : RowTable SubnetBase
  vlans : RowTable TrackedVlanBase

structure DigestWindow where
  tStart : Timestamp
  tEnd : Timestamp
  /-- The cutoff of the network at `tEnd`. -/
  cutoff : Timestamp
  /-- The cutoff at the finish of the previous session, `none` on the first scan of a network. -/
  prevCutoff : Option Timestamp

def computeDigestStatus {B : Type} [Sighted B] (entity : Row B) (scannedIds : List Uuid)
    (window : DigestWindow) : EntityFreshness × Bool :=
  if scannedIds.contains entity.id && window.tStart ≤ entity.createdAt &&
      entity.createdAt ≤ window.tEnd then (.new, true)
  else match freshness entity.base window.cutoff with
    | .stale => (.stale, window.prevCutoff.any (· ≤ Sighted.lastSeenAt entity.base))
    | other => (other, false)

inductive ScanCoverage
  | subnets (swept : List Uuid)
  | singleHost (hostId : Uuid)

/-- The subnets that a user has chosen for a session. -/
def DiscoveryType.targeted : DiscoveryType → Option (List Uuid)
  | network (some ids) | unified _ (some ids) _ => if ids.isEmpty then none else some ids
  | _ => none

namespace ScanCoverage

def forSession (discoveryType : DiscoveryType) (scanned : ScannedEntityIds) : ScanCoverage :=
  match discoveryType with
  | .docker hostId | .selfReport hostId => .singleHost hostId
  | .rescan _ targetHostId => .singleHost targetHostId
  | other => .subnets (other.targeted.getD scanned.subnetIds)

def coversHost (coverage : ScanCoverage) (hostId : Uuid) (hostSubnets : Option (List Uuid)) :
    Bool :=
  match coverage with
  | .singleHost id => id = hostId
  | .subnets swept => hostSubnets.any fun subnets => subnets.any swept.contains

def sweptSubnets : ScanCoverage → Bool
  | .subnets swept => !swept.isEmpty
  | .singleHost _ => false

end ScanCoverage

/-- How the children of a host are judged: by themselves if the host was reached. -/
inductive ChildPolicy
  | classify
  | inherit (status : EntityFreshness) (isFresh : Bool)

def ChildPolicy.resolve (own : EntityFreshness × Bool) : ChildPolicy → EntityFreshness × Bool
  | .classify => own
  | .inherit status isFresh => (status, isFresh)

inductive CardSection
  | services | ipAddresses | interfaces | ports
  deriving DecidableEq

structure ChildSummary where
  part : CardSection
  id : Uuid
  hostId : Uuid
  status : EntityFreshness
  isFresh : Bool
  deriving DecidableEq

structure HostSummary where
  id : Uuid
  label : String
  deriving DecidableEq

structure AffectedHostCard where
  host : HostSummary
  status : EntityFreshness
  children : List ChildSummary
  deriving DecidableEq

structure SubnetSummary where
  id : Uuid
  label : String
  deriving DecidableEq

structure VlanSummary where
  id : Uuid
  vlanNumber : BitVec 16
  name : String
  deriving DecidableEq

structure DiscoveryDigestPayload where
  sessionId : Uuid
  networkId : Uuid
  networkName : String
  startedAt : Timestamp
  finishedAt : Timestamp
  staleAfterHours : ℤ
  subnetsScanned : List SubnetSummary
  hostsAdded : List AffectedHostCard
  hostsStale : List AffectedHostCard
  hostsChanged : List AffectedHostCard
  vlansAdded : List VlanSummary
  vlansStale : List VlanSummary
  deriving DecidableEq

def hostSummary (h : TrackedHost) : HostSummary where
  id := h.id
  label := match h.base.hostname with
    | some hostname => if hostname = "" then h.base.name else hostname
    | none => h.base.name

def vlanSummary (v : TrackedVlan) : VlanSummary := ⟨v.id, v.base.vlanNumber, v.base.name⟩

def cardHasFreshChildren (card : AffectedHostCard) : Bool := card.children.any (·.isFresh)

def childSummary {B : Type} [Sighted B] (affected : List (Uuid × ChildPolicy))
    (window : DigestWindow) (part : CardSection) (hostId : B → Uuid) (scannedIds : List Uuid)
    (child : Row B) : Option ChildSummary :=
  (affected.find? (·.1 = hostId child.base)).map fun (_, policy) =>
    let (status, isFresh) := policy.resolve (computeDigestStatus child scannedIds window)
    ⟨part, child.id, hostId child.base, status, isFresh⟩

structure HostBucket where
  host : TrackedHost
  status : EntityFreshness
  isFresh : Bool

def previousHistoricalFinishedAt (history : List HistoricalDiscovery) (networkId : Uuid)
    (before : Timestamp) : Option Timestamp :=
  ((history.filter fun d => d.networkId = networkId && d.discoveryType.rescanTargetHostId.isNone &&
    d.updatedAt < before).map (·.updatedAt)).max?

namespace DigestTables
variable (inventory : DigestTables) (networkId : Uuid)

def liveHosts : List TrackedHost :=
  (inventory.hosts.rows.filter fun h => h.isLive && h.base.networkId = networkId).map (·.toRow)

def liveIpAddresses : List IPAddress :=
  (inventory.ipAddresses.rows.filter fun a => a.isLive && a.base.networkId = networkId).map
    (·.toRow)

def liveVlans : List TrackedVlan :=
  (inventory.vlans.rows.filter fun v => v.isLive && v.base.networkId = networkId).map (·.toRow)

/-- The subnets that a host has a live address in, `none` if it has no address. -/
def hostSubnets (hostId : Uuid) : Option (List Uuid) :=
  match (inventory.liveIpAddresses networkId).filter (·.base.hostId = hostId) with
  | [] => none
  | ips => some (ips.map (·.base.subnetId))

/-- The subnets of `subnets_scanned`, without the loopback ones. -/
def subnetsScanned (subnetIds : List Uuid) : List SubnetSummary :=
  ((inventory.subnets.rows.filter fun s => s.id ∈ subnetIds).filter fun s =>
    !s.base.cidr.firstAddress.isLoopback).map fun s => ⟨s.id, s.base.name⟩

def fetchCurrentChildren (defs : ServiceDefinitions) (affected : List (Uuid × ChildPolicy))
    (scanned : ScannedEntityIds) (window : DigestWindow) : List ChildSummary :=
  (inventory.services.rows.filter fun s =>
      s.isLive && !defs.isOpenPorts s.base.serviceDefinition).filterMap
    (fun s => childSummary affected window .services (·.hostId) scanned.serviceIds s.toRow) ++
  ((inventory.liveIpAddresses networkId).filter fun a => !a.base.ipAddress.isLoopback).filterMap
    (childSummary affected window .ipAddresses (·.hostId) scanned.ipAddressIds) ++
  (inventory.interfaces.rows.filter fun i => i.isLive).filterMap
    (fun i => childSummary affected window .interfaces (·.hostId) scanned.interfaceIds i.toRow) ++
  (inventory.ports.rows.filter fun p => p.isLive).filterMap
    (fun p => childSummary affected window .ports (·.hostId) scanned.portIds p.toRow)

end DigestTables

structure DigestSystem where
  network : NetworkWindow
  inventory : DigestTables
  history : List HistoricalDiscovery := []
  digests : List DiscoveryDigestPayload := []

namespace DigestSystem
variable (defs : ServiceDefinitions) (s : DigestSystem)

def digestWindow (tStart tEnd : Timestamp) : DigestWindow where
  tStart := tStart
  tEnd := tEnd
  cutoff := s.network.staleCutoff tEnd
  prevCutoff := (previousHistoricalFinishedAt s.history s.network.id tEnd).map s.network.staleCutoff

def hostBuckets (payload : DiscoveryUpdatePayload) (scanned : ScannedEntityIds)
    (window : DigestWindow) : List HostBucket :=
  let coverage := ScanCoverage.forSession payload.discoveryType scanned
  ((s.inventory.liveHosts s.network.id).filter fun h =>
    coverage.coversHost h.id (s.inventory.hostSubnets s.network.id h.id)).map fun h =>
      let (status, isFresh) := computeDigestStatus h scanned.hostIds window
      ⟨h, status, isFresh⟩

def compute (payload : DiscoveryUpdatePayload) (scanned : ScannedEntityIds)
    (tStart tEnd : Timestamp) : DiscoveryDigestPayload :=
  let window := s.digestWindow tStart tEnd
  let coverage := ScanCoverage.forSession payload.discoveryType scanned
  let buckets := s.hostBuckets payload scanned window
  let affected := (buckets.filter fun b => b.status ≠ .stale || b.isFresh).map fun b =>
    (b.host.id, if scanned.hostIds.contains b.host.id then ChildPolicy.classify
      else .inherit b.status b.isFresh)
  let children := s.inventory.fetchCurrentChildren s.network.id defs affected scanned window
  let buildCard (b : HostBucket) : AffectedHostCard :=
    ⟨hostSummary b.host, b.status, children.filter (·.hostId = b.host.id)⟩
  let liveVlans := s.inventory.liveVlans s.network.id
  { sessionId := payload.sessionId
    networkId := s.network.id
    networkName := s.network.name
    startedAt := tStart
    finishedAt := tEnd
    staleAfterHours := s.network.effectiveStaleAfterHours
    subnetsScanned := s.inventory.subnetsScanned
      (payload.discoveryType.targeted.getD scanned.subnetIds)
    hostsAdded := (buckets.filter (·.status = .new)).map buildCard
    hostsStale := (buckets.filter fun b => b.status = .stale && b.isFresh).map buildCard
    hostsChanged := (((buckets.filter (·.status = .current)).map buildCard).filter
      cardHasFreshChildren).mergeSort fun a b => a.host.label ≤ b.host.label
    vlansAdded := (liveVlans.filter fun v =>
      tStart ≤ v.createdAt && v.createdAt ≤ tEnd).map vlanSummary
    vlansStale := if coverage.sweptSubnets then
        ((liveVlans.filter fun v => v.createdAt < tStart).filter fun v =>
          computeDigestStatus v scanned.vlanIds window = (.stale, true)).map vlanSummary
      else [] }

def computeAndPublish (payload : DiscoveryUpdatePayload) (scanned : ScannedEntityIds) :
    Option DiscoveryDigestPayload :=
  match payload.startedAt, payload.finishedAt with
  | some tStart, some tEnd => some (s.compute defs payload scanned tStart tEnd)
  | _, _ => none

def handle (discovery : HistoricalDiscovery) (scanned : ScannedEntityIds) :
    Option DiscoveryDigestPayload :=
  if discovery.results.phase ≠ .complete then none
  else if discovery.results.discoveryType.rescanTargetHostId.isSome then none
  else s.computeAndPublish defs discovery.results scanned

end DigestSystem

/-- A session ends with its terminal payload and is recorded at `now`; or the tables of the network
change. -/
inductive DigestStep
  | finish (session : DiscoveryUpdatePayload) (scanned : ScannedEntityIds) (now : Timestamp)
      (rescanName : Option String)
  | write (inventory : DigestTables)

namespace DigestSystem
variable (defs : ServiceDefinitions)

def record (s : DigestSystem) (session : DiscoveryUpdatePayload) (now : Timestamp)
    (rescanName : Option String) : DigestSystem :=
  { s with history := s.history ++
      [historicalDiscovery session now rescanName (some s.network.name)] }

def digestOf (s : DigestSystem) (session : DiscoveryUpdatePayload) (scanned : ScannedEntityIds)
    (now : Timestamp) (rescanName : Option String) : Option DiscoveryDigestPayload :=
  (s.record session now rescanName).handle defs
    (historicalDiscovery session now rescanName (some s.network.name)) scanned

def step (s : DigestSystem) : DigestStep → Option DigestSystem
  | .finish session scanned now rescanName =>
    if session.phase.isTerminal && session.networkId = s.network.id then
      some { s.record session now rescanName with
        digests := s.digests ++ (s.digestOf defs session scanned now rescanName).toList }
    else none
  | .write inventory => some { s with inventory }

def lts (init : DigestSystem) : Lts DigestSystem DigestStep where
  init := init
  step := step defs

end DigestSystem

def DigestSystem.addedHosts (s : DigestSystem) (scanned : ScannedEntityIds)
    (tStart tEnd : Timestamp) : List TrackedHost :=
  (s.inventory.liveHosts s.network.id).filter fun h =>
    scanned.hostIds.contains h.id && tStart ≤ h.createdAt && h.createdAt ≤ tEnd

structure DiscoveryDigestPayload.ReportsHosts (d : DiscoveryDigestPayload)
    (addedIds : List Uuid) : Prop where
  added : ∀ id ∈ addedIds, (d.hostsAdded.map (·.host.id)).count id = 1
  disjoint : [d.hostsAdded, d.hostsStale, d.hostsChanged].Pairwise fun cards cards' =>
    (cards.map (·.host.id)).Disjoint (cards'.map (·.host.id))

namespace DigestSystem
variable {defs : ServiceDefinitions} {s : DigestSystem} {payload : DiscoveryUpdatePayload}
  {scanned : ScannedEntityIds} {tStart tEnd : Timestamp} {window : DigestWindow}
variable {id : Uuid}

theorem nodup_hostBuckets : ((s.hostBuckets payload scanned window).map (·.host.id)).Nodup := by
  have hids : (s.hostBuckets payload scanned window).map (·.host.id) =
      ((s.inventory.liveHosts s.network.id).filter fun h =>
        (ScanCoverage.forSession payload.discoveryType scanned).coversHost h.id
          (s.inventory.hostSubnets s.network.id h.id)).map (·.id) := by
    rw [hostBuckets, map_map]
    rfl
  have hlive : ((s.inventory.liveHosts s.network.id).map (·.id)).Nodup := by
    rw [DigestTables.liveHosts, map_map]
    exact s.inventory.hosts.nodup.sublist (filter_sublist.map _)
  rw [hids]
  exact hlive.sublist (filter_sublist.map _)

theorem eq_of_mem_hostBuckets {b b' : HostBucket} (hb : b ∈ s.hostBuckets payload scanned window)
    (hb' : b' ∈ s.hostBuckets payload scanned window) (hid : b.host.id = b'.host.id) : b = b' :=
  inj_on_of_nodup_map nodup_hostBuckets hb hb' hid

theorem mem_hostsAdded :
    id ∈ (s.compute defs payload scanned tStart tEnd).hostsAdded.map (·.host.id) ↔
      ∃ b ∈ s.hostBuckets payload scanned (s.digestWindow tStart tEnd),
        b.status = .new ∧ b.host.id = id := by
  simp [compute, hostSummary, and_assoc]

theorem status_of_mem_hostsStale
    (h : id ∈ (s.compute defs payload scanned tStart tEnd).hostsStale.map (·.host.id)) :
    ∃ b ∈ s.hostBuckets payload scanned (s.digestWindow tStart tEnd),
      b.status = .stale ∧ b.host.id = id := by
  simp only [compute, hostSummary, map_map, mem_map, mem_filter,
    Bool.and_eq_true, decide_eq_true_eq, Function.comp_apply] at h
  obtain ⟨b, ⟨hb, hstale, -⟩, hid⟩ := h
  exact ⟨b, hb, hstale, hid⟩

theorem status_of_mem_hostsChanged
    (h : id ∈ (s.compute defs payload scanned tStart tEnd).hostsChanged.map (·.host.id)) :
    ∃ b ∈ s.hostBuckets payload scanned (s.digestWindow tStart tEnd),
      b.status = .current ∧ b.host.id = id := by
  obtain ⟨card, hcard, rfl⟩ := mem_map.mp h
  obtain ⟨b, hb, rfl⟩ := mem_map.mp (mem_of_mem_filter (mem_mergeSort.mp hcard))
  obtain ⟨hb, hcurrent⟩ := mem_filter.mp hb
  exact ⟨b, hb, of_decide_eq_true hcurrent, rfl⟩

theorem count_hostsAdded :
    ((s.compute defs payload scanned tStart tEnd).hostsAdded.map (·.host.id)).count id = 1 ↔
      id ∈ (s.compute defs payload scanned tStart tEnd).hostsAdded.map (·.host.id) := by
  have hnodup : ((s.compute defs payload scanned tStart tEnd).hostsAdded.map
      (·.host.id)).Nodup := by
    rw [compute, map_map]
    exact nodup_hostBuckets.sublist (filter_sublist.map _)
  refine ⟨fun h => ?_, count_eq_one_of_mem hnodup⟩
  exact count_pos_iff.mp (h ▸ Nat.one_pos)

theorem disjoint_lists : [(s.compute defs payload scanned tStart tEnd).hostsAdded,
    (s.compute defs payload scanned tStart tEnd).hostsStale,
    (s.compute defs payload scanned tStart tEnd).hostsChanged].Pairwise fun cards cards' =>
      (cards.map (·.host.id)).Disjoint (cards'.map (·.host.id)) := by
  have hdisjoint : ∀ {status status' : EntityFreshness}, status ≠ status' → ∀ {id : Uuid},
      (∃ b ∈ s.hostBuckets payload scanned (s.digestWindow tStart tEnd),
        b.status = status ∧ b.host.id = id) →
      ¬∃ b ∈ s.hostBuckets payload scanned (s.digestWindow tStart tEnd),
        b.status = status' ∧ b.host.id = id := by
    rintro status status' hne id ⟨b, hb, rfl, rfl⟩ ⟨b', hb', rfl, hid⟩
    exact hne (congrArg HostBucket.status (eq_of_mem_hostBuckets hb hb' hid.symm))
  simp only [pairwise_cons, mem_cons, not_mem_nil, or_false, forall_eq_or_imp,
    forall_eq, false_imp_iff, implies_true, and_true, List.Pairwise.nil]
  refine ⟨⟨fun id hadded hstale => ?_, fun id hadded hchanged => ?_⟩, fun id hstale hchanged => ?_⟩
  · exact hdisjoint (by decide) (mem_hostsAdded.mp hadded) (status_of_mem_hostsStale hstale)
  · exact hdisjoint (by decide) (mem_hostsAdded.mp hadded) (status_of_mem_hostsChanged hchanged)
  · exact hdisjoint (by decide) (status_of_mem_hostsStale hstale)
      (status_of_mem_hostsChanged hchanged)

theorem mem_hostsAdded_iff_coversHost {h : TrackedHost}
    (hadded : h ∈ s.addedHosts scanned tStart tEnd) :
    h.id ∈ (s.compute defs payload scanned tStart tEnd).hostsAdded.map (·.host.id) ↔
      (ScanCoverage.forSession payload.discoveryType scanned).coversHost h.id
        (s.inventory.hostSubnets s.network.id h.id) = true := by
  obtain ⟨hlive, hwindow⟩ := mem_filter.mp hadded
  have hnew : computeDigestStatus h scanned.hostIds (s.digestWindow tStart tEnd) = (.new, true) :=
    if_pos hwindow
  rw [mem_hostsAdded]
  constructor
  · rintro ⟨b, hb, -, hid⟩
    obtain ⟨h', hh', rfl⟩ := mem_map.mp hb
    rw [← hid]
    exact (mem_filter.mp hh').2
  · intro hcovers
    refine ⟨⟨h, .new, true⟩, mem_map.mpr ⟨h, mem_filter.mpr ⟨hlive, hcovers⟩, ?_⟩, rfl, rfl⟩
    rw [hnew]

/-- The digest reports the hosts of its session exactly if the session covers those that it has
added. -/
theorem reportsHosts_compute_iff (defs : ServiceDefinitions) (s : DigestSystem)
    (payload : DiscoveryUpdatePayload) (scanned : ScannedEntityIds) (tStart tEnd : Timestamp) :
    (s.compute defs payload scanned tStart tEnd).ReportsHosts
        ((s.addedHosts scanned tStart tEnd).map (·.id)) ↔
      ∀ h ∈ s.addedHosts scanned tStart tEnd,
        (ScanCoverage.forSession payload.discoveryType scanned).coversHost h.id
          (s.inventory.hostSubnets s.network.id h.id) = true := by
  constructor
  · intro hreports h hadded
    have hcount := hreports.added h.id (mem_map_of_mem hadded)
    exact (mem_hostsAdded_iff_coversHost hadded).mp (count_hostsAdded.mp hcount)
  · refine fun hcovers => ⟨fun id hid => ?_, disjoint_lists⟩
    obtain ⟨h, hadded, rfl⟩ := mem_map.mp hid
    exact count_hostsAdded.mpr ((mem_hostsAdded_iff_coversHost hadded).mpr (hcovers h hadded))

end DigestSystem

section Example

private def toldHost : DigestSystem where
  network := ⟨1, "home", some 24⟩
  inventory :=
    { hosts := ⟨[⟨⟨10, 5, 5, none, none,
        { name := "camera", nameSource := .ip, networkId := 1, hostname := none
          description := none, source := .discovery, virtualizationMetadata := none
          virtualizationServiceId := none, hidden := false, texts := fun _ => none
          updatedAt := 5, lastSeenAt := 5, lastDiscoveryId := none
          firstDiscoveryId := none }⟩, none⟩], by decide⟩
      ipAddresses := ⟨[⟨⟨20, 5, 5, none, none, ⟨1, 10, 2, .v4 7, none, none, 0, 5⟩⟩, none⟩],
        by decide⟩
      services := ⟨[], List.nodup_nil⟩
      interfaces := ⟨[], List.nodup_nil⟩
      ports := ⟨[], List.nodup_nil⟩
      subnets := ⟨[], List.nodup_nil⟩
      vlans := ⟨[], List.nodup_nil⟩ }

private def toldSession : DiscoveryUpdatePayload where
  sessionId := 30
  daemonId := 5
  networkId := 1
  phase := .complete
  discoveryType := .network (some [1])
  startedAt := some 4
  finishedAt := some 6

private def toldIds : ScannedEntityIds := ⟨[10], [1], [], [], [], [], [], []⟩

/-- The digest of the session lists no host. -/
theorem not_reportsHosts_toldHost :
    ¬(toldHost.compute ⟨fun _ => false, fun _ => false, fun _ => false⟩ toldSession toldIds 4
      6).ReportsHosts ((toldHost.addedHosts toldIds 4 6).map (·.id)) := by
  intro h
  exact absurd (h.added 10 (by decide)) (by decide)

end Example
end Scanopy
