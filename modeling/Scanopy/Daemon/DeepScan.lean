import Mathlib.Data.Prod.Lex
import Mathlib.Data.String.Basic
import Scanopy.Lib.Chunks
import Scanopy.Services.Matching

/-! The deep scan of a host. A host that no ARP answer speaks for is first asked on the discovery
ports; the ports that are found open there are merged into the scan by their numbers. -/

namespace Scanopy

open List

namespace Scan

namespace PortType

def newTcp (number : BitVec 16) : PortType := custom ⟨number, .tcp⟩

def isTcp (p : PortType) : Bool := p.protocol = .tcp

def isHttps : PortType → Bool
  | https | https10443 | https8443 | https9443 => true
  | _ => false

def isRawSocket (p : PortType) : Bool := 9100 ≤ p.number.toNat && p.number.toNat ≤ 9107

end PortType

/-- The definitions of the services. None of them asks for port 0. -/
structure ScanRegistry where
  definitions : List ServiceDefinition
  number_ne_zero : ∀ d ∈ definitions, ∀ p ∈ d.discoveryPattern.ports, p.number ≠ 0

def Endpoint.sortKey (e : Endpoint) : Lex (ℕ × Lex (ℕ × String)) :=
  toLex (match e.protocol with
    | .http => 0
    | .https => 1, toLex (e.portType.number.toNat, e.path))

namespace ScanRegistry
variable (registry : ScanRegistry)

def allDiscoveryPorts : List PortType :=
  PortType.sortDedup (registry.definitions.flatMap (·.discoveryPattern.ports))

def allDiscoveryEndpoints : List Endpoint :=
  ((registry.definitions.flatMap (·.discoveryPattern.endpoints)).insertionSort
    fun a b => a.sortKey ≤ b.sortKey).destutter fun a b => (a == b) = false

def endpointOnlyPorts : List PortType :=
  PortType.sortDedup ((registry.allDiscoveryEndpoints.map (·.portType)).filter fun p =>
    !registry.allDiscoveryPorts.contains p)

def tcpDiscoveryPorts : List (BitVec 16) :=
  (registry.allDiscoveryPorts.filter (·.isTcp)).map (·.number)

end ScanRegistry

end Scan

def CredentialQueryPayload.requiredScanPorts : CredentialQueryPayload → List (BitVec 16)
  | snmp _ => [161, 1161]
  | dockerProxy c | podmanProxy c => [c.port]
  | unifiController c => [c.port]
  | dockerSocket _ | podmanSocket _ | instantOn _ | unknown => []

namespace Scan

structure NetworkScan where
  isFullScan : Bool
  probeRawSocketPorts : Bool
  portScanBatchSize : ℕ
  batchSize_pos : 0 < portScanBatchSize
  lightScanPorts : List (BitVec 16)

/-- `NetworkScan::new`: the ports of a light scan are those of the discovery, of the credentials, and
those that a rescan knows. -/
def NetworkScan.new (registry : ScanRegistry) (isFullScan probeRawSocketPorts : Bool)
    (portScanBatchSize : ℕ) (batchSize_pos : 0 < portScanBatchSize)
    (credentialMappings : List (CredentialMapping CredentialQueryPayload))
    (extraPorts : List (BitVec 16)) : NetworkScan where
  isFullScan := isFullScan
  probeRawSocketPorts := probeRawSocketPorts
  portScanBatchSize := portScanBatchSize
  batchSize_pos := batchSize_pos
  lightScanPorts := (registry.tcpDiscoveryPorts ++
    credentialMappings.flatMap (fun mapping =>
      mapping.defaultCredential.toList.flatMap (·.requiredScanPorts) ++
        mapping.ipOverrides.flatMap (·.credential.requiredScanPorts)) ++ extraPorts).dedup

inductive PeekResult
  | closed | bytes | error | silent
  deriving DecidableEq

inductive ConnectResult
  | connected (peek : PeekResult)
  | refused
  | timedOut
  deriving DecidableEq

structure HttpAnswer where
  status : BitVec 16
  headers : List (String × String)
  body : String

structure HostBehaviour where
  connect : BitVec 16 → ConnectResult
  get : ApplicationProtocol → BitVec 16 → String → Option HttpAnswer
  udpPorts : List PortType
  probedPorts : List PortType → List PortType

section Scanners
variable (host : HostBehaviour)

/-- The open ports, each with whether to try HTTPS first. They are collected in the order in which
they answer, which no caller relies on. -/
def scanTcpPorts (ports : List (BitVec 16)) : List (PortType × Bool) :=
  ports.filterMap fun number => match host.connect number with
    | .connected peek =>
      some (.newTcp number, decide (peek = .closed) || (PortType.newTcp number).isHttps)
    | .refused | .timedOut => none

def scanEndpoints (registry : ScanRegistry) (ip : IpAddr) (filterPorts : Option (List PortType))
    (useHttpsPorts : Option (HashMap (BitVec 16) Bool)) (probeRawSocketPorts : Bool) :
    List EndpointResponse :=
  let allEndpoints := registry.allDiscoveryEndpoints.filter fun e =>
    (probeRawSocketPorts || !e.portType.isRawSocket) && filterPorts.all (·.contains e.portType)
  let endpoints := allEndpoints.foldl (fun unique e =>
    if unique.any fun u => u.portType.number = e.portType.number && u.path = e.path then unique
    else unique ++ [e]) []
  endpoints.filterMap fun e =>
    let useHttps := useHttpsPorts.any fun ports => (ports.get e.portType.number).getD false
    let protocols : List ApplicationProtocol := if useHttps then [.https, .http] else [.http, .https]
    protocols.findSome? fun protocol => (host.get protocol e.portType.number e.path).map fun a =>
      ⟨{ e with ip := some ip }, a.body, a.headers, a.status⟩

end Scanners

/-- What a deep scan hands to `scan_endpoints`, and what it comes out with. -/
structure DeepScanData where
  portsToCheck : List PortType
  useHttpsPorts : HashMap (BitVec 16) Bool
  endpointResponses : List EndpointResponse
  openPorts : List PortType

def pushMissing (openPorts ports : List PortType) : List PortType :=
  ports.foldl (fun openPorts p => if openPorts.contains p then openPorts else openPorts ++ [p])
    openPorts

namespace NetworkScan
variable (registry : ScanRegistry) (scan : NetworkScan) (ip : IpAddr) (host : HostBehaviour)

def tcpPorts : List (BitVec 16) :=
  if scan.isFullScan then (List.range' 1 65535).map (BitVec.ofNat 16) else scan.lightScanPorts

def deepScanPorts (openPorts : List PortType) (useHttpsPorts : HashMap (BitVec 16) Bool) :
    DeepScanData :=
  let openPorts := openPorts ++ host.udpPorts
  let openPorts := openPorts ++ host.probedPorts openPorts
  let portsToCheck := PortType.sortDedup (openPorts ++ registry.endpointOnlyPorts)
  let endpointResponses := scanEndpoints host registry ip (some portsToCheck) (some useHttpsPorts)
    scan.probeRawSocketPorts
  { portsToCheck
    useHttpsPorts
    endpointResponses
    openPorts := PortType.sortDedup
      (pushMissing openPorts (endpointResponses.map (·.endpoint.portType))) }

/-- The deep scan of a host of which the ports `responsivenessPorts` are known to be open. -/
def deepScan (responsivenessPorts : List (BitVec 16)) : DeepScanData :=
  let remainingTcpPorts := scan.tcpPorts.filter (· ∉ responsivenessPorts)
  let allTcpPorts :=
    (remainingTcpPorts.chunks scan.portScanBatchSize).flatMap (scanTcpPorts host)
  let useHttpsPorts := allTcpPorts.foldl (fun m p => m.insert p.1.number p.2) HashMap.empty
  let openPorts := PortType.sortDedup
    (pushMissing (allTcpPorts.map Prod.fst) (responsivenessPorts.map .newTcp))
  deepScanPorts registry scan ip host openPorts useHttpsPorts

/-- `deep_scan_host`. Without a MAC the host has to answer on a discovery port. -/
def deepScanHost (mac : Option MacAddress) : Option DeepScanData :=
  match mac with
  | some _ => some (deepScan registry scan ip host [])
  | none =>
    let responsivePorts := scanTcpPorts host registry.tcpDiscoveryPorts
    if responsivePorts.isEmpty then none
    else some (deepScan registry scan ip host (responsivePorts.map (·.1.number)))

end NetworkScan

structure DeepScanData.Same (d d' : DeepScanData) : Prop where
  portsToCheck : d.portsToCheck = d'.portsToCheck
  useHttps : ∀ number, (d.useHttpsPorts.get number).getD false =
    (d'.useHttpsPorts.get number).getD false
  endpointResponses : d.endpointResponses = d'.endpointResponses
  openPorts : d.openPorts = d'.openPorts

section Ports

variable {ports : List PortType} {p : PortType}

theorem exists_mem_destutter' {a : PortType} (h : p ∈ a :: ports) :
    ∃ q ∈ ports.destutter' (fun a b => a.config ≠ b.config) a, q.config = p.config := by
  induction ports generalizing a with
  | nil => exact ⟨a, mem_destutter' _ _ _, congrArg _ (mem_singleton.mp h).symm⟩
  | cons b ports ih =>
    by_cases hne : a.config ≠ b.config
    · rw [destutter'_cons, if_pos hne]
      rcases mem_cons.mp h with rfl | h
      · exact ⟨p, mem_cons_self, rfl⟩
      · obtain ⟨q, hq, hqp⟩ := ih h
        exact ⟨q, mem_cons_of_mem _ hq, hqp⟩
    · rw [destutter'_cons, if_neg hne]
      rcases mem_cons.mp h with rfl | h
      · exact ih mem_cons_self
      · rcases mem_cons.mp h with rfl | h
        · exact ⟨a, mem_destutter' _ _ _, not_ne_iff.mp hne⟩
        · exact ih (mem_cons_of_mem _ h)

theorem exists_mem_sortDedup (h : p ∈ ports) :
    ∃ q ∈ PortType.sortDedup ports, q.config = p.config := by
  have hsorted : p ∈ ports.insertionSort fun a b => a.sortKey ≤ b.sortKey :=
    (mem_insertionSort _).mpr h
  unfold PortType.sortDedup
  cases hports : ports.insertionSort fun a b => a.sortKey ≤ b.sortKey with
  | nil =>
    rw [hports] at hsorted
    exact absurd hsorted not_mem_nil
  | cons a rest =>
    rw [hports] at hsorted
    rw [destutter_cons']
    exact exists_mem_destutter' hsorted

theorem sortDedup_congr {ports' : List PortType} (hmem : ∀ p, p ∈ ports ↔ p ∈ ports')
    (hnames : ∀ p ∈ ports, ∀ q ∈ ports, p.config = q.config → p = q) :
    PortType.sortDedup ports = PortType.sortDedup ports' := by
  have hsub {l l' : List PortType} (hl : ∀ p ∈ l, p ∈ ports) (hl' : ∀ p ∈ l', p ∈ ports)
      (hll' : ∀ p ∈ l, p ∈ l') (p : PortType) (hp : p ∈ PortType.sortDedup l) :
      p ∈ PortType.sortDedup l' := by
    have hp := mem_of_mem_sortDedup hp
    obtain ⟨q, hq, hqp⟩ := exists_mem_sortDedup (hll' p hp)
    rwa [← hnames q (hl' q (mem_of_mem_sortDedup hq)) p (hl p hp) hqp]
  have hmem' : ∀ p ∈ ports', p ∈ ports := fun p hp => (hmem p).mpr hp
  have : Std.Irrefl fun a b : PortType => a.sortKey < b.sortKey := ⟨fun _ => lt_irrefl _⟩
  have : Std.Antisymm fun a b : PortType => a.sortKey < b.sortKey :=
    ⟨fun _ _ h h' => absurd h' h.asymm⟩
  exact List.Pairwise.eq_of_mem_iff (pairwise_sortDedup ports) (pairwise_sortDedup ports') fun p =>
    ⟨hsub (fun _ => id) hmem' (fun p => (hmem p).mp) p, hsub hmem' (fun _ => id) hmem' p⟩

theorem contains_map_newTcp {numbers : List (BitVec 16)} {number : BitVec 16} :
    (numbers.map PortType.newTcp).contains (.newTcp number) = true ↔ number ∈ numbers := by
  rw [contains_iff_exists_mem_beq]
  constructor
  · rintro ⟨p, hp, hbeq⟩
    obtain ⟨n, hn, rfl⟩ := mem_map.mp hp
    have hconfig : (PortType.newTcp number).config = (PortType.newTcp n).config :=
      of_decide_eq_true hbeq
    rwa [show number = n from congrArg PortConfig.number hconfig]
  · exact fun h => ⟨.newTcp number, mem_map_of_mem h, decide_eq_true rfl⟩

theorem pushMissing_newTcp (numbers more : List (BitVec 16)) :
    ∃ all : List (BitVec 16), pushMissing (numbers.map .newTcp) (more.map .newTcp) = all.map .newTcp ∧
      ∀ number, number ∈ all ↔ number ∈ numbers ∨ number ∈ more := by
  induction more generalizing numbers with
  | nil => exact ⟨numbers, rfl, fun number => (or_iff_left not_mem_nil).symm⟩
  | cons first more ih =>
    by_cases hfirst : first ∈ numbers
    · obtain ⟨all, hall, hmem⟩ := ih numbers
      refine ⟨all, ?_, fun number => ?_⟩
      · rw [← hall]
        unfold pushMissing
        rw [map_cons, foldl_cons, if_pos (contains_map_newTcp.mpr hfirst)]
      · rw [hmem, mem_cons, ← or_assoc, or_comm (b := number = first)]
        exact ⟨fun h => h.imp_left Or.inr, fun h => h.imp_left fun h =>
          h.elim (fun h => h ▸ hfirst) id⟩
    · obtain ⟨all, hall, hmem⟩ := ih (numbers ++ [first])
      refine ⟨all, ?_, fun number => ?_⟩
      · rw [← hall]
        unfold pushMissing
        rw [map_cons, foldl_cons, if_neg (contains_map_newTcp.not.mpr hfirst),
          map_append, map_singleton]
      · rw [hmem, mem_append, mem_singleton, mem_cons, or_assoc]

end Ports

section Scanners
variable {host : HostBehaviour} {ports : List (BitVec 16)} {number : BitVec 16}

theorem mem_scanTcpPorts {p : PortType × Bool} : p ∈ scanTcpPorts host ports ↔
    ∃ number ∈ ports, ∃ peek, host.connect number = .connected peek ∧
      p = (.newTcp number, decide (peek = .closed)) := by
  unfold scanTcpPorts
  rw [mem_filterMap]
  refine exists_congr fun number => and_congr_right fun _ => ?_
  cases host.connect number with
  | connected peek =>
    have hhint : (decide (peek = .closed) || (PortType.newTcp number).isHttps) =
        decide (peek = .closed) := Bool.or_false _
    dsimp only
    rw [hhint]
    constructor
    · exact fun h => ⟨peek, rfl, (Option.some.inj h).symm⟩
    · rintro ⟨peek', hpeek, rfl⟩
      cases hpeek
      rfl
  | refused =>
    refine ⟨(fun h => nomatch h), ?_⟩
    rintro ⟨_, h, -⟩
    nomatch h
  | timedOut =>
    refine ⟨(fun h => nomatch h), ?_⟩
    rintro ⟨_, h, -⟩
    nomatch h

def openNumbers (host : HostBehaviour) (ports : List (BitVec 16)) : List (BitVec 16) :=
  (scanTcpPorts host ports).map (·.1.number)

theorem mem_openNumbers : number ∈ openNumbers host ports ↔
    number ∈ ports ∧ ∃ peek, host.connect number = .connected peek := by
  unfold openNumbers
  rw [mem_map]
  constructor
  · rintro ⟨p, hp, rfl⟩
    obtain ⟨number, hnumber, peek, hpeek, rfl⟩ := mem_scanTcpPorts.mp hp
    exact ⟨hnumber, peek, hpeek⟩
  · rintro ⟨hnumber, peek, hpeek⟩
    exact ⟨_, mem_scanTcpPorts.mpr ⟨number, hnumber, peek, hpeek, rfl⟩, rfl⟩

theorem map_fst_scanTcpPorts : (scanTcpPorts host ports).map Prod.fst =
    (openNumbers host ports).map .newTcp := by
  unfold openNumbers
  rw [map_map]
  refine map_congr_left fun p hp => ?_
  obtain ⟨number, -, peek, -, rfl⟩ := mem_scanTcpPorts.mp hp
  rfl

theorem flatMap_scanTcpPorts {size : ℕ} (hsize : 0 < size) :
    (ports.chunks size).flatMap (scanTcpPorts host) = scanTcpPorts host ports := by
  unfold scanTcpPorts
  rw [flatMap_def, ← filterMap_flatten, flatten_chunks hsize]

theorem getD_useHttps : ((((scanTcpPorts host ports).foldl
    (fun m p => m.insert p.1.number p.2) HashMap.empty).get number).getD false) = true ↔
      number ∈ ports ∧ host.connect number = .connected .closed := by
  rw [HashMap.get_foldl_insert (fun p : PortType × Bool => p.1.number) (·.2),
    HashMap.get_empty, Option.or_none]
  have hvalue : ∀ p ∈ (scanTcpPorts host ports).filter fun p => p.1.number = number,
      number ∈ ports ∧ (p.2 = true ↔ host.connect number = .connected .closed) := by
    intro p hp
    obtain ⟨hp, hnumber⟩ := mem_filter.mp hp
    obtain ⟨number', hmem, peek, hpeek, rfl⟩ := mem_scanTcpPorts.mp hp
    obtain rfl : number' = number := of_decide_eq_true hnumber
    refine ⟨hmem, ?_⟩
    rw [hpeek, ConnectResult.connected.injEq]
    exact decide_eq_true_iff
  constructor
  · intro h
    obtain ⟨p, hp, hp2⟩ := Option.map_eq_some_iff.mp (Option.getD_eq_iff.mp h |>.resolve_right
      fun h => Bool.false_ne_true h.2)
    have hvalue := hvalue p (mem_of_getLast? hp)
    exact ⟨hvalue.1, hvalue.2.mp hp2⟩
  · rintro ⟨hmem, hclosed⟩
    have hentry : ((.newTcp number, true) : PortType × Bool) ∈
        (scanTcpPorts host ports).filter fun p => p.1.number = number :=
      mem_filter.mpr ⟨mem_scanTcpPorts.mpr ⟨number, hmem, .closed, hclosed, rfl⟩,
        decide_eq_true rfl⟩
    have hlast := getLast?_eq_some_getLast (ne_nil_of_mem hentry)
    rw [hlast]
    exact (hvalue _ (mem_of_getLast? hlast)).2.mpr hclosed

theorem scanEndpoints_congr {registry : ScanRegistry} {ip : IpAddr}
    {filterPorts : Option (List PortType)} {useHttpsPorts useHttpsPorts' : HashMap (BitVec 16) Bool}
    {probeRawSocketPorts : Bool}
    (h : ∀ number, (useHttpsPorts.get number).getD false = (useHttpsPorts'.get number).getD false) :
    scanEndpoints host registry ip filterPorts (some useHttpsPorts) probeRawSocketPorts =
      scanEndpoints host registry ip filterPorts (some useHttpsPorts') probeRawSocketPorts := by
  unfold scanEndpoints
  simp only [Option.any_some, h]

end Scanners

namespace NetworkScan
variable {registry : ScanRegistry} {scan : NetworkScan} {ip : IpAddr} {host : HostBehaviour}
  {resp : List (BitVec 16)}

theorem same_deepScanPorts_iff {openPorts : List PortType}
    {useHttpsPorts useHttpsPorts' : HashMap (BitVec 16) Bool} :
    (deepScanPorts registry scan ip host openPorts useHttpsPorts).Same
      (deepScanPorts registry scan ip host openPorts useHttpsPorts') ↔
    ∀ number, (useHttpsPorts.get number).getD false = (useHttpsPorts'.get number).getD false := by
  refine ⟨fun h => h.useHttps, fun h => ?_⟩
  unfold deepScanPorts
  exact ⟨rfl, h, scanEndpoints_congr h, congrArg (fun responses : List EndpointResponse =>
    PortType.sortDedup (pushMissing _ (responses.map (·.endpoint.portType))))
      (scanEndpoints_congr h)⟩

theorem exists_deepScan_eq (registry : ScanRegistry) (scan : NetworkScan) (ip : IpAddr)
    (host : HostBehaviour) (resp : List (BitVec 16)) : ∃ numbers : List (BitVec 16),
    deepScan registry scan ip host resp = deepScanPorts registry scan ip host
      (PortType.sortDedup (numbers.map .newTcp))
      ((scanTcpPorts host (scan.tcpPorts.filter (· ∉ resp))).foldl
        (fun m p => m.insert p.1.number p.2) HashMap.empty) ∧
    ∀ number, number ∈ numbers ↔
      (number ∈ scan.tcpPorts ∧ ∃ peek, host.connect number = .connected peek) ∨ number ∈ resp := by
  obtain ⟨numbers, hnumbers, hmem⟩ :=
    pushMissing_newTcp (openNumbers host (scan.tcpPorts.filter (· ∉ resp))) resp
  refine ⟨numbers, ?_, fun number => ?_⟩
  · unfold deepScan
    dsimp only
    rw [flatMap_scanTcpPorts scan.batchSize_pos, map_fst_scanTcpPorts, hnumbers]
  · rw [hmem, mem_openNumbers, mem_filter, decide_eq_true_iff]
    by_cases hresp : number ∈ resp <;> simp only [hresp, not_true_eq_false, and_false, false_and,
      or_true, not_false_eq_true, and_true, or_false]

theorem same_deepScan_iff (registry : ScanRegistry) (ip : IpAddr) (hresp : ∀ number ∈ resp,
    number ∈ scan.tcpPorts ∧ ∃ peek, host.connect number = .connected peek) :
    (deepScan registry scan ip host []).Same (deepScan registry scan ip host resp) ↔
      ∀ number ∈ resp, host.connect number ≠ .connected .closed := by
  obtain ⟨numbers, hscan, hmem⟩ := exists_deepScan_eq registry scan ip host []
  obtain ⟨numbers', hscan', hmem'⟩ := exists_deepScan_eq registry scan ip host resp
  have hports : PortType.sortDedup (numbers.map .newTcp) =
      PortType.sortDedup (numbers'.map .newTcp) := by
    have hnumbers (number : BitVec 16) : number ∈ numbers ↔ number ∈ numbers' := by
      rw [hmem, hmem', or_iff_left not_mem_nil]
      exact ⟨Or.inl, fun h => h.elim id (hresp number)⟩
    refine sortDedup_congr (fun p => ?_) fun p hp q hq hpq => ?_
    · simp only [mem_map, hnumbers]
    · obtain ⟨m, -, rfl⟩ := mem_map.mp hp
      obtain ⟨n, -, rfl⟩ := mem_map.mp hq
      exact congrArg PortType.custom hpq
  rw [hscan, hscan', hports, same_deepScanPorts_iff]
  refine (forall_congr' fun number =>
    Bool.eq_iff_iff.trans (iff_congr getD_useHttps getD_useHttps)).trans ?_
  simp only [mem_filter, decide_eq_true_iff, not_mem_nil, not_false_eq_true, and_true]
  constructor
  · intro h number hnumber hclosed
    exact ((h number).mp ⟨(hresp number hnumber).1, hclosed⟩).1.2 hnumber
  · exact fun h number => ⟨fun ⟨hmem, hclosed⟩ => ⟨⟨hmem, fun hnumber =>
      h number hnumber hclosed⟩, hclosed⟩, fun ⟨⟨hmem, _⟩, hclosed⟩ => ⟨hmem, hclosed⟩⟩

end NetworkScan

section New
variable {registry : ScanRegistry} {isFullScan probeRawSocketPorts : Bool} {portScanBatchSize : ℕ}
  {batchSize_pos : 0 < portScanBatchSize}
  {credentialMappings : List (CredentialMapping CredentialQueryPayload)}
  {extraPorts : List (BitVec 16)} {ip : IpAddr} {host : HostBehaviour}
variable {number : BitVec 16}

theorem ne_zero_of_mem_tcpDiscoveryPorts
    (h : number ∈ registry.tcpDiscoveryPorts) : number ≠ 0 := by
  obtain ⟨p, hp, rfl⟩ := mem_map.mp h
  obtain ⟨d, hd, hp⟩ := mem_flatMap.mp (mem_of_mem_sortDedup (mem_filter.mp hp).1)
  exact registry.number_ne_zero d hd p hp

theorem mem_tcpPorts_new (h : number ∈ registry.tcpDiscoveryPorts) :
    number ∈ (NetworkScan.new registry isFullScan probeRawSocketPorts portScanBatchSize
      batchSize_pos credentialMappings extraPorts).tcpPorts := by
  unfold NetworkScan.tcpPorts
  cases isFullScan with
  | true =>
    have hpos : 0 < number.toNat := by
      have hne := ne_zero_of_mem_tcpDiscoveryPorts h
      exact Nat.pos_of_ne_zero fun hzero => hne (BitVec.eq_of_toNat_eq hzero)
    have hlt := number.isLt
    exact mem_map.mpr ⟨number.toNat, mem_range'_1.mpr ⟨hpos, by omega⟩,
      (BitVec.ofNat_toNat 16 number).trans (BitVec.setWidth_eq number)⟩
  | false =>
    exact mem_dedup.mpr (mem_append_left _ (mem_append_left _ h))

/-- A deep scan of a host with an open discovery port is the same with and without a MAC exactly if
no discovery port closes a new connection at once: of the ports that the responsiveness check
finds, only the numbers are kept. -/
theorem deepScanHost_same_iff (registry : ScanRegistry) (host : HostBehaviour) (mac : MacAddress)
    (hopen : ∃ number ∈ registry.tcpDiscoveryPorts, ∃ peek, host.connect number = .connected peek) :
    let scan := NetworkScan.new registry isFullScan probeRawSocketPorts portScanBatchSize
      batchSize_pos credentialMappings extraPorts
    (∃ d d', scan.deepScanHost registry ip host (some mac) = some d ∧
      scan.deepScanHost registry ip host none = some d' ∧ d.Same d') ↔
    ∀ number ∈ registry.tcpDiscoveryPorts, host.connect number ≠ .connected .closed := by
  intro scan
  have hmem {number : BitVec 16} := @mem_openNumbers host registry.tcpDiscoveryPorts number
  have hnone : scan.deepScanHost registry ip host none =
      some (scan.deepScan registry ip host (openNumbers host registry.tcpDiscoveryPorts)) := by
    obtain ⟨number, hnumber, peek, hpeek⟩ := hopen
    have hne := ne_nil_of_mem (mem_scanTcpPorts.mpr ⟨number, hnumber, peek, hpeek, rfl⟩)
    unfold NetworkScan.deepScanHost
    dsimp only
    rw [isEmpty_eq_false_iff.mpr hne]
    rfl
  have hresp : ∀ number ∈ openNumbers host registry.tcpDiscoveryPorts,
      number ∈ scan.tcpPorts ∧ ∃ peek, host.connect number = .connected peek :=
    fun number hnumber => ⟨mem_tcpPorts_new (hmem.mp hnumber).1, (hmem.mp hnumber).2⟩
  have hsame := NetworkScan.same_deepScan_iff registry ip hresp
  rw [hnone]
  constructor
  · rintro ⟨d, d', hd, hd', h⟩ number hnumber hclosed
    obtain rfl := Option.some.inj hd
    obtain rfl := Option.some.inj hd'
    exact hsame.mp h number (hmem.mpr ⟨hnumber, .closed, hclosed⟩) hclosed
  · exact fun h => ⟨_, _, rfl, rfl, hsame.mpr fun number hnumber => h number (hmem.mp hnumber).1⟩

end New

section Runs

private def proxmoxRegistry : ScanRegistry :=
  ⟨[⟨"Proxmox VE", false, true,
    .anyOf [.endpoint (.newTcp 8006) "/" "proxmox" none, .port (.newTcp 8006)]⟩], by decide⟩

private def proxmoxHost (peek : PeekResult) : HostBehaviour where
  connect number := if number = 8006 then .connected peek else .refused
  get protocol _ _ := match protocol with
    | .https => some ⟨200, [], "<title>proxmox</title>"⟩
    | .http => none
  udpPorts := []
  probedPorts _ := []

theorem deepScanHost_same_silent :
    (∃ d d', (NetworkScan.new proxmoxRegistry true false 200 (by decide) [] []).deepScanHost
        proxmoxRegistry (.v4 0x0A000005#32) (proxmoxHost .silent) (some 0x0000000A00#48) = some d ∧
      (NetworkScan.new proxmoxRegistry true false 200 (by decide) [] []).deepScanHost
        proxmoxRegistry (.v4 0x0A000005#32) (proxmoxHost .silent) none = some d' ∧ d.Same d') :=
  (deepScanHost_same_iff proxmoxRegistry (proxmoxHost .silent) 0x0000000A00#48
    ⟨8006, by decide, .silent, rfl⟩).mpr fun number hnumber => by
      obtain rfl : number = 8006 := mem_singleton.mp
        ((show proxmoxRegistry.tcpDiscoveryPorts = [8006] by decide) ▸ hnumber)
      decide

/-- A port that expects TLS closes the connection. With a MAC the endpoint is asked over HTTPS first,
without one over HTTP. -/
theorem not_deepScanHost_same :
    ¬∃ d d', (NetworkScan.new proxmoxRegistry false false 200 (by decide) [] []).deepScanHost
        proxmoxRegistry (.v4 0x0A000005#32) (proxmoxHost .closed) (some 0x0000000A00#48) = some d ∧
      (NetworkScan.new proxmoxRegistry false false 200 (by decide) [] []).deepScanHost
        proxmoxRegistry (.v4 0x0A000005#32) (proxmoxHost .closed) none = some d' ∧ d.Same d' := by
  rintro ⟨d, d', hd, hd', h⟩
  obtain rfl := Option.some.inj hd
  obtain rfl := Option.some.inj hd'
  have huse := h.useHttps 8006
  revert huse
  decide

end Runs

end Scan
end Scanopy
