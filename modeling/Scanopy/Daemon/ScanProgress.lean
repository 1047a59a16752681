import Mathlib.Data.Rat.Floor
import Scanopy.Daemon.DeepScan
import Scanopy.Daemon.ScanPipeline
import Scanopy.Lib.Checked

/-! The progress of a network scan, in centiseconds of work: `totalCost` grows when a host is found,
`completedCost` with each piece of its deep scan. -/

namespace Scanopy

def progressArpPhase : ℕ := 30

def progressDeepScanPhase : ℕ := 65

def progressGracePhase : ℕ := 5

def fullScanCostCs : ℕ := 9000

def lightScanCostCs : ℕ := 800

def responsivenessCostCs : ℕ := 200

def portScanBatchMin : ℕ := 16

def recoveryThreshold : ℕ := 50

def degradationCooldownMs : ℕ := 500

structure ScanConcurrencyController where
  currentBatchSize : ℕ
  targetBatchSize : ℕ
  degraded : Bool := false
  successStreak : ℕ := 0
  lastDegradationMs : ℕ := 0

namespace ScanConcurrencyController
variable (c : ScanConcurrencyController)

def onFdExhaustion (nowMs : ℕ) : ScanConcurrencyController :=
  if 0 < c.lastDegradationMs ∧ nowMs - c.lastDegradationMs < degradationCooldownMs then
    { c with degraded := true, successStreak := 0 }
  else
    let newSize := max (c.currentBatchSize / 2) portScanBatchMin
    if c.currentBatchSize = newSize ∧ c.currentBatchSize = portScanBatchMin then
      { c with degraded := true }
    else { c with
      currentBatchSize := newSize
      degraded := true
      successStreak := 0
      lastDegradationMs := max nowMs 1 }

def onSuccess : ScanConcurrencyController :=
  if !c.degraded then c
  else
    let streak := c.successStreak + 1
    let newSize := min (c.currentBatchSize * 125 / 100) c.targetBatchSize
    if recoveryThreshold ≤ streak ∧ c.currentBatchSize < newSize then { c with
      currentBatchSize := newSize
      successStreak := 0
      degraded := if c.targetBatchSize ≤ newSize then false else c.degraded }
    else { c with successStreak := streak }

end ScanConcurrencyController

/-- `estimated_seconds` of the integration of a credential type, which an unknown type has not. -/
def estimatedSeconds : CredentialQueryPayloadDiscriminants → Option ℕ
  | .snmp => some 15
  | .dockerProxy | .dockerSocket | .podmanProxy | .podmanSocket => some 5
  | .unifiController => some 10
  | .instantOn => some 15
  | .unknown => none

def integrationCostForIp (credentialMappings : List (CredentialMapping CredentialQueryPayload))
    (ip : IpAddr) : ℕ :=
  (credentialMappings.foldl (fun (acc : List CredentialQueryPayloadDiscriminants × ℕ) m =>
    let credential := m.defaultCredential.or (m.ipOverrides.head?.map (·.credential))
    match credential.map CredentialQueryPayload.discriminant with
    | none => acc
    | some discriminant =>
      let hasCred := m.ipOverrides.any (fun o => o.ip = ip) || m.defaultCredential.isSome
      if !hasCred || acc.1.contains discriminant then acc
      else (discriminant :: acc.1,
        acc.2 + ((estimatedSeconds discriminant).map (· * 100)).getD 0)) ([], 0)).2

structure ScanBudget where
  nonInterfacedIpCount : ℕ
  scan : Scan.NetworkScan
  credentialMappings : List (CredentialMapping CredentialQueryPayload)
  estimatedArpSecs : ℕ
  arpPacketsTotal : ℕ
  deepScanConcurrency : ℕ

namespace ScanBudget
variable (b : ScanBudget)

def scanPortCount : ℕ :=
  if b.scan.isFullScan then 65535 else b.scan.lightScanPorts.length

def batchesPerHost : ℕ :=
  (b.scanPortCount + b.scan.portScanBatchSize - 1) / b.scan.portScanBatchSize

def scanCostCs : ℕ := if b.scan.isFullScan then fullScanCostCs else lightScanCostCs

def costPerBatch : ℕ := if 0 < b.batchesPerHost then b.scanCostCs / b.batchesPerHost else 0

def integrationCost (ip : IpAddr) : ℕ := integrationCostForIp b.credentialMappings ip

def chunkCount (responsivenessPorts : List (BitVec 16)) (effectiveBatchSize : ℕ) : ℕ :=
  ((b.scan.tcpPorts.filter (· ∉ responsivenessPorts)).chunks effectiveBatchSize).length

end ScanBudget

inductive DeepScanPhase
  /-- Before its first step, at the latest until the host is reported early. -/
  | waiting
  | checking (effectiveBatchSize : ℕ)
  | scanning (chunksLeft : ℕ)
  /-- After the integrations were probed. -/
  | finishing
  | returned
  deriving DecidableEq

/-- What a deep scan does next. Wherever it is, it can return, with an error or at its end. -/
inductive DeepScanEvent
  | begin
  | check (responsivePorts : List (BitVec 16))
  | chunk
  | probe
  | leave

/-- What a step adds to the counters of the scan. -/
structure Accrual where
  completedCost : ℕ := 0
  totalCost : ℕ := 0
  hostsDiscovered : ℕ := 0
  hostsScanned : ℕ := 0

/-- A step of `deep_scan_host`. The batch size is that of the controller. -/
def ScanBudget.deepScanStep (b : ScanBudget) (batchSize : ℕ) (host : DiscoveredAddress) :
    DeepScanPhase → DeepScanEvent → Option (DeepScanPhase × Accrual)
  | .waiting, .begin =>
    let effectiveBatchSize := min b.scan.portScanBatchSize batchSize
    match host.mac with
    | some _ => some (.scanning (b.chunkCount [] effectiveBatchSize), {})
    | none => some (.checking effectiveBatchSize, {})
  | .checking _, .check [] => some (.finishing, { completedCost := responsivenessCostCs })
  | .checking effectiveBatchSize, .check (port :: ports) =>
    some (.scanning (b.chunkCount (port :: ports) effectiveBatchSize), {
      completedCost := responsivenessCostCs
      totalCost := b.scanCostCs + b.integrationCost host.ip
      hostsDiscovered := 1 })
  | .scanning (chunksLeft + 1), .chunk =>
    some (.scanning chunksLeft, { completedCost := b.costPerBatch })
  | .scanning 0, .probe => some (.finishing, { completedCost := b.integrationCost host.ip })
  | .returned, .leave => none
  | _, .leave => some (.returned, { hostsScanned := 1 })
  | _, _ => none

/-- A number of floating point as an `u8`: its integral part, with the bounds of the type. -/
def asU8 (q : ℚ) : ℕ := min 255 ⌊q⌋.toNat

def ratio (completed total : ℕ) : ℚ := completed / total

structure ProgressReading where
  graceElapsed : ℚ
  pipelineElapsed : ℚ
  arpPacketsSent : ℕ

structure DeepScanRun where
  host : DiscoveredAddress
  phase : DeepScanPhase

structure ScanProgress where
  controller : ScanConcurrencyController
  deepScanConcurrency : ℕ
  totalCost : ℕ
  completedCost : ℕ := 0
  hostsDiscovered : ℕ := 0
  hostsScanned : ℕ := 0
  /-- How many addresses the subnets without ARP have given. -/
  streamed : ℕ := 0
  channelClosed : Bool := false
  pendingScans : List DeepScanRun := []
  pendingHosts : List DiscoveredAddress := []
  lastProgressReport : ℕ := 0
  reports : List ℕ := [0]
  ended : Bool := false

namespace ScanProgress
variable (b : ScanBudget) (s : ScanProgress)

def hasPending : Bool := !s.pendingScans.isEmpty || !s.pendingHosts.isEmpty

/-- `calculate_progress`, with exact quotients. It fails where an `u8` overflows. -/
def calculateProgress (r : ProgressReading) : Option ℕ :=
  if !s.channelClosed then
    let arpFrac : ℚ :=
      if 0 < b.arpPacketsTotal ∧ 0 < r.arpPacketsSent then
        min (ratio r.arpPacketsSent b.arpPacketsTotal) 1
      else if 0 < b.estimatedArpSecs then min (r.pipelineElapsed / b.estimatedArpSecs) 1
      else 1
    let deepFrac : ℚ :=
      if 0 < s.totalCost then min (ratio s.completedCost s.totalCost) 1
      else if 0 < s.hostsDiscovered then min (ratio s.hostsScanned s.hostsDiscovered) 1
      else 0
    let blended := arpFrac * (progressArpPhase + deepFrac * progressDeepScanPhase)
    some (min (asU8 blended) (progressArpPhase + progressDeepScanPhase - 1))
  else if 0 < s.totalCost ∧ (s.completedCost < s.totalCost ∨ s.hasPending) then
    Checked.add 8 progressArpPhase (asU8 (ratio s.completedCost s.totalCost * progressDeepScanPhase))
  else if s.hasPending ∧ s.totalCost = 0 ∧ 0 < s.hostsDiscovered then
    Checked.add 8 progressArpPhase
      (asU8 (min (ratio s.hostsScanned s.hostsDiscovered) 1 * progressDeepScanPhase))
  else if s.hasPending then some progressArpPhase
  else Checked.add 8 (progressArpPhase + progressDeepScanPhase)
    (asU8 (min (r.graceElapsed / 30) 1 * progressGracePhase))

def spawn (host : DiscoveredAddress) : ScanProgress :=
  { s with pendingScans := s.pendingScans ++ [⟨host, .waiting⟩] }

def receive (host : DiscoveredAddress) : ScanProgress :=
  let s := match host.mac with
    | some _ => { s with
        hostsDiscovered := s.hostsDiscovered + 1
        totalCost := s.totalCost + (b.scanCostCs + b.integrationCost host.ip) }
    | none => { s with streamed := s.streamed + 1 }
  if s.pendingScans.length < s.deepScanConcurrency then s.spawn host
  else { s with pendingHosts := s.pendingHosts ++ [host] }

def close (newConcurrency : Option ℕ) : ScanProgress :=
  { s with
    channelClosed := true
    deepScanConcurrency := match newConcurrency with
      | some new => max new s.deepScanConcurrency
      | none => s.deepScanConcurrency }

/-- The deep scan `scan` takes a step. -/
def advance (scan : ℕ) (event : DeepScanEvent) : Option ScanProgress := do
  let run ← s.pendingScans[scan]?
  let (phase, accrual) ← b.deepScanStep s.controller.currentBatchSize run.host run.phase event
  return { s with
    pendingScans := s.pendingScans.set scan ⟨run.host, phase⟩
    completedCost := s.completedCost + accrual.completedCost
    totalCost := s.totalCost + accrual.totalCost
    hostsDiscovered := s.hostsDiscovered + accrual.hostsDiscovered
    hostsScanned := s.hostsScanned + accrual.hostsScanned }

/-- Takes the deep scan `scan` out, which has returned, and starts the host put aside last. -/
def collect (scan : ℕ) : Option ScanProgress := do
  let run ← s.pendingScans[scan]?
  if run.phase ≠ .returned then none
  else
    let s := { s with pendingScans := s.pendingScans.eraseIdx scan }
    match s.pendingHosts.getLast? with
    | some host => return { s with pendingHosts := s.pendingHosts.dropLast }.spawn host
    | none => return s

/-- The progress that is reported does not go back. It is repeated when a heartbeat is due. -/
def tick (r : ProgressReading) (heartbeat : Bool) : Option ScanProgress := do
  let calculated ← s.calculateProgress b r
  let progress := max calculated s.lastProgressReport
  if progress ≠ s.lastProgressReport ∨ heartbeat then
    return { s with
      lastProgressReport := progress
      reports := s.reports ++ [min progress 99] }
  else return s

def finish (timedOut : Bool) : Option ScanProgress :=
  if timedOut ∨ s.channelClosed ∧ !s.hasPending then
    some { s with reports := s.reports ++ [100], ended := true }
  else none

inductive Event
  | receive (host : DiscoveredAddress)
  | close (newConcurrency : Option ℕ)
  | scan (scan : ℕ) (event : DeepScanEvent)
  | collect (scan : ℕ)
  | fdExhaustion (nowMs : ℕ)
  | success
  | tick (reading : ProgressReading) (heartbeat : Bool)
  | finish (timedOut : Bool)

def step (event : Event) : Option ScanProgress :=
  if s.ended then none
  else match event with
    | .receive host => if s.channelClosed then none else some (s.receive b host)
    | .close newConcurrency => if s.channelClosed then none else some (s.close newConcurrency)
    | .scan scan event => s.advance b scan event
    | .collect scan => s.collect scan
    | .fdExhaustion nowMs => some { s with controller := s.controller.onFdExhaustion nowMs }
    | .success => some { s with controller := s.controller.onSuccess }
    | .tick reading heartbeat => s.tick b reading heartbeat
    | .finish timedOut => s.finish timedOut

end ScanProgress

def ScanBudget.lts (b : ScanBudget) : Lts ScanProgress ScanProgress.Event where
  init :=
    { controller := ⟨b.scan.portScanBatchSize, b.scan.portScanBatchSize, false, 0, 0⟩
      deepScanConcurrency := b.deepScanConcurrency
      totalCost := b.nonInterfacedIpCount * responsivenessCostCs }
  step := ScanProgress.step b

structure ScanProgress.InBudget (b : ScanBudget) (s : ScanProgress) : Prop where
  cost : s.completedCost ≤ s.totalCost
  progress : ∀ r, ∃ percent ≤ 100, s.calculateProgress b r = some percent
  reports : s.reports.Pairwise (· ≤ ·)

end Scanopy
