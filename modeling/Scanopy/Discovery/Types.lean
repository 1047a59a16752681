import Mathlib.Data.BitVec

/-! The data of a discovery session: phases, the payload that the server and its daemons exchange,
the discovery configuration a session is started from, and the historical row it leaves. -/

namespace Scanopy

def Uuid : Type := BitVec 128

instance : DecidableEq Uuid := inferInstanceAs (DecidableEq (BitVec 128))
instance (n : ℕ) : OfNat Uuid n := ⟨BitVec.ofNat 128 n⟩

def Uuid.nil : Uuid := 0

/-- Points in time (`DateTime<Utc>`) and durations, in nanoseconds. -/
abbrev Timestamp := ℤ

def minutes (m : ℤ) : Timestamp := m * 60 * 1000000000

def hours (h : ℤ) : Timestamp := minutes (h * 60)

inductive DiscoveryPhase
  | awaitingSnapshot
  | queued
  | pending
  | starting
  | started
  | scanning
  | complete
  | failed
  | cancelled
  deriving DecidableEq

namespace DiscoveryPhase

def isTerminal : DiscoveryPhase → Bool
  | complete | cancelled | failed => true
  | _ => false

/-- The phases subject to stall cleanup: eligible for dispatch, or dispatched. -/
def canBeCleanedUp : DiscoveryPhase → Bool
  | pending | starting | started | scanning => true
  | _ => false

/-- The phases of a session that has been handed to its daemon and has not ended. -/
def isDispatched : DiscoveryPhase → Bool
  | starting | started | scanning => true
  | _ => false

def isWaiting : DiscoveryPhase → Bool
  | awaitingSnapshot | queued | pending => true
  | _ => false

variable {ph : DiscoveryPhase}

theorem canBeCleanedUp_iff_not_waiting : ph.canBeCleanedUp = true ↔
    ph.isTerminal = false ∧ ph ≠ queued ∧ ph ≠ awaitingSnapshot := by
  cases ph <;> decide

theorem isTerminal_eq_false_of_canBeCleanedUp
    (h : ph.canBeCleanedUp = true) : ph.isTerminal = false := by
  cases ph <;> simp_all [isTerminal, canBeCleanedUp]

theorem isWaiting_eq_false_of_isDispatched
    (h : ph.isDispatched = true) : ph.isWaiting = false := by
  cases ph <;> simp_all [isDispatched, isWaiting]

theorem isTerminal_eq_false_of_isWaiting
    (h : ph.isWaiting = true) : ph.isTerminal = false := by
  cases ph <;> simp_all [isTerminal, isWaiting]

end DiscoveryPhase

structure ScanSettings where
  fullScanInterval : Option ℕ := none
  isFullScan : Bool := false
  deriving DecidableEq

def ScanSettings.defaultFullScanInterval : ℕ := 3

inductive DiscoveryType
  | selfReport (hostId : Uuid)
  | network (subnetIds : Option (List Uuid))
  | docker (hostId : Uuid)
  | rescan (hostId targetHostId : Uuid)
  | unified (hostId : Uuid) (subnetIds : Option (List Uuid)) (scanSettings : ScanSettings)
  deriving DecidableEq

namespace DiscoveryType

/-- The host a one-shot rescan is verifying; `none` for every other type. -/
def rescanTargetHostId : DiscoveryType → Option Uuid
  | rescan _ targetHostId => some targetHostId
  | selfReport _ | network _ | docker _ | unified .. => none

def display : DiscoveryType → String
  | selfReport _ => "Self Report"
  | network _ => "Network Discovery"
  | docker _ => "Docker Discovery"
  | rescan .. => "Rescan"
  | unified .. => "Unified Discovery"

end DiscoveryType

structure DiscoveryUpdatePayload where
  sessionId : Uuid
  daemonId : Uuid
  networkId : Uuid
  phase : DiscoveryPhase
  discoveryType : DiscoveryType
  progress : UInt8 := 0
  error : Option String := none
  warnings : List String := []
  startedAt : Option Timestamp := none
  finishedAt : Option Timestamp := none
  hostsDiscovered : Option UInt32 := none
  estimatedRemainingSecs : Option UInt32 := none
  discoveryId : Option Uuid := none
  deriving DecidableEq

def DiscoveryUpdatePayload.new (sessionId daemonId networkId : Uuid)
    (discoveryType : DiscoveryType) (discoveryId : Option Uuid) : DiscoveryUpdatePayload where
  sessionId := sessionId
  daemonId := daemonId
  networkId := networkId
  phase := .queued
  discoveryType := discoveryType
  discoveryId := discoveryId

@[simps]
def DiscoveryUpdatePayload.withPhase (p : DiscoveryUpdatePayload) (phase : DiscoveryPhase) :
    DiscoveryUpdatePayload := { p with phase := phase }

/-- A discovery configuration row, as far as `startSession` reads it. -/
structure Discovery where
  id : Uuid
  daemonId : Uuid
  networkId : Uuid
  discoveryType : DiscoveryType
  scanCount : ℕ := 0
  forceFullScan : Bool := false
  deriving DecidableEq

namespace Discovery

def isFullScan (d : Discovery) (settings : ScanSettings) : Bool :=
  let interval := settings.fullScanInterval.getD ScanSettings.defaultFullScanInterval
  d.forceFullScan || (interval != 0 && (interval == 1 || d.scanCount == 1
    || (decide (1 < d.scanCount) && d.scanCount % interval == 0)))

/-- The payload of the session that `startSession` creates, before its phase is decided. -/
def sessionPayload (d : Discovery) (sessionId : Uuid) : DiscoveryUpdatePayload :=
  .new sessionId d.daemonId d.networkId
    (match d.discoveryType with
      | .unified hostId subnetIds settings =>
        .unified hostId subnetIds { settings with isFullScan := d.isFullScan settings }
      | t => t)
    (some d.id)

end Discovery

/-- The historical row written for a finished session (`RunType::Historical`). -/
structure HistoricalDiscovery where
  createdAt : Timestamp
  updatedAt : Timestamp
  daemonId : Uuid
  networkId : Uuid
  name : String
  discoveryType : DiscoveryType
  results : DiscoveryUpdatePayload
  deriving DecidableEq

/-- What the storage answers while a session is finished: names, whether the daemon row still
exists, and whether the insert of the historical row succeeds. -/
structure Storage where
  networkName : Uuid → Option String := fun _ => none
  rescanParentName : Option String := none
  daemonExists : Uuid → Bool := fun _ => true
  createOk : Uuid → Bool := fun _ => true

def historicalName (session : DiscoveryUpdatePayload) (rescanName networkName : Option String) :
    String :=
  match rescanName, session.discoveryType with
  | some name, _ => name
  | none, .unified .. => "Discovery"
  | none, t => t.display ++ " — " ++ networkName.getD "Unknown Network"

/-- The row for `session`, which ended at `now`. -/
def historicalDiscovery (session : DiscoveryUpdatePayload) (now : Timestamp)
    (rescanName networkName : Option String) : HistoricalDiscovery where
  createdAt := session.startedAt.getD now
  updatedAt := now
  daemonId := session.daemonId
  networkId := session.networkId
  name := historicalName session rescanName networkName
  discoveryType := session.discoveryType
  results := session

end Scanopy
