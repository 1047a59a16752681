import Scanopy.Lib.HashMap
import Scanopy.Discovery.Types

/-! The in-memory state of the discovery service and its lock-guarded sections: what one function,
or one stretch of it under its guards, does to the shared state. -/

namespace Scanopy

/-- The `sessions` map. Every writer stores a payload under the payload's own session id. -/
structure SessionMap where
  map : HashMap Uuid DiscoveryUpdatePayload
  keyed : ∀ id p, map.get id = some p → p.sessionId = id

namespace SessionMap

def empty : SessionMap where
  map := .empty
  keyed _ _ h := by simp at h

def get (m : SessionMap) (id : Uuid) : Option DiscoveryUpdatePayload := m.map.get id

def keys (m : SessionMap) : Finset Uuid := m.map.keys

def put (m : SessionMap) (p : DiscoveryUpdatePayload) : SessionMap where
  map := m.map.insert p.sessionId p
  keyed id q h := by
    rw [HashMap.get_insert] at h
    split_ifs at h with hid
    · cases h
      exact hid.symm
    · exact m.keyed id q h

def remove (m : SessionMap) (id : Uuid) : SessionMap where
  map := m.map.remove id
  keyed id' q h := by
    rw [HashMap.get_remove] at h
    split_ifs at h
    exact m.keyed id' q h

def setPhase (m : SessionMap) (id : Uuid) (phase : DiscoveryPhase) : SessionMap :=
  match m.get id with
  | some p => m.put (p.withPhase phase)
  | none => m

variable {m : SessionMap} {id : Uuid}

theorem get_sessionId {p : DiscoveryUpdatePayload}
    (h : m.get id = some p) : p.sessionId = id := m.keyed id p h

theorem get_put (m : SessionMap) (p : DiscoveryUpdatePayload) (id : Uuid) :
    (m.put p).get id = if id = p.sessionId then some p else m.get id := HashMap.get_insert ..

theorem get_remove (m : SessionMap) (id id' : Uuid) :
    (m.remove id).get id' = if id' = id then none else m.get id' := HashMap.get_remove ..

theorem get_setPhase (m : SessionMap) (id id' : Uuid) (phase : DiscoveryPhase) :
    (m.setPhase id phase).get id' =
      if id' = id then (m.get id').map (·.withPhase phase) else m.get id' := by
  unfold setPhase
  cases h : m.get id with
  | none =>
    split_ifs with hid
    · rw [hid, h]
      rfl
    · rfl
  | some p =>
    rw [get_put, DiscoveryUpdatePayload.withPhase_sessionId, get_sessionId h]
    split_ifs with hid
    · rw [hid, h]
      rfl
    · rfl

theorem mem_keys : id ∈ m.keys ↔ ∃ p, m.get id = some p := HashMap.mem_keys

end SessionMap

structure DiscoveryService where
  sessions : SessionMap
  daemonSessions : HashMap Uuid (List Uuid)
  discoverySessions : HashMap Uuid Uuid
  daemonPullCancellations : HashMap Uuid (Bool × Uuid)
  runningSnapshots : Finset Uuid
  sessionLastUpdated : HashMap Uuid Timestamp
  /-- The historical rows of the discovery table, oldest first. -/
  historical : List HistoricalDiscovery

namespace DiscoveryService

def new : DiscoveryService where
  sessions := .empty
  daemonSessions := .empty
  discoverySessions := .empty
  daemonPullCancellations := .empty
  runningSnapshots := ∅
  sessionLastUpdated := .empty
  historical := []

variable (s : DiscoveryService)

def queue (daemonId : Uuid) : List Uuid := (s.daemonSessions.get daemonId).getD []

/-- `daemon_sessions.entry(daemon_id).or_default().push(session_id)` -/
@[simps]
def enqueue (daemonId sessionId : Uuid) : DiscoveryService :=
  { s with daemonSessions := s.daemonSessions.insert daemonId (s.queue daemonId ++ [sessionId]) }

/-- `queue.retain(|id| *id != session_id)` on the daemon's queue, if there is one. -/
def dequeue (daemonId sessionId : Uuid) : DiscoveryService :=
  match s.daemonSessions.get daemonId with
  | some queue =>
    { s with daemonSessions := s.daemonSessions.insert daemonId (queue.filter (· ≠ sessionId)) }
  | none => s

/-- The session at the front of the daemon's queue once `sessionId` has left it. -/
def nextInQueue (daemonId sessionId : Uuid) : Option Uuid :=
  ((s.queue daemonId).filter (· ≠ sessionId)).head?

def nextSession (daemonId sessionId : Uuid) : Option DiscoveryUpdatePayload :=
  (s.nextInQueue daemonId sessionId).bind s.sessions.get

/-- Make the head of the daemon's queue Pending and start its stall clock, if it is a session
that is `eligible`. -/
def promoteNext (daemonId : Uuid) (now : Timestamp) (eligible : DiscoveryUpdatePayload → Bool) :
    DiscoveryService :=
  match (s.queue daemonId).head?.bind s.sessions.get with
  | some next =>
    if eligible next then
      { s with
        sessions := s.sessions.setPhase next.sessionId .pending
        sessionLastUpdated := s.sessionLastUpdated.insert next.sessionId now }
    else s
  | none => s

def leaveQueue (daemonId sessionId : Uuid) (now : Timestamp)
    (eligible : DiscoveryUpdatePayload → Bool) : DiscoveryService :=
  (s.dequeue daemonId sessionId).promoteNext daemonId now eligible

@[simps]
def removeSession (sessionId : Uuid) : DiscoveryService :=
  { s with sessions := s.sessions.remove sessionId }

/-- `discovery_sessions.retain(|_, sid| *sid != session_id)` -/
@[simps]
def forgetDiscovery (sessionId : Uuid) : DiscoveryService :=
  { s with discoverySessions := s.discoverySessions.retain fun _ sid => decide (sid ≠ sessionId) }

def recordHistorical (session : DiscoveryUpdatePayload) (now : Timestamp)
    (rescanName : Option String) (db : Storage) : DiscoveryService :=
  if db.createOk session.sessionId then
    { s with historical := s.historical ++
        [historicalDiscovery session now rescanName (db.networkName session.networkId)] }
  else s

/-- `lookup_discovery_id`: the first entry, in the map's iteration order, with the session id. -/
def lookupDiscoveryId (order : List Uuid) (sessionId : Uuid) : Option Uuid :=
  order.find? fun d => s.discoverySessions.get d == some sessionId

def getSessionsForDaemon (daemonId : Uuid) : List DiscoveryUpdatePayload :=
  ((s.queue daemonId).filterMap s.sessions.get).filter (·.phase == .pending)

def hasActiveSessionForDaemon (daemonId : Uuid) : Bool :=
  (s.queue daemonId).any fun id =>
    ((s.sessions.get id).map fun p =>
      !p.phase.isTerminal && p.phase != .queued && p.phase != .pending).getD false

@[simps]
def pullCancellationForDaemon (daemonId : Uuid) : DiscoveryService :=
  { s with daemonPullCancellations := s.daemonPullCancellations.remove daemonId }

/-- `discovery_sessions.contains_key(&discovery.id)` -/
def hasSessionForDiscovery (discoveryId : Uuid) : Bool := s.discoverySessions.contains discoveryId

@[simps]
def mapDiscovery (discoveryId sessionId : Uuid) : DiscoveryService :=
  { s with discoverySessions := s.discoverySessions.insert discoveryId sessionId }

def daemonIsRunningDiscovery (daemonId : Uuid) : Bool :=
  match s.daemonSessions.get daemonId with
  | some queue => !queue.isEmpty
  | none => false

@[simps]
def touch (sessionId : Uuid) (now : Timestamp) : DiscoveryService :=
  { s with sessionLastUpdated := s.sessionLastUpdated.insert sessionId now }

@[simps]
def untrack (sessionId : Uuid) : DiscoveryService :=
  { s with sessionLastUpdated := s.sessionLastUpdated.remove sessionId }

@[simps]
def storeSession (p : DiscoveryUpdatePayload) : DiscoveryService :=
  { s with sessions := s.sessions.put p }

def autoCreate (update : DiscoveryUpdatePayload) : DiscoveryService :=
  let s := s.enqueue update.daemonId update.sessionId
  let s := match update.discoveryId with
    | some discoveryId => s.mapDiscovery discoveryId update.sessionId
    | none => s
  s.storeSession update

def rescanName (session : DiscoveryUpdatePayload) (db : Storage) : Option String :=
  if session.discoveryType.rescanTargetHostId.isSome then db.rescanParentName else none

def finishSession (session : DiscoveryUpdatePayload) (now : Timestamp) (db : Storage) :
    DiscoveryService :=
  let s := s.pullCancellationForDaemon session.daemonId
  let s := s.recordHistorical session now (rescanName session db) db
  let s := s.leaveQueue session.daemonId session.sessionId now fun _ => true
  let s := s.removeSession session.sessionId
  s.forgetDiscovery session.sessionId

def applyUpdate (update : DiscoveryUpdatePayload) (now : Timestamp) (db : Storage) :
    DiscoveryService :=
  let s := s.storeSession update
  if update.phase.isTerminal then s.finishSession update now db else s

def ignoresUpdate (update : DiscoveryUpdatePayload) : Bool :=
  (s.sessions.get update.sessionId).isNone && update.phase.isTerminal &&
    s.sessionLastUpdated.contains update.sessionId

/-- The section of `update_session` under the guards of `sessions` and `session_last_updated`. -/
def updateSession (update : DiscoveryUpdatePayload) (now : Timestamp) (db : Storage) :
    DiscoveryService :=
  let ignored := s.ignoresUpdate update
  let vacant := (s.sessions.get update.sessionId).isNone
  let s := s.touch update.sessionId now
  if ignored then s
  else if vacant then (s.autoCreate update).applyUpdate update now db
  else s.applyUpdate update now db

/-- The arm for a session that was read as Queued, Pending or AwaitingSnapshot; `session` is what
was read. -/
def cancelQueued (session : DiscoveryUpdatePayload) (now : Timestamp) : DiscoveryService :=
  let wasPending := decide (session.phase = .pending)
  let s := s.removeSession session.sessionId
  let s := s.leaveQueue session.daemonId session.sessionId now fun _ => wasPending
  s.forgetDiscovery session.sessionId

@[simps]
def setCancellation (daemonId sessionId : Uuid) : DiscoveryService :=
  { s with daemonPullCancellations :=
      s.daemonPullCancellations.insert daemonId (true, sessionId) }

/-- The flag that `pull_cancellation_for_daemon` returns. -/
def pendingCancellation (daemonId : Uuid) : Bool × Uuid :=
  (s.daemonPullCancellations.get daemonId).getD (false, Uuid.nil)

def stallThreshold : Timestamp := minutes 5

def isStalled (now : Timestamp) (p : DiscoveryUpdatePayload) : Bool :=
  p.phase.canBeCleanedUp &&
    match s.sessionLastUpdated.get p.sessionId, p.startedAt with
    | some updatedAt, _ => decide (now - updatedAt > stallThreshold)
    | none, some startedAt => decide (now - startedAt > stallThreshold)
    | none, none => true

/-- First pass. -/
def stalledSessions (now : Timestamp) (order : List Uuid) : List DiscoveryUpdatePayload :=
  (order.filterMap s.sessions.get).filter (s.isStalled now)

def failStalled (session : DiscoveryUpdatePayload) (now : Timestamp) : DiscoveryUpdatePayload :=
  { session with
    phase := .failed
    error := some "Session stalled - no updates received from daemon for more than 5 minutes"
    finishedAt := some now }

def dropCancellation (daemonId sessionId : Uuid) : DiscoveryService :=
  match s.daemonPullCancellations.get daemonId with
  | some flag => if flag.2 = sessionId then s.pullCancellationForDaemon daemonId else s
  | none => s

def sweepSession (now promotedAt : Timestamp) (db : Storage) (stalled : DiscoveryUpdatePayload) :
    DiscoveryService :=
  match s.sessions.get stalled.sessionId with
  | none => s
  | some session =>
    let s := s.removeSession session.sessionId
    let s := s.leaveQueue session.daemonId session.sessionId promotedAt (·.phase == .queued)
    let s := s.forgetDiscovery session.sessionId
    let s := s.untrack session.sessionId
    let s := s.dropCancellation session.daemonId session.sessionId
    if db.daemonExists session.daemonId then
      s.recordHistorical (failStalled session now) now none db
    else s

def sweepSessions (now promotedAt : Timestamp) (db : Storage) :
    List DiscoveryUpdatePayload → DiscoveryService → DiscoveryService
  | [], s => s
  | p :: ps, s => sweepSessions now promotedAt db ps (s.sweepSession now promotedAt db p)

@[simps]
def evictTombstones (now : Timestamp) : DiscoveryService :=
  { s with sessionLastUpdated := s.sessionLastUpdated.retain fun id updatedAt =>
      (s.sessions.get id).isSome || decide (now - updatedAt < stallThreshold) }

/-- Third pass. -/
def sweepStalled (stalled : List DiscoveryUpdatePayload) (now promotedAt : Timestamp)
    (db : Storage) : DiscoveryService :=
  (sweepSessions now promotedAt db stalled s).evictTombstones now

def hasNonTerminalSession (networkId : Uuid) : Bool :=
  s.sessions.map.any fun p => decide (p.networkId = networkId) && !p.phase.isTerminal

def tryAcquireNetworkForSnapshot (networkId : Uuid) : Bool × DiscoveryService :=
  if networkId ∈ s.runningSnapshots then (false, s)
  else if s.hasNonTerminalSession networkId then (false, s)
  else (true, { s with runningSnapshots := insert networkId s.runningSnapshots })

/-- First section of `release_network_for_snapshot`. -/
@[simps]
def dropSnapshot (networkId : Uuid) : DiscoveryService :=
  { s with runningSnapshots := s.runningSnapshots.erase networkId }

def isAwaiting (networkId : Uuid) (p : DiscoveryUpdatePayload) : Bool :=
  decide (p.networkId = networkId) && p.phase == .awaitingSnapshot

def awaitingSessionIds (networkId : Uuid) (order : List Uuid) : List Uuid :=
  ((order.filterMap s.sessions.get).filter (isAwaiting networkId)).map (·.sessionId)

def daemonHasActive (daemonId sessionId : Uuid) : Bool :=
  (s.queue daemonId).any fun id => id != sessionId &&
    ((s.sessions.get id).map fun p =>
      !p.phase.isTerminal && p.phase != .queued && p.phase != .awaitingSnapshot).getD false

def releaseSession (now : Timestamp) (sessionId : Uuid) : DiscoveryService :=
  match s.sessions.get sessionId with
  | none => s
  | some p =>
    if s.daemonHasActive p.daemonId sessionId then
      { s with sessions := s.sessions.setPhase sessionId .queued }
    else
      { s with
        sessions := s.sessions.setPhase sessionId .pending
        sessionLastUpdated := s.sessionLastUpdated.insert sessionId now }

def releaseSessions (now : Timestamp) : List Uuid → DiscoveryService → DiscoveryService
  | [], s => s
  | id :: ids, s => releaseSessions now ids (s.releaseSession now id)

/-- Second section of `release_network_for_snapshot`. -/
def promoteAwaiting (networkId : Uuid) (now : Timestamp) (order : List Uuid) : DiscoveryService :=
  releaseSessions now (s.awaitingSessionIds networkId order) s

/-- Both sections, with nothing in between. -/
def releaseNetworkForSnapshot (networkId : Uuid) (now : Timestamp) (order : List Uuid) :
    DiscoveryService :=
  (s.dropSnapshot networkId).promoteAwaiting networkId now order

def transitionSessionToStarting (sessionId : Uuid) (now : Timestamp) : DiscoveryService :=
  match s.sessions.get sessionId with
  | some p =>
    if p.phase = .pending then
      { s with
        sessions := s.sessions.setPhase sessionId .starting
        sessionLastUpdated := s.sessionLastUpdated.insert sessionId now }
    else s
  | none => s

def oldSessionIds (cutoff : Timestamp) (order : List Uuid) : List Uuid :=
  ((order.filterMap s.sessions.get).filter fun p =>
    p.finishedAt.any fun t => decide (t < cutoff)).map (·.sessionId)

def removeOldSession (sessionId : Uuid) : DiscoveryService :=
  match s.sessions.get sessionId with
  | none => s
  | some session =>
    let s := s.removeSession sessionId
    let s := s.pullCancellationForDaemon session.daemonId
    let s := s.dequeue session.daemonId session.sessionId
    s.forgetDiscovery sessionId

def removeOldSessions : List Uuid → DiscoveryService → DiscoveryService
  | [], s => s
  | id :: ids, s => removeOldSessions ids (s.removeOldSession id)

def cleanupOldSessions (maxAgeHours : ℤ) (now : Timestamp) (order : List Uuid) :
    DiscoveryService :=
  removeOldSessions (s.oldSessionIds (now - hours maxAgeHours) order) s

@[simps]
def clearSession (sessionId : Uuid) : DiscoveryService :=
  { s with
    sessions := s.sessions.remove sessionId
    sessionLastUpdated := s.sessionLastUpdated.remove sessionId
    discoverySessions := s.discoverySessions.retain fun _ sid => decide (sid ≠ sessionId) }

def clearSessions : List Uuid → DiscoveryService → DiscoveryService
  | [], s => s
  | id :: ids, s => clearSessions ids (s.clearSession id)

def clearSessionsForDaemon (daemonId : Uuid) : DiscoveryService :=
  let s := match s.daemonSessions.get daemonId with
    | some ids => clearSessions ids { s with daemonSessions := s.daemonSessions.remove daemonId }
    | none => s
  s.pullCancellationForDaemon daemonId

end DiscoveryService

end Scanopy
