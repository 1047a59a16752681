import Scanopy.Lib.Lts
import Scanopy.Discovery.Service

/-! The functions of the discovery service as concurrent calls. A call is a function that has not
returned, with the values it has read so far; its next step is its next lock-guarded section, which
is atomic. The environment chooses the clock, the answers of the storage, the new ids and the
iteration orders. The only guard that is kept from one section to the next is the read guard of
`running_snapshots` in `start_session`; meanwhile the sections that write it wait. -/

namespace Scanopy

inductive Call
  -- start_session
  | startCalled (d : Discovery)
  | startChecked (d : Discovery)
  | startMapped (p : DiscoveryUpdatePayload)
  | startGuarded (p : DiscoveryUpdatePayload) (snapshotBlocked : Bool)
  | startProbed (p : DiscoveryUpdatePayload)
  | startTracked (p : DiscoveryUpdatePayload)
  | startStored (p : DiscoveryUpdatePayload)
  -- update_session
  | updateCalled (update : DiscoveryUpdatePayload)
  | updateReceived (update : DiscoveryUpdatePayload)
  -- cancel_session
  | cancelCalled (sessionId : Uuid)
  | cancelRead (session : DiscoveryUpdatePayload)
  | cancelLooked (session : DiscoveryUpdatePayload)
  -- cleanup_stalled_sessions
  | stallCalled
  | stallFlagging (now : Timestamp) (stalled todo : List DiscoveryUpdatePayload)
  -- try_acquire_network_for_snapshot, release_network_for_snapshot
  | acquireCalled (networkId : Uuid)
  | releaseCalled (networkId : Uuid)
  | releaseDropped (networkId : Uuid)
  -- transition_session_to_starting, and the work request that contains it
  | transitionCalled (sessionId : Uuid)
  | workCalled (daemonId : Uuid) (readyForWork : Bool)
  | workChecked (daemonId : Uuid)
  | workOffered (daemonId : Uuid) (work : DiscoveryUpdatePayload)
  | workServed (daemonId : Uuid)
  -- cleanup_old_sessions, clear_sessions_for_daemon
  | oldCalled (maxAgeHours : ℤ)
  | clearCalled (daemonId : Uuid)

/-- The lock-guarded sections, with the values that their call brings along. -/
inductive Section
  | read
  | mapDiscovery (discoveryId sessionId : Uuid)
  | track (sessionId : Uuid) (now : Timestamp)
  | store (p : DiscoveryUpdatePayload)
  | enqueue (p : DiscoveryUpdatePayload)
  | update (update : DiscoveryUpdatePayload) (now : Timestamp) (db : Storage)
  | cancelQueued (session : DiscoveryUpdatePayload) (now : Timestamp)
  | setCancellation (daemonId sessionId : Uuid)
  | sweep (stalled : List DiscoveryUpdatePayload) (now promotedAt : Timestamp) (db : Storage)
  | acquire (networkId : Uuid)
  | dropSnapshot (networkId : Uuid)
  | promoteAwaiting (networkId : Uuid) (now : Timestamp) (order : List Uuid)
  | transition (sessionId : Uuid) (now : Timestamp)
  | take (sessionId : Uuid) (now : Timestamp)
  | pull (daemonId : Uuid)
  | cleanupOld (maxAgeHours : ℤ) (now : Timestamp) (order : List Uuid)
  | clear (daemonId : Uuid)

def Section.apply (s : DiscoveryService) : Section → DiscoveryService
  | read => s
  | mapDiscovery discoveryId sessionId => s.mapDiscovery discoveryId sessionId
  | track sessionId now => s.touch sessionId now
  | store p => s.storeSession p
  | enqueue p => s.enqueue p.daemonId p.sessionId
  | update u now db => s.updateSession u now db
  | cancelQueued session now => s.cancelQueued session now
  | setCancellation daemonId sessionId => s.setCancellation daemonId sessionId
  | sweep stalled now promotedAt db => s.sweepStalled stalled now promotedAt db
  | acquire networkId => (s.tryAcquireNetworkForSnapshot networkId).2
  | dropSnapshot networkId => s.dropSnapshot networkId
  | promoteAwaiting networkId now order => s.promoteAwaiting networkId now order
  | transition sessionId now => s.transitionSessionToStarting sessionId now
  | take sessionId now => s.transitionSessionToStarting sessionId now
  | pull daemonId => s.pullCancellationForDaemon daemonId
  | cleanupOld maxAgeHours now order => s.cleanupOldSessions maxAgeHours now order
  | clear daemonId => s.clearSessionsForDaemon daemonId

/-- What a run has done so far, beyond the state of the service. -/
structure History where
  /-- Session ids returned by `Uuid::new_v4` or named by an update. -/
  known : Finset Uuid
  /-- Session ids of `start_session` calls that have not stored their session. -/
  unpublished : Finset Uuid
  /-- The entries of the sessions map that `start_session` created, with their discovery. -/
  origin : HashMap Uuid Uuid
  /-- Sessions whose stored phase has been Starting, Started or Scanning. -/
  dispatched : Finset Uuid
  /-- Sessions that have been put in a terminal phase. -/
  ended : Finset Uuid
  /-- Session ids returned as work, newest first. -/
  returned : List Uuid

structure System where
  svc : DiscoveryService
  calls : HashMap ℕ Call
  history : History

/-- What the environment contributes to a section. -/
structure Env where
  now : Timestamp := 0
  db : Storage := {}
  freshId : Uuid := 0
  hydrated : Bool := true
  order : List Uuid := []
  pollsCancellation : Bool := true

inductive Label
  | call (c : ℕ) (k : Call)
  | next (c : ℕ) (e : Env)

def Call.isInitial : Call → Bool
  | startCalled _ | updateCalled _ | cancelCalled _ | stallCalled | acquireCalled _
  | releaseCalled _ | transitionCalled _ | workCalled .. | oldCalled _ | clearCalled _ => true
  | _ => false

def Call.holdsSnapshotGuard : Call → Bool
  | startGuarded .. | startProbed _ | startTracked _ | startStored _ => true
  | _ => false

def System.snapshotGuardFree (s : System) : Bool := !s.calls.any Call.holdsSnapshotGuard

def startPhase (snapshotBlocked daemonIsRunning : Bool) : DiscoveryPhase :=
  if snapshotBlocked then .awaitingSnapshot
  else if !daemonIsRunning then .pending
  else .queued

/-- `update.discovery_id` from the server's own map, when the daemon did not send it. -/
def enrich (s : DiscoveryService) (order : List Uuid) (u : DiscoveryUpdatePayload) :
    DiscoveryUpdatePayload :=
  if u.discoveryId.isNone then
    { u with discoveryId := s.lookupDiscoveryId order u.sessionId }
  else u

def Call.next (s : System) (e : Env) : Call → Option (Section × Option Call)
  | startCalled d =>
    some (.read, if s.svc.hasSessionForDiscovery d.id then none else some (startChecked d))
  | startChecked d =>
    if e.hydrated then
      if e.freshId ∈ s.history.known then none
      else some (.mapDiscovery d.id e.freshId, some (startMapped (d.sessionPayload e.freshId)))
    else some (.read, none)
  | startMapped p =>
    some (.read, some (startGuarded p (decide (p.networkId ∈ s.svc.runningSnapshots))))
  | startGuarded p snapshotBlocked =>
    some (.read, some (startProbed
      (p.withPhase (startPhase snapshotBlocked (s.svc.daemonIsRunningDiscovery p.daemonId)))))
  | startProbed p =>
    some (if p.phase = .pending then .track p.sessionId e.now else .read, some (startTracked p))
  | startTracked p => some (.store p, some (startStored p))
  | startStored p => some (.enqueue p, none)
  | updateCalled u =>
    if s.svc.discoverySessions.Enumerates e.order then
      some (.read, some (updateReceived (enrich s.svc e.order u)))
    else none
  | updateReceived u => some (.update u e.now e.db, none)
  | cancelCalled sessionId => some (.read, (s.svc.sessions.get sessionId).map cancelRead)
  | cancelRead session => some (.read, some (cancelLooked session))
  | cancelLooked session =>
    match session.phase with
    | .queued | .pending | .awaitingSnapshot => some (.cancelQueued session e.now, none)
    | .started | .scanning => some (.setCancellation session.daemonId session.sessionId, none)
    | .starting | .complete | .failed | .cancelled => some (.read, none)
  | stallCalled =>
    if s.svc.sessions.map.Enumerates e.order then
      let stalled := s.svc.stalledSessions e.now e.order
      some (.read, if stalled.isEmpty then none else some (stallFlagging e.now stalled stalled))
    else none
  | stallFlagging now stalled (p :: todo) =>
    some (.setCancellation p.daemonId p.sessionId, some (stallFlagging now stalled todo))
  | stallFlagging now stalled [] => some (.sweep stalled now e.now e.db, none)
  | acquireCalled networkId =>
    if s.snapshotGuardFree then some (.acquire networkId, none) else none
  | releaseCalled networkId =>
    if s.snapshotGuardFree then
      some (.dropSnapshot networkId, some (releaseDropped networkId))
    else none
  | releaseDropped networkId =>
    if s.svc.sessions.map.Enumerates e.order then
      some (.promoteAwaiting networkId e.now e.order, none)
    else none
  | transitionCalled sessionId => some (.transition sessionId e.now, none)
  | workCalled daemonId readyForWork =>
    some (.read, some (if readyForWork && !s.svc.hasActiveSessionForDaemon daemonId then
      workChecked daemonId else workServed daemonId))
  | workChecked daemonId =>
    some (.read, some (match s.svc.getSessionsForDaemon daemonId with
      | work :: _ => workOffered daemonId work
      | [] => workServed daemonId))
  | workOffered daemonId work =>
    some (.take work.sessionId e.now, some (workServed daemonId))
  | workServed daemonId => some (if e.pollsCancellation then .pull daemonId else .read, none)
  | oldCalled maxAgeHours =>
    if s.svc.sessions.map.Enumerates e.order then
      some (.cleanupOld maxAgeHours e.now e.order, none)
    else none
  | clearCalled daemonId => some (.clear daemonId, none)

def Section.ends (s : DiscoveryService) : Section → Finset Uuid
  | update u _ _ => if u.phase.isTerminal && !s.ignoresUpdate u then {u.sessionId} else ∅
  | cancelQueued session _ => {session.sessionId}
  | sweep stalled _ _ _ => (stalled.map (·.sessionId)).toFinset ∩ s.sessions.keys
  | _ => ∅

def DiscoveryService.dispatchedIds (s : DiscoveryService) : Finset Uuid :=
  s.sessions.keys.filter fun id => (s.sessions.get id).any (·.phase.isDispatched)

def History.observe (h : History) (s : DiscoveryService) (sec : Section) : History where
  known := match sec with
    | .mapDiscovery _ sessionId => insert sessionId h.known
    | _ => h.known
  unpublished := match sec with
    | .mapDiscovery _ sessionId => insert sessionId h.unpublished
    | .store p => h.unpublished.erase p.sessionId
    | _ => h.unpublished
  origin :=
    (match sec with
      | .store p => (p.discoveryId.map (h.origin.insert p.sessionId)).getD h.origin
      | _ => h.origin).retain fun id _ => ((sec.apply s).sessions.get id).isSome
  dispatched := h.dispatched ∪ (sec.apply s).dispatchedIds
  ended := h.ended ∪ sec.ends s
  returned := match sec with
    | .take sessionId _ => sessionId :: h.returned
    | _ => h.returned

/-- No update names a session id before the `start_session` call that made it has stored the
session: nothing outside the call knows the id. -/
def Call.admissible (h : History) : Call → Bool
  | updateCalled u => decide (u.sessionId ∉ h.unpublished)
  | _ => true

def System.spawn (s : System) (c : ℕ) (k : Call) : System :=
  { s with
    calls := s.calls.insert c k
    history := { s.history with
      known := match k with
        | .updateCalled u => insert u.sessionId s.history.known
        | _ => s.history.known } }

def System.after (s : System) (c : ℕ) (sec : Section) (k : Option Call) : System where
  svc := sec.apply s.svc
  calls := match k with
    | some k => s.calls.insert c k
    | none => s.calls.remove c
  history := s.history.observe s.svc sec

def System.init : System where
  svc := .new
  calls := .empty
  history := ⟨∅, ∅, .empty, ∅, ∅, []⟩

def System.step (s : System) : Label → Option System
  | .call c k =>
    if !s.calls.contains c && k.isInitial && k.admissible s.history then some (s.spawn c k)
    else none
  | .next c e =>
    (s.calls.get c).bind fun k => (k.next s e).map fun sec => s.after c sec.1 sec.2

def sessionSystem : Lts System Label := ⟨System.init, System.step⟩

def System.Quiescent (s : System) : Prop := ∀ c, s.calls.get c = none

def System.sectionOf (s : System) : Label → Option Section
  | .call _ _ => none
  | .next c e => (s.calls.get c).bind fun k => (k.next s e).map Prod.fst

/-- The states reached when every section satisfies `ok` in the state before it. -/
def ReachedWith (ok : System → Section → Prop) : System → Prop :=
  sessionSystem.ReachableVia fun s l => ∀ sec, s.sectionOf l = some sec → ok s sec

end Scanopy
