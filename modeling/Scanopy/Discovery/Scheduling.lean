import Scanopy.Lib.HashMap
import Scanopy.Lib.Lts
import Scanopy.Shared.Net
import Scanopy.Discovery.Types

/-! The `discovery` table and the cron scheduler beside it. A job closes over a copy of the row it
was scheduled from, and `job_ids` remembers the job of each discovery. An operation that is refused
leaves the state as it is. -/

namespace Scanopy

inductive RunType
  | scheduled (cronSchedule : String) (lastRun : Option Timestamp) (enabled : Bool)
      (timezone : Option String)
  | historical (results : DiscoveryUpdatePayload)
  | adHoc (lastRun : Option Timestamp)
  deriving DecidableEq

/-- The parts of a `scheduled` run that drive the cron scheduler. -/
structure ScheduleParts where
  cronSchedule : String
  enabled : Bool
  timezone : Option String
  deriving DecidableEq

namespace RunType

def setLastRun (t : Timestamp) : RunType → RunType
  | scheduled cron _ enabled timezone => scheduled cron (some t) enabled timezone
  | adHoc _ => adHoc (some t)
  | historical results => historical results

def schedule : RunType → Option ScheduleParts
  | scheduled cron _ enabled timezone => some ⟨cron, enabled, timezone⟩
  | historical _ | adHoc _ => none

def isScheduledEnabled (r : RunType) : Bool := r.schedule.any (·.enabled)

def isServerManaged : RunType → Bool
  | historical _ => true
  | scheduled .. | adHoc _ => false

def disable : RunType → RunType
  | scheduled cron lastRun _ timezone => scheduled cron lastRun false timezone
  | r => r

end RunType

def DiscoveryType.isLegacy : DiscoveryType → Bool
  | selfReport _ | network _ | docker _ => true
  | rescan .. | unified .. => false

inductive IntegrationTarget
  | daemonHost (credentialId : Uuid)
  | network (credentialId : Uuid)
  | hosts (credentialId : Uuid) (ips : List IpAddr)
  deriving DecidableEq

structure DiscoveryRow extends Discovery where
  createdAt : Timestamp
  updatedAt : Timestamp
  name : String
  runType : RunType
  integrationTargets : List IntegrationTarget := []
  deriving DecidableEq

namespace DiscoveryRow

/-- A fresh row from the user-supplied part of `d`. -/
def new (d : DiscoveryRow) (id : Uuid) (now : Timestamp) : DiscoveryRow :=
  { d with
    id := id, createdAt := now, updatedAt := now
    scanCount := 0, forceFullScan := false, integrationTargets := [] }

def disable (d : DiscoveryRow) : DiscoveryRow := { d with runType := d.runType.disable }

def stamped (d : DiscoveryRow) (lastRun updatedAt : Timestamp) : DiscoveryRow :=
  { d with runType := d.runType.setLastRun lastRun, updatedAt := updatedAt }

def networkScopeCredentialIds (d : DiscoveryRow) : List Uuid :=
  d.integrationTargets.filterMap fun
    | .network credentialId => some credentialId
    | .daemonHost _ | .hosts .. => none

/-- `scan_count` is a `u32`. -/
def applySuccessfulScan (d : DiscoveryRow) : DiscoveryRow :=
  { d with
    scanCount := (d.scanCount + 1) % 2 ^ 32, forceFullScan := false, integrationTargets := [] }

end DiscoveryRow

/-- A cron job, with the copy of the row that it passes to `startSession` when it fires. -/
structure Job where
  cronSchedule : String
  timezone : String
  discovery : DiscoveryRow
  deriving DecidableEq

structure Scheduling where
  rows : HashMap Uuid DiscoveryRow := .empty
  jobs : HashMap Uuid Job := .empty
  jobIds : HashMap Uuid Uuid := .empty
  discoverySessions : HashMap Uuid Uuid := .empty

inductive ScheduleError
  | notScheduled
  | notEnabled
  | addFailed

/-- What the surroundings answer while a session starts: its id, the two readings of the clock,
whether the SNMP credentials of a legacy network discovery resolve, and whether the event of the
new session is published. -/
structure StartEnv where
  sessionId : Uuid
  lastRun : Timestamp
  updatedAt : Timestamp
  hydrateOk : Bool := true
  publishOk : Bool := true

/-- What the surroundings answer when a job fires: whether the plan of the organization and the
state of the daemon let it run, and the clock after the session has started. -/
structure FireEnv where
  allowed : Bool
  start : StartEnv
  lastRun : Timestamp

structure FinalizeEnv where
  promotable : Uuid → Bool
  mergeOk : Bool
  now : Timestamp

/-- The zone a job runs in; a name that does not parse falls back to UTC. -/
def timezoneOf (known : String → Bool) (timezone : Option String) : String :=
  let tz := timezone.getD "UTC"
  if known tz then tz else "UTC"

def validateTimezone (known : String → Bool) (runType : RunType) : Bool :=
  (runType.schedule.bind (·.timezone)).all known

namespace Scheduling
variable (known : String → Bool) (s : Scheduling)

/-- `UPDATE discovery SET … WHERE id = …`: every column of the row, if there is one. -/
def storageUpdate (d : DiscoveryRow) : Scheduling :=
  { s with rows := s.rows.replace d.id d }

/-- `add` is the scheduler's answer: the id of the new job, or `none` if it was not added. -/
def scheduleDiscovery (d : DiscoveryRow) (add : Option Uuid) : Except ScheduleError Scheduling :=
  match d.runType.schedule with
  | none => .error .notScheduled
  | some schedule =>
    if schedule.enabled then
      match add with
      | none => .error .addFailed
      | some jobId =>
        .ok { s with
          jobs := s.jobs.insert jobId
            ⟨schedule.cronSchedule, timezoneOf known schedule.timezone, d⟩
          jobIds := s.jobIds.insert d.id jobId }
    else .error .notEnabled

def removeScheduledJob (id : Uuid) (removeOk : Bool) : Scheduling :=
  match s.jobIds.get id with
  | none => s
  | some jobId =>
    { s with
      jobIds := s.jobIds.remove id
      jobs := if removeOk then s.jobs.remove jobId else s.jobs }

def scheduleOrDisable (d : DiscoveryRow) (add : Option Uuid) : Scheduling :=
  match s.scheduleDiscovery known d add with
  | .ok s' => s'
  | .error _ => s.storageUpdate d.disable

def createDiscovery (d : DiscoveryRow) (newId : Uuid) (now : Timestamp) (add : Option Uuid) :
    Scheduling :=
  let created := if d.id = Uuid.nil then d.new newId now else d
  if !validateTimezone known d.runType then s
  else if s.rows.contains created.id then s
  else
    let s' := { s with rows := s.rows.insert created.id created }
    if created.runType.schedule.isSome then s'.scheduleOrDisable known created add else s'

def createRefused (d : DiscoveryRow) : Bool :=
  d.runType.isServerManaged || d.discoveryType.rescanTargetHostId.isSome ||
    d.discoveryType.isLegacy

/-- The create handler, which goes through the generic `create_base`. -/
def createHandler (d : DiscoveryRow) (newId : Uuid) (now : Timestamp) : Scheduling :=
  let created := if d.id = Uuid.nil then d.new newId now else d
  if createRefused d || s.rows.contains created.id then s
  else { s with rows := s.rows.insert created.id created }

def needsReschedule (new current : RunType) : Bool :=
  match new.schedule, current.schedule with
  | some new, some cur =>
    cur.cronSchedule != new.cronSchedule || cur.timezone != new.timezone ||
      cur.enabled != new.enabled
  | _, _ => false

def reschedule (entity : DiscoveryRow) (removeOk : Bool) (add : Option Uuid) : Scheduling :=
  let s' := (s.removeScheduledJob entity.id removeOk).storageUpdate entity
  match s'.scheduleDiscovery known entity add with
  | .ok s'' => s''
  | .error _ => if entity.runType.isScheduledEnabled then s'.storageUpdate entity.disable else s'

/-- `CrudService<Discovery>::update`. -/
def update (entity : DiscoveryRow) (removeOk : Bool) (add : Option Uuid) : Scheduling :=
  if !validateTimezone known entity.runType then s
  else
    match s.rows.get entity.id with
    | none => s
    | some current =>
      let entity := { entity with scanCount := current.scanCount }
      if needsReschedule entity.runType current.runType then s.reschedule known entity removeOk add
      else s.storageUpdate entity

def updateRefused (entity existing : DiscoveryRow) : Bool :=
  entity.runType.isServerManaged || entity.discoveryType.rescanTargetHostId.isSome ||
    (existing.discoveryType.isLegacy &&
      existing.discoveryType.ctorIdx != entity.discoveryType.ctorIdx)

/-- The update handler: what cannot be changed over the API is taken from the stored row. -/
def updateHandler (id : Uuid) (entity : DiscoveryRow) (removeOk : Bool) (add : Option Uuid) :
    Scheduling :=
  match s.rows.get id with
  | none => s
  | some existing =>
    if updateRefused entity existing then s
    else
      s.update known
        { entity with
          id := existing.id, createdAt := existing.createdAt, scanCount := existing.scanCount }
        removeOk add

/-- The delete handler, which goes through the generic `delete`. -/
def deleteHandler (id : Uuid) : Scheduling :=
  if s.discoverySessions.contains id then s else { s with rows := s.rows.remove id }

def deleteDiscovery (id : Uuid) (removeOk : Bool) : Scheduling :=
  match s.rows.get id with
  | none => s
  | some d =>
    let s' := if d.runType.schedule.isSome then s.removeScheduledJob id removeOk else s
    { s' with rows := s'.rows.remove id }

/-- The rows that `new_for_scheduled_discoveries` selects. -/
def scheduledDiscoveries : HashMap Uuid DiscoveryRow :=
  s.rows.retain fun _ d => d.runType.isScheduledEnabled

/-- A restarted server: what was held in memory is gone, and the scheduled discoveries are read
and scheduled in the order of `visits`, each with the answer of the scheduler. -/
def startScheduler (visits : List (Uuid × Option Uuid)) : Scheduling :=
  visits.foldl
    (fun s' visit =>
      match s.rows.get visit.1 with
      | none => s'
      | some d => s'.scheduleOrDisable known d visit.2)
    { rows := s.rows }

/-- `start_session`, and whether it returned a session. The whole row it was given is stored. -/
def startSession (d : DiscoveryRow) (env : StartEnv) : Scheduling × Bool :=
  if s.discoverySessions.contains d.id then (s, false)
  else
    let s' := s.storageUpdate (d.stamped env.lastRun env.updatedAt)
    match d.discoveryType, env.hydrateOk with
    | .network _, false => (s', false)
    | _, _ =>
      ({ s' with discoverySessions := s'.discoverySessions.insert d.id env.sessionId },
        env.publishOk)

/-- The discovery that a firing of `jobId` passes to `startSession`, if it gets that far. -/
def passed (jobId : Uuid) (env : FireEnv) : Option DiscoveryRow :=
  match s.jobs.get jobId with
  | none => none
  | some job =>
    match s.rows.get job.discovery.id with
    | none => none
    | some fresh =>
      if fresh.runType.isScheduledEnabled && env.allowed then some job.discovery else none

def fire (jobId : Uuid) (env : FireEnv) : Scheduling :=
  match s.passed jobId env with
  | none => s
  | some d =>
    let (s', started) := s.startSession d env.start
    if started then
      match s'.rows.get d.id with
      | none => s'
      | some fresh =>
        s'.storageUpdate { fresh with runType := fresh.runType.setLastRun env.lastRun }
    else s'

def startHandler (id : Uuid) (env : StartEnv) : Scheduling :=
  match s.rows.get id with
  | none => s
  | some d => (s.startSession d env).1

def finalizeSuccessfulScan (id : Uuid) (env : FinalizeEnv) : Scheduling :=
  match s.rows.get id with
  | none => s
  | some parent =>
    let promotable := parent.networkScopeCredentialIds.filter env.promotable
    let migrationFailed := !promotable.isEmpty && !env.mergeOk
    let scanned := parent.applySuccessfulScan
    let scanned :=
      if migrationFailed then { scanned with integrationTargets := promotable.map .network }
      else scanned
    s.storageUpdate { scanned with updatedAt := env.now }

end Scheduling

inductive SchedulingOp
  | createHandler (d : DiscoveryRow) (newId : Uuid) (now : Timestamp)
  | createDiscovery (d : DiscoveryRow) (newId : Uuid) (now : Timestamp) (add : Option Uuid)
  | update (id : Uuid) (entity : DiscoveryRow) (removeOk : Bool) (add : Option Uuid)
  | deleteHandler (id : Uuid)
  | deleteDiscovery (id : Uuid) (removeOk : Bool)
  | restart (visits : List (Uuid × Option Uuid))
  | fire (jobId : Uuid) (env : FireEnv)
  | start (id : Uuid) (env : StartEnv)
  | finalize (id : Uuid) (env : FinalizeEnv)
  | sessionEnded (id : Uuid)

namespace SchedulingOp

def possible (s : Scheduling) : SchedulingOp → Bool
  | createDiscovery _ _ _ add | update _ _ _ add => add.all fun jobId => !s.jobs.contains jobId
  | restart visits =>
    decide ((visits.filterMap (·.2)).Nodup) &&
      decide (s.scheduledDiscoveries.Enumerates (visits.map (·.1)))
  | _ => true

def apply (known : String → Bool) (s : Scheduling) : SchedulingOp → Scheduling
  | createHandler d newId now => s.createHandler d newId now
  | createDiscovery d newId now add => s.createDiscovery known d newId now add
  | update id entity removeOk add => s.updateHandler known id entity removeOk add
  | deleteHandler id => s.deleteHandler id
  | deleteDiscovery id removeOk => s.deleteDiscovery id removeOk
  | restart visits => s.startScheduler known visits
  | fire jobId env => s.fire jobId env
  | start id env => s.startHandler id env
  | finalize id env => s.finalizeSuccessfulScan id env
  | sessionEnded id => { s with discoverySessions := s.discoverySessions.remove id }

end SchedulingOp

/-- Every order of the operations; `known` tells which names of timezones parse. -/
def scheduling (known : String → Bool) : Lts Scheduling SchedulingOp where
  init := {}
  step s op := if op.possible s then some (op.apply known s) else none

end Scanopy
