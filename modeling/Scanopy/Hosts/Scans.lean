import Scanopy.Hosts.Discovery
import Scanopy.Hosts.Records
import Scanopy.Vlans.Service

/-! What a daemon submits of one scan: a host with its children, and the VLANs that the host has
reported. All of it is seen at the time of the scan. -/

namespace Scanopy

def RowTable.map {B C : Type} (f : B → C) (t : RowTable B) : RowTable C where
  rows := t.rows.map fun r => ⟨Row.map f r.toRow, r.snapshotId⟩
  nodup := by
    rw [List.map_map]
    exact t.nodup

section Host

/-- The columns that the other stages of a submission read; the credentials come from a table of
their own. -/
def TrackedHostBase.toHostBase (credentialAssignments : List CredentialAssignment)
    (b : TrackedHostBase) : HostBase where
  name := b.name
  networkId := b.networkId
  hostname := b.hostname
  description := b.description
  virtualizationServiceId := b.virtualizationServiceId
  hidden := b.hidden
  credentialAssignments := credentialAssignments

def TrackedHostBase.clampNameSource (b : TrackedHostBase) (ceiling : HostNameSource) :
    TrackedHostBase :=
  if b.nameSource.rank ≤ ceiling.rank then b else { b with nameSource := ceiling }

def TrackedHostBase.stamp (t : Timestamp) (b : TrackedHostBase) : TrackedHostBase :=
  { { b with virtualizationServiceId := none }.clampNameSource .integration with
    lastSeenAt := t, updatedAt := t }

/-- `create_unlocked`, on all columns. -/
def createTrackedHost (env : CreateEnv) (hosts : RowTable TrackedHostBase) (host : TrackedHost) :
    Except CreateError (RowTable TrackedHostBase × TrackedHost) :=
  let host : TrackedHost := if host.id = Uuid.nil then
    ⟨env.newHostId, env.now, env.now, none, none, { host.base with
      updatedAt := env.now, lastSeenAt := env.now, lastDiscoveryId := none
      firstDiscoveryId := none }⟩ else host
  let live := hosts.rows.filter fun h => h.isLive && h.base.networkId = host.base.networkId
  match live.find? (·.id = host.id) with
  | some existing =>
    let merged := (upsertHost existing.toRow host).host
    .ok (hosts.update [merged], merged)
  | none =>
    match hosts.rows.find? (·.id = host.id) with
    | some existing => .error (.networkMismatch existing.base.name host.id
        existing.base.networkId host.base.networkId)
    | none =>
      let host : TrackedHost := { host with
        createdAt := host.base.lastSeenAt, validFrom := host.base.lastSeenAt }
      match hosts.insertMany [⟨host, none⟩] with
      | some hosts => .ok (hosts, host)
      | none => .error .failed

end Host

section Vlans

structure VlanStage where
  vlans : VlanTable
  /-- The ids that the daemon gets back. -/
  ids : List Uuid := []

def VlanWrite.row : VlanWrite → TrackedVlan
  | .none existing => existing
  | .update row => row
  | .insert row => row

def VlanStage.step (newId : ℕ → Uuid) (now : ℕ → Timestamp) (s : VlanStage)
    (report : VlanReport) : Option VlanStage :=
  let w := s.vlans.lookupReport (newId s.ids.length) (now s.ids.length) report
  (s.vlans.writeReport w).map fun vlans => { vlans, ids := s.ids ++ [w.row.id] }

end Vlans

structure ScanStore where
  hosts : RowTable TrackedHostBase
  subnets : RowTable SubnetBase
  ipAddresses : RowTable IPAddressBase
  ports : EntityTable TrackedPortBase
  services : EntityTable TrackedServiceBase
  bindings : EntityTable BindingBase
  interfaces : InterfaceTable
  vlans : VlanTable

def ScanStore.hostStore (s : ScanStore) : HostStore ChildStage where
  hosts := s.hosts.map (TrackedHostBase.toHostBase [])
  subnets := s.subnets
  ipAddresses := s.ipAddresses
  rest := {
    ports := s.ports
    services := s.services
    bindings := s.bindings
    interfaces := s.interfaces }

/-- The rows that a scan has matched or created. -/
structure SeenIds where
  host : Uuid
  subnets : List Uuid
  ipAddresses : List Uuid
  ports : List Uuid
  services : List Uuid
  interfaces : List Uuid
  vlans : List Uuid

structure Scan where
  defs : ServiceDefinitions
  env : CreateEnv
  childEnv : ChildEnv
  limitCtx : Option HostLimitContext
  host : TrackedHost
  submission : HostSubmission
  host_eq : Row.map (TrackedHostBase.toHostBase
    submission.request.host.base.credentialAssignments) host = submission.request.host
  vlans : List VlanReport
  newVlanId : ℕ → Uuid
  vlanNow : ℕ → Timestamp

namespace Scan
variable (c : Scan)

def time : Timestamp := c.childEnv.scanTime

def stamped : HostSubmission := c.submission.stamp c.time

def stampedHost : TrackedHost := Row.map (TrackedHostBase.stamp c.time) c.host

def vlanReports : List VlanReport := c.vlans.map fun r => { r with scanTime := some c.time }

def stages : OtherStages ChildStage := discoveryStages c.defs c.childEnv c.stamped

def createEnv (host : TrackedHost) : CreateEnv :=
  { c.env with
    hostSeenAt := host.base.lastSeenAt
    mergeHost := fun existing _ => host.base.toHostBase existing.credentialAssignments }

def linkInterfaces (hostId : Uuid) (after : HostStore ChildStage) : InterfaceTable :=
  if c.stamped.interfaces.isEmpty then after.rest.interfaces
  else (VlanLinkStore.linkInterfacesToIpAddresses
    ⟨after.hosts, after.subnets, after.ipAddresses, after.rest.interfaces, []⟩ hostId).interfaces

def resolveHost (s : ScanStore) : Except CreateError (RowTable TrackedHostBase × TrackedHost) := do
  let aligned ← alignHost c.limitCtx .upsert c.stamped.request s.hostStore
  createTrackedHost c.env s.hosts { c.stampedHost with id := aligned.id }

/-- The upsert of the VLANs, which the daemon calls first, and `discover_host`. -/
def run (s : ScanStore) : Except CreateError (SeenIds × ScanStore) := do
  let reported ← (c.vlanReports.foldlM (VlanStage.step c.newVlanId c.vlanNow)
    { vlans := s.vlans }).elim (.error .failed) .ok
  let (hosts, host) ← c.resolveHost s
  let p ← prepareHost (c.createEnv host) c.stages c.limitCtx .upsert c.stamped.request s.hostStore
  let (response, after) ← createWithChildren (c.createEnv host) c.stages c.limitCtx .upsert
    c.stamped.request s.hostStore
  pure (
    { host := response.id
      subnets := p.context.createdSubnetIds
      ipAddresses := response.ipAddresses.map (·.id)
      ports := response.ports.map (·.id)
      -- the services that own a subnet are created before the others, and are not in the response
      services := response.services.map (·.id) ++
        (after.rest.services.rows.map (·.id)).filter fun id => s.services.rows.all (·.id ≠ id)
      interfaces := response.interfaces.map (·.id)
      vlans := reported.ids },
    { hosts
      subnets := after.subnets
      ipAddresses := after.ipAddresses
      ports := after.rest.ports
      services := after.rest.services
      bindings := after.rest.bindings
      interfaces := c.linkInterfaces response.id after
      vlans := reported.vlans })

end Scan

structure SeenIds.All (ids : SeenIds) (s : ScanStore)
    (P : ∀ (B : Type) [Sighted B], B → Prop) : Prop where
  host : ∀ r ∈ s.hosts, r.isLive = true → r.id = ids.host → P _ r.base
  subnets : ∀ r ∈ s.subnets, r.isLive = true → r.id ∈ ids.subnets → P _ r.base
  ipAddresses : ∀ r ∈ s.ipAddresses, r.isLive = true → r.id ∈ ids.ipAddresses → P _ r.base
  ports : ∀ r ∈ s.ports, r.isLive = true → r.id ∈ ids.ports → P _ r.base
  services : ∀ r ∈ s.services, r.isLive = true → r.id ∈ ids.services → P _ r.base
  interfaces : ∀ r ∈ s.interfaces, r.isLive = true → r.id ∈ ids.interfaces → P _ r.base
  vlans : ∀ r ∈ s.vlans, r.isLive = true → r.id ∈ ids.vlans → P _ r.base

theorem SeenIds.All.imp {ids : SeenIds} {s : ScanStore} {P Q : ∀ (B : Type) [Sighted B], B → Prop}
    (h : ids.All s P) (himp : ∀ (B : Type) [Sighted B] (b : B), P B b → Q B b) : ids.All s Q where
  host r hr hlive hid := himp _ _ (h.host r hr hlive hid)
  subnets r hr hlive hid := himp _ _ (h.subnets r hr hlive hid)
  ipAddresses r hr hlive hid := himp _ _ (h.ipAddresses r hr hlive hid)
  ports r hr hlive hid := himp _ _ (h.ports r hr hlive hid)
  services r hr hlive hid := himp _ _ (h.services r hr hlive hid)
  interfaces r hr hlive hid := himp _ _ (h.interfaces r hr hlive hid)
  vlans r hr hlive hid := himp _ _ (h.vlans r hr hlive hid)

end Scanopy
