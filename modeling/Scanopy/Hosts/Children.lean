import Scanopy.Hosts.Create
import Scanopy.Interfaces.Service
import Scanopy.Services.Requests
import Scanopy.Shared.Freshness

/-! The ports, the services and the interfaces of a submitted host. Ports and addresses are matched
or inserted, then the services are moved over to them, and interfaces that a complete report lacks
are deleted. -/

namespace Scanopy

def Row.map {B C : Type} (f : B → C) (r : Row B) : Row C :=
  ⟨r.id, r.createdAt, r.validFrom, r.validTo, r.lineageId, f r.base⟩

def EntityTable.map {B C : Type} (f : B → C) (t : EntityTable B) : EntityTable C where
  rows := t.rows.map (Row.map f)
  nodup := by
    rw [List.map_map]
    exact t.nodup

def RowTable.entities {B : Type} (t : RowTable B) : EntityTable B where
  rows := t.rows.map (·.toRow)
  nodup := by
    rw [List.map_map]
    exact t.nodup

structure TrackedPortBase extends PortBase where
  lastSeenAt : Timestamp := 0
  deriving DecidableEq

abbrev TrackedPort := Row TrackedPortBase

instance : Sighted TrackedPortBase where
  lastSeenAt := (·.lastSeenAt)

instance : Sighted SnmpInterfaceBase where
  lastSeenAt := (·.lastSeenAt)

structure HostSubmission where
  request : DiscoveryHostRequest
  ports : List TrackedPort
  services : List TrackedService
  interfaces : List SnmpInterface
  ports_eq : ports.map (Row.map (·.toPortBase)) = request.ports
  services_eq : services.map (Row.map (·.toServiceBase)) = request.services
  interfaces_eq : interfaces.map (Row.map (·.toInterfaceBase)) = request.interfaces

theorem HostSubmission.no_services :
    ([] : List TrackedService).map (Row.map (·.toServiceBase)) = [] := rfl

structure ChildEnv where
  now : Timestamp
  scanTime : Timestamp
  newPortId : ℕ → Uuid
  newServiceId : ℕ → Uuid
  newBindingId : ℕ → ℕ → Uuid
  newInterfaceId : ℕ → Uuid

section Ports

structure PortStage where
  rows : EntityTable TrackedPortBase
  created : List TrackedPort := []
  toRefresh : List TrackedPort := []

def findExistingPort (rows : EntityTable TrackedPortBase) (port : TrackedPort) :
    Option TrackedPort :=
  (rows.find port.id).or
    (((rows.rows.filter fun p => p.base.hostId = port.base.hostId).insertionSort fun a b =>
      a.createdAt ≤ b.createdAt).find? fun p =>
        p.base.number = port.base.number && p.base.protocol = port.base.protocol)

/-- `idx_ports_unique_live`: a host has a number and a protocol once. -/
def insertPort (rows : EntityTable TrackedPortBase) (port : TrackedPort) :
    Option (EntityTable TrackedPortBase) :=
  if port.isLive && rows.rows.any fun p => p.isLive && p.base.hostId = port.base.hostId &&
      p.base.number = port.base.number && p.base.protocol = port.base.protocol then none
  else rows.insertMany [port]

def newPort (env : ChildEnv) (created : ℕ) (port : TrackedPort) : TrackedPort :=
  if port.id = Uuid.nil then
    ⟨env.newPortId created, env.now, env.now, none, none, { port.base with lastSeenAt := env.now }⟩
  else { port with createdAt := port.base.lastSeenAt, validFrom := port.base.lastSeenAt }

def PortStage.step (env : ChildEnv) (host : Host) (s : PortStage) (port : TrackedPort) :
    Option PortStage :=
  let port : TrackedPort := { port with base := { port.base with
    hostId := host.id, networkId := host.base.networkId } }
  match findExistingPort s.rows port with
  | some existing =>
    let refreshed : TrackedPort := { existing with base := { existing.base with
      lastSeenAt := port.base.lastSeenAt } }
    some { s with created := s.created ++ [refreshed], toRefresh := s.toRefresh ++ [refreshed] }
  | none =>
    let port := newPort env s.created.length port
    (insertPort s.rows port).map fun rows => { s with rows, created := s.created ++ [port] }

/-- The loop over the ports, and the write of those that were seen again. -/
def createPorts (env : ChildEnv) (host : Host) (ports : List TrackedPort)
    (rows : EntityTable TrackedPortBase) : Option (EntityTable TrackedPortBase × List TrackedPort) :=
  (ports.foldlM (PortStage.step env host) { rows }).map fun s =>
    (s.rows.updateMany s.toRefresh (·.id) (fun u _ => u) fun _ _ h => h, s.created)

end Ports

section Services

structure ServiceMemory where
  existingServices : List TrackedService := []
  serviceIdRemap : HashMap Uuid Uuid := HashMap.empty
  liveServiceIds : List Uuid := []
  /-- The requests made so far, by which the ids are drawn. -/
  made : ℕ := 0

structure ServiceStage extends ServiceMemory where
  store : ServiceStore
  batchClaimed : List (Uuid × Option Uuid) := []
  orphaned : List Binding := []
  created : List TrackedService := []

/-- The bindings as `save_for_parent` returns them. -/
def savedChildren (existing : List Binding) : (draws : ℕ → Uuid) → List Binding → List Binding
  | _, [] => []
  | draws, b :: bs =>
    (if b.id = Uuid.nil then { b with id := draws 0 }
      else match existing.find? (·.id = b.id) with
        | some e => { b with createdAt := e.createdAt }
        | none => b) :: savedChildren existing (fun n => draws (n + 1)) bs

namespace ServiceStage
variable (defs : ServiceDefinitions) (env : ChildEnv)

def perform (s : ServiceStage) (r : ServiceRequest) : ServiceStage × Option TrackedService :=
  match s.store.check defs r with
  | .error _ => ({ s with made := s.made + 1 }, none)
  | .ok w =>
    let draws := env.newBindingId s.made
    let result := s.store.write draws w
    ({ s with store := result.1, made := s.made + 1 },
      if result.2 then
        some (w.service.withBindings
          (savedChildren (s.store.bindingsOf w.service.id) draws w.bindings))
      else none)

def performAll (s : ServiceStage) (requests : List ServiceRequest) : ServiceStage :=
  requests.foldl (fun s r => (s.perform defs env r).1) s

/-- A `create` whose failure ends the call. -/
def createService (s : ServiceStage) (service : TrackedService) :
    Option (ServiceStage × TrackedService) :=
  match s.perform defs env (.create service (env.newServiceId s.made) env.now) with
  | (s, some created) => some (s, created)
  | (_, none) => none

def precomputeRemap (hostId : Uuid) (services : List TrackedService) (s : ServiceStage) :
    ServiceStage :=
  { s with serviceIdRemap := services.foldl (fun remap svc =>
      let probe : TrackedService := { svc with base := { svc.base with hostId } }
      match s.existingServices.find? (·.same defs probe) with
      | some existing => if existing.id = svc.id then remap else remap.insert svc.id existing.id
      | none => remap) HashMap.empty }

/-- The row of a service that owns a subnet, without its bindings. -/
def createOwner (host : Host) (ownerIds : List Uuid) (s : ServiceStage) (svc : TrackedService) :
    ServiceStage :=
  if svc.id ∉ ownerIds || defs.isGeneric svc.base.serviceDefinition then s
  else
    let probe : TrackedService := { svc with base := { svc.base with
      hostId := host.id, networkId := host.base.networkId } }
    match s.existingServices.find? (·.same defs probe) with
    | some existing => { s with
        serviceIdRemap := if existing.id = svc.id then s.serviceIdRemap
          else s.serviceIdRemap.insert svc.id existing.id
        liveServiceIds := existing.id :: s.liveServiceIds }
    | none =>
      let row : TrackedService := { probe with base := { probe.base with
        bindings := [], virtualizationServiceId := none } }
      match s.perform defs env (.create row (env.newServiceId s.made) env.now) with
      | (s, none) => s
      | (s, some created) => { s with
          serviceIdRemap := if created.id = svc.id then s.serviceIdRemap
            else s.serviceIdRemap.insert svc.id created.id
          liveServiceIds := created.id :: s.liveServiceIds
          existingServices := s.existingServices ++ [created] }

def createOwners (host : Host) (services : List TrackedService) (subnets : List Subnet)
    (store : ServiceStore) : ServiceStage :=
  let existing := store.liveServices host.id
  let s : ServiceStage :=
    { store, existingServices := existing, liveServiceIds := existing.map (·.id) }
  let ownerIds := subnets.filterMap (·.base.virtualizationServiceId)
  services.foldl (createOwner defs env host ownerIds) (s.precomputeRemap defs host.id services)

def context (s : ServiceStage) (fixed : TransferContext) : TransferContext :=
  { fixed with
    existingServices := s.existingServices
    batchClaimed := s.batchClaimed
    serviceIdRemap := s.serviceIdRemap
    liveServiceIds := s.liveServiceIds }

def transfer (fixed : TransferContext) (s : ServiceStage) (service : TrackedService) :
    Option ServiceStage :=
  let ctx := s.context fixed
  let remap := ctx.ownerRemap service (ctx.align defs service)
  match ctx.transferPlan defs s.store service with
  | .drop requests orphaned =>
    some { s.performAll defs env requests with
      serviceIdRemap := remap, orphaned := s.orphaned ++ orphaned }
  | .create before reclaimed submitted =>
    let s : ServiceStage := { s.performAll defs env before with
      existingServices := ctx.reclaimedServices defs reclaimed
      batchClaimed := s.batchClaimed ++ portClaims submitted.base.bindings }
    (s.createService defs env submitted).map fun (s, created) => { s with
      serviceIdRemap := if created.id = submitted.id then remap
        else remap.insert submitted.id created.id
      liveServiceIds := created.id :: s.liveServiceIds
      existingServices := s.existingServices ++ [created]
      created := s.created ++ [created] }

def createOrphaned (host : Host) (s : ServiceStage) : Option ServiceStage :=
  if s.orphaned.isEmpty then some s
  else (s.createService defs env
    (openPortsService host (env.newServiceId s.made) env.now s.orphaned)).map fun (s, created) =>
      { s with created := s.created ++ [created] }

def fixOwners (fixed : TransferContext) (s : ServiceStage) : Option ServiceStage :=
  s.created.foldlM (fun s svc =>
    let resolved := (s.context fixed).resolveOwnerServiceId svc.base.virtualizationServiceId
      s.serviceIdRemap
    ((DiscoveryStep.fixOwner svc resolved).requests defs s.store).foldlM (fun s r =>
      match s.perform defs env r with
      | (s, some _) => some s
      | (_, none) => none) s) s

def fixBindings (ipAddressIdRemap portIdRemap : HashMap Uuid Uuid) (s : ServiceStage) :
    ServiceStage :=
  s.created.foldl (fun s svc => s.performAll defs env
    ((DiscoveryStep.fixBindings svc ipAddressIdRemap portIdRemap).requests defs s.store)) s

def transferAll (fixed : TransferContext) (portIdRemap : HashMap Uuid Uuid)
    (services : List TrackedService) (s : ServiceStage) : Option ServiceStage := do
  let s ← services.foldlM (transfer defs env fixed) s
  let s ← s.createOrphaned defs env fixed.host
  let s ← s.fixOwners defs env fixed
  pure (s.fixBindings defs env fixed.ipAddressIdRemap portIdRemap)

end ServiceStage
end Services

section Interfaces

/-- `ON DELETE SET NULL`: an interface whose neighbour is the deleted one has no neighbour. -/
def SnmpInterface.releaseNeighbor (id : Uuid) (i : SnmpInterface) : SnmpInterface :=
  if i.base.neighbor = some (.interface id) then { i with base := { i.base with neighbor := none } }
  else i

@[simp] theorem SnmpInterface.releaseNeighbor_id (id : Uuid) (i : SnmpInterface) :
    (SnmpInterface.releaseNeighbor id i).id = i.id := by
  unfold releaseNeighbor
  split_ifs <;> rfl

def InterfaceTable.deleteInterface (t : InterfaceTable) (id : Uuid) : InterfaceTable :=
  (t.delete (·.id = id)).modify (SnmpInterface.releaseNeighbor id)
    (SnmpInterface.releaseNeighbor_id id)

def InterfaceTable.pruneInterfaces (t : InterfaceTable) (hostId : Uuid) (kept : List Uuid) :
    InterfaceTable :=
  (t.getForHost hostId).foldl (fun t i => if i.id ∈ kept then t else t.deleteInterface i.id) t

structure InterfaceStage where
  table : InterfaceTable
  created : List SnmpInterface := []
  skipped : ℕ := 0

/-- One interface of the report. A row that cannot be inserted is skipped, a row that cannot be
updated ends the call. -/
def InterfaceStage.step (env : ChildEnv) (host : Host) (collected : InterfaceDataComplete)
    (s : InterfaceStage) (entry : SnmpInterface) : Option InterfaceStage :=
  let entry : SnmpInterface := { entry with base := { entry.base with
    hostId := host.id, networkId := host.base.networkId } }
  let claimed := s.created.map (·.id)
  let ingest : IngestEnv :=
    ⟨env.scanTime, env.now, env.newInterfaceId (s.created.length + s.skipped)⟩
  match s.table.createOrUpdateFromDiscovery ingest entry claimed collected with
  | some (table, row) => some { s with table, created := s.created ++ [row] }
  | none =>
    match s.table.findMatchingExisting (SnmpInterface.normalizeBlankIdentity entry) claimed with
    | some _ => none
    | none => some { s with skipped := s.skipped + 1 }

def shouldPruneInterfaces (interfacesComplete : Bool) (persisted skipped : ℕ) : Bool :=
  interfacesComplete && 0 < persisted && skipped = 0

def createInterfaces (env : ChildEnv) (host : Host) (collected : InterfaceDataComplete)
    (interfacesComplete : Bool) (interfaces : List SnmpInterface) (t : InterfaceTable) :
    Option (InterfaceTable × List SnmpInterface) :=
  (interfaces.foldlM (InterfaceStage.step env host collected) { table := t }).map fun s =>
    (if shouldPruneInterfaces interfacesComplete s.created.length s.skipped then
        s.table.pruneInterfaces host.id (s.created.map (·.id))
      else s.table, s.created)

end Interfaces

def remapAssignmentIpIds (submitted created : List IPAddress) (a : CredentialAssignment) :
    CredentialAssignment :=
  match a.ipAddressIds with
  | none => a
  | some ids =>
    let remapped := ids.filterMap fun id => (submitted.find? (·.id = id)).bind fun s =>
      (created.find? (·.base.ipAddress = s.base.ipAddress)).map (·.id)
    { a with ipAddressIds := if remapped.isEmpty then none else some remapped }

structure ChildStage where
  ports : EntityTable TrackedPortBase
  services : EntityTable TrackedServiceBase
  bindings : EntityTable BindingBase
  interfaces : InterfaceTable
  createdPorts : List TrackedPort := []
  memory : ServiceMemory := {}

def ChildStage.serviceStore (s : ChildStage) (ipAddresses : EntityTable IPAddressBase) :
    ServiceStore where
  services := s.services
  bindings := s.bindings
  ports := EntityTable.map (·.toPortBase) s.ports
  ipAddresses := ipAddresses

def collectRemap (pairs : List (Uuid × Uuid)) : HashMap Uuid Uuid :=
  pairs.foldl (fun remap (original, created) =>
    if original = created then remap else remap.insert original created) HashMap.empty

/-- The stages of a discovery. A service that owns a subnet is stored without bindings, so that no
address is looked up for it. -/
def discoveryStages (defs : ServiceDefinitions) (env : ChildEnv) (submission : HostSubmission) :
    OtherStages ChildStage where
  ports _ host s := (createPorts env host submission.ports s.ports).map fun (ports, created) =>
    { s with ports, createdPorts := created }
  owners request host s :=
    let stage := ServiceStage.createOwners defs env host submission.services request.subnets
      (s.serviceStore ⟨[], List.nodup_nil⟩)
    some ({ s with
        services := stage.store.services
        bindings := stage.store.bindings
        memory := stage.toServiceMemory },
      fun incoming => incoming.bind fun id => match stage.serviceIdRemap.get id with
        | some remapped => some remapped
        | none => if id ∈ stage.liveServiceIds then some id else none)
  children request host pairs store := do
    let s := store.rest
    let fixed : TransferContext := {
      host
      originalIpAddresses := request.ipAddresses
      originalPorts := request.ports
      ipAddresses := pairs.map (·.2)
      ports := s.createdPorts.map (Row.map (·.toPortBase))
      ipAddressIdRemap := collectRemap (pairs.map fun (a, b) => (a.id, b.id))
      existingServices := s.memory.existingServices
      batchClaimed := []
      serviceIdRemap := s.memory.serviceIdRemap
      liveServiceIds := s.memory.liveServiceIds }
    let portIdRemap := collectRemap (submission.ports.filterMap fun original =>
      (s.createdPorts.find? fun c => c.base.number = original.base.number &&
        c.base.protocol = original.base.protocol).map fun c => (original.id, c.id))
    let stage ← ServiceStage.transferAll defs env fixed portIdRemap submission.services
      { s.memory with store := s.serviceStore store.ipAddresses.entities }
    let (interfaces, created) ← createInterfaces env host request.interfaceDataComplete
      request.interfacesComplete submission.interfaces s.interfaces
    pure ({ s with
        services := stage.store.services
        bindings := stage.store.bindings
        interfaces
        memory := stage.toServiceMemory },
      { ports := s.createdPorts.map (Row.map (·.toPortBase))
        services := stage.created.map (Row.map (·.toServiceBase))
        interfaces := created.map (Row.map (·.toInterfaceBase))
        credentialAssignments := request.host.base.credentialAssignments.map
          (remapAssignmentIpIds request.ipAddresses (pairs.map (·.2))) })

end Scanopy
