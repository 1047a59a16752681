import Scanopy.Lib.Lts
import Scanopy.Services.Store

/-! The requests of the service layer. Each one checks what it is asked for against the store and
decides on a write; a discovery goes through the same requests. -/

namespace Scanopy

open List Option

inductive ServiceRequest
  /-- With the id and the time that a service without an id gets. -/
  | create (service : TrackedService) (newId : Uuid) (now : Timestamp)
  | update (service : TrackedService)
  | removePortBindings (serviceId : Uuid) (claims : List (Uuid × Option Uuid))
  | delete (serviceId : Uuid)

inductive LockKey
  | serviceDedup (hostId : Uuid)
  | service (serviceId : Uuid)
  deriving DecidableEq

def ServiceRequest.lock : ServiceRequest → Option LockKey
  | create service _ _ => some (.serviceDedup service.base.hostId)
  | update service => some (.service service.id)
  | removePortBindings _ _ => none
  | delete serviceId => some (.service serviceId)

def TrackedService.withBindings (s : TrackedService) (bindings : List Binding) : TrackedService :=
  { s with base := { s.base with bindings } }

/-- The service that a `create` stores if it matches none: with an id, and without duplicates among
its bindings. -/
def submittedService (service : TrackedService) (newId : Uuid) (now : Timestamp) :
    TrackedService :=
  let service : TrackedService := if service.id = Uuid.nil then
    ⟨newId, now, now, none, none, { service.base with lastSeenAt := now }⟩ else service
  service.withBindings (deduplicateBindings service.base.bindings)

def mergeSource : EntitySource → EntitySource → EntitySource
  | _, .discoveryWithMatch => .discoveryWithMatch
  | existing, _ => existing

/-- The row that `upsert_service` writes. -/
def upsertService (existing new : TrackedService) : TrackedService :=
  { existing with base := { existing.base with
      bindings := upsertBindings existing.base.bindings new.base.bindings
      virtualizationMetadata :=
        new.base.virtualizationMetadata.or existing.base.virtualizationMetadata
      virtualizationServiceId :=
        new.base.virtualizationServiceId.or existing.base.virtualizationServiceId
      source := mergeSource existing.base.source new.base.source
      lastSeenAt := new.base.lastSeenAt } }

namespace ServiceStore
variable (defs : ServiceDefinitions) (store : ServiceStore)

/-- The stored service that a `create` is merged into: the first one that is the same service, if
both come from a discovery or have the same id. -/
def upsertTarget (service : TrackedService) : Option TrackedService :=
  ((store.liveServices service.base.hostId).find? (·.same defs service)).filter fun existing =>
    (service.base.source.isFromDiscovery && existing.base.source.isFromDiscovery) ||
      service.id = existing.id

/-- The checks of a `create` that inserts. Discovered services are not checked against the ports
of the others. -/
def checkInsert (service : TrackedService) : Option ServiceError :=
  let bindings := service.base.bindings
  ((validateBindingsNoConflicts bindings).map ServiceError.bindingConflict).or
    ((store.validateBindingsBelongToHost service.base.hostId bindings).or
      (if service.base.source.isFromDiscovery then none
        else store.validateBindingsAvailable service.base.hostId service.id bindings))

def checkUpdate (service : TrackedService) : Option ServiceError :=
  let bindings := service.base.bindings
  ((validateBindingsNoConflicts bindings).map ServiceError.bindingConflict).or
    ((store.validateBindingsBelongToHost service.base.hostId bindings).or
      (store.validateBindingsAvailable service.base.hostId service.id bindings))

def originateService (service : TrackedService) : TrackedService :=
  { service with
    createdAt := service.base.lastSeenAt
    validFrom := service.base.lastSeenAt
    base := { service.base with
      position := (store.liveServices service.base.hostId).length } }

def checkCreate (service : TrackedService) : Except ServiceError ServiceWrite :=
  match store.upsertTarget defs service with
  | some existing => .ok (.ofService .update (upsertService existing service))
  | none => match store.checkInsert service with
    | some e => .error e
    | none => .ok (.ofService .insert (store.originateService service))

def check : ServiceRequest → Except ServiceError ServiceWrite
  | .create service newId now => store.checkCreate defs (submittedService service newId now)
  | .update service =>
    let service := service.withBindings (deduplicateBindings service.base.bindings)
    match store.getById service.id with
    | none => .error .notFound
    | some _ => match store.checkUpdate service with
      | some e => .error e
      | none => .ok (.ofService .update service)
  | .removePortBindings serviceId claims =>
    match store.getById serviceId with
    | none => .error .notFound
    | some service => .ok {
        mode := .keep
        service := service
        bindings := remainingBindings claims (store.bindingsOf service.id)
        owned := fun b hb => (mem_bindingsOf.mp (List.mem_of_mem_filter hb)).2 }
  | .delete serviceId =>
    match store.getById serviceId with
    | none => .error .notFound
    | some service => .ok ⟨.delete, service, [], nofun⟩

end ServiceStore

def IPAddress.same (a b : IPAddress) : Bool :=
  (a.base.ipAddress = b.base.ipAddress && a.base.subnetId = b.base.subnetId) ||
    (a.id = b.id && a.id ≠ Uuid.nil && b.id ≠ Uuid.nil)

def Port.same (a b : Port) : Bool :=
  a.base.number = b.base.number && a.base.protocol = b.base.protocol

inductive TransferPlan
  /-- It is stored, after the requests `before`, which take the ports `reclaimed` from another. -/
  | create (before : List ServiceRequest) (reclaimed : List (Uuid × Option Uuid))
      (service : TrackedService)
  /-- It is dropped, after other requests; some of its bindings are left without a service. -/
  | drop (requests : List ServiceRequest) (orphaned : List Binding)

def TransferPlan.requests (newId : Uuid) (now : Timestamp) : TransferPlan → List ServiceRequest
  | create before _ service => before ++ [.create service newId now]
  | drop requests _ => requests

/-- The host that a discovery has resolved a submission to, its ports and addresses beside the
submitted ones, and what the discovery remembers of the services before. -/
structure TransferContext where
  host : Host
  originalIpAddresses : List IPAddress
  originalPorts : List Port
  ipAddresses : List IPAddress
  ports : List Port
  ipAddressIdRemap : HashMap Uuid Uuid
  existingServices : List TrackedService
  batchClaimed : List (Uuid × Option Uuid)
  serviceIdRemap : HashMap Uuid Uuid
  liveServiceIds : List Uuid

namespace TransferContext
variable (ctx : TransferContext)

def matchIpAddress (original : IPAddress) : Option IPAddress :=
  ctx.ipAddresses.find? (IPAddress.same · original)

/-- The address of a port binding after the transfer. An address that is not found again makes the
port one of all addresses. -/
def reassignPortAddress (original : Option IPAddress) : Option Uuid :=
  original.bind fun o => match ctx.matchIpAddress o with
    | some found => some found.id
    | none => ((ctx.ipAddressIdRemap.get o.id).bind fun newId =>
        ctx.ipAddresses.find? (·.id = newId)).map (·.id)

def reassignType (t : BindingType) : Option BindingType :=
  let original := t.ipAddressId.bind fun id => ctx.originalIpAddresses.find? (·.id = id)
  match t with
  | .ipAddress ip =>
    match original.bind ctx.matchIpAddress with
    | some found => some (.ipAddress found.id)
    | none => (ctx.ipAddressIdRemap.get ip).map .ipAddress
  | .port portId _ =>
    ((ctx.originalPorts.find? (·.id = portId)).bind fun originalPort =>
      ctx.ports.find? (Port.same · originalPort)).map fun port =>
        .port port.id (ctx.reassignPortAddress original)

def reassignServiceInterfaceBindings (service : TrackedService) : TrackedService :=
  { service with base := { service.base with
      hostId := ctx.host.id
      networkId := ctx.host.base.networkId
      bindings := service.base.bindings.filterMap fun b =>
        (ctx.reassignType b.base.bindingType).map fun t =>
          { b with base := { b.base with bindingType := t } } } }

def align (defs : ServiceDefinitions) (service : TrackedService) : TrackedService :=
  let reassigned := ctx.reassignServiceInterfaceBindings service
  match ctx.existingServices.find? (·.same defs reassigned) with
  | some existing => { reassigned with id := existing.id }
  | none => reassigned

def resolveOwnerServiceId (incoming : Option Uuid) (remap : HashMap Uuid Uuid) : Option Uuid :=
  incoming.bind fun id => match remap.get id with
    | some remapped => some remapped
    | none => if id ∈ ctx.liveServiceIds then some id else none

def enrichRequests (defs : ServiceDefinitions) (container : TrackedService)
    (conflicting : List Binding) : List ServiceRequest :=
  let portIds := conflicting.filterMap (·.base.bindingType.portId)
  let enrichable := ctx.existingServices.filter fun s =>
    !defs.isGeneric s.base.serviceDefinition && s.base.virtualizationMetadata.isNone &&
      s.portIds.any portIds.contains
  enrichable.map fun s => .update { s with base := { s.base with
    virtualizationMetadata := container.base.virtualizationMetadata
    virtualizationServiceId := container.base.virtualizationServiceId } }

def allConflictsFromOpenPorts (defs : ServiceDefinitions) (claims : List (Uuid × Option Uuid)) :
    Bool :=
  !claims.isEmpty && claims.all fun (portId, ip) => ctx.existingServices.any fun s =>
    defs.isOpenPorts s.base.serviceDefinition && (portClaims s.base.bindings).any fun (p, i) =>
      p = portId && bindingsOverlap ip i

def reclaimRequests (defs : ServiceDefinitions) (claims : List (Uuid × Option Uuid)) :
    List ServiceRequest :=
  match ctx.existingServices.find? fun s => defs.isOpenPorts s.base.serviceDefinition with
  | none => []
  | some openPorts =>
    if (remainingBindings claims openPorts.base.bindings).isEmpty then [.delete openPorts.id]
    else [.removePortBindings openPorts.id claims]

def reclaimedServices (defs : ServiceDefinitions) (claims : List (Uuid × Option Uuid)) :
    List TrackedService :=
  match ctx.existingServices.find? fun s => defs.isOpenPorts s.base.serviceDefinition with
  | none => ctx.existingServices
  | some openPorts =>
    ctx.existingServices.modify (ctx.existingServices.findIdx (·.id = openPorts.id)) fun s =>
      s.withBindings (remainingBindings claims s.base.bindings)

def ownerRemap (service reassigned : TrackedService) : HashMap Uuid Uuid :=
  if reassigned.id = service.id then ctx.serviceIdRemap
  else ctx.serviceIdRemap.insert service.id reassigned.id

def transferPlan (defs : ServiceDefinitions) (store : ServiceStore) (service : TrackedService) :
    TransferPlan :=
  let reassigned := ctx.align defs service
  let owned : TrackedService := { reassigned with base := { reassigned.base with
    virtualizationServiceId := ctx.resolveOwnerServiceId reassigned.base.virtualizationServiceId
      (ctx.ownerRemap service reassigned) } }
  let (valid, conflicting) := store.partitionConflictingBindings ctx.host.id reassigned.id
    reassigned.base.bindings ctx.batchClaimed
  if conflicting.isEmpty then .create [] [] owned
  else if ctx.existingServices.any (·.id = reassigned.id) then .create [] [] (owned.withBindings valid)
  else if reassigned.base.virtualizationMetadata.isSome &&
      defs.isGeneric reassigned.base.serviceDefinition then
    .drop (ctx.enrichRequests defs reassigned conflicting) []
  else
    let claims := portClaims conflicting
    if ctx.allConflictsFromOpenPorts defs claims then
      .create (ctx.reclaimRequests defs claims) claims (owned.withBindings (valid ++ conflicting))
    else .drop [] valid

end TransferContext

def openPortsService (host : Host) (id : Uuid) (now : Timestamp) (bindings : List Binding) :
    TrackedService :=
  ⟨id, now, now, none, none, {
    hostId := host.id
    networkId := host.base.networkId
    serviceDefinition := "Unclaimed Open Ports"
    name := "Unclaimed Open Ports"
    bindings := bindings
    virtualizationServiceId := none
    position := 0
    source := .discovery
    lastSeenAt := now }⟩

def remapType (ipAddressIdRemap portIdRemap : HashMap Uuid Uuid) : BindingType → BindingType
  | .ipAddress ip => .ipAddress (remapId ipAddressIdRemap ip)
  | .port portId ip => .port (remapId portIdRemap portId) (ip.map (remapId ipAddressIdRemap))

inductive DiscoveryStep
  | transfer (ctx : TransferContext) (service : TrackedService) (newId : Uuid) (now : Timestamp)
  | orphaned (host : Host) (bindings : List Binding) (newId : Uuid) (now : Timestamp)
  | fixOwner (service : TrackedService) (owner : Option Uuid)
  | fixBindings (service : TrackedService) (ipAddressIdRemap portIdRemap : HashMap Uuid Uuid)

def DiscoveryStep.requests (defs : ServiceDefinitions) (store : ServiceStore) :
    DiscoveryStep → List ServiceRequest
  | transfer ctx service newId now => (ctx.transferPlan defs store service).requests newId now
  | orphaned host bindings newId now =>
    if bindings.isEmpty then [] else [.create (openPortsService host newId now bindings) newId now]
  | fixOwner service owner =>
    if owner = service.base.virtualizationServiceId then []
    else [.update { service with base := { service.base with virtualizationServiceId := owner } }]
  | fixBindings service ipAddressIdRemap portIdRemap =>
    if service.base.bindings.any fun b =>
        b.base.bindingType.ipAddressId.any ipAddressIdRemap.contains ||
          b.base.bindingType.portId.any portIdRemap.contains then
      [.update (service.withBindings (service.base.bindings.map fun b =>
        { b with base := { b.base with
          bindingType := remapType ipAddressIdRemap portIdRemap b.base.bindingType } }))]
    else []

structure PendingWrite where
  lock : Option LockKey
  write : ServiceWrite
  /-- Another request has written to the host or to the service since the check. -/
  overtaken : Bool := false

/-- Whether a write of `w` comes between the check and the write of `p`. -/
def PendingWrite.overtake (w : ServiceWrite) (p : PendingWrite) : PendingWrite :=
  if p.write.service.base.hostId = w.service.base.hostId || p.write.service.id = w.service.id then
    { p with overtaken := true }
  else p

structure ServiceSystem where
  store : ServiceStore
  pending : List PendingWrite := []
  discoveries : List (List ServiceRequest) := []

inductive ServiceEvent
  /-- A request arrives, takes its lock and makes its checks. -/
  | start (r : ServiceRequest)
  /-- A discovery reads the store and decides on its next requests. -/
  | discover (d : DiscoveryStep)
  /-- A discovery starts the next of its requests. -/
  | next (k : ℕ)
  /-- A request writes, with the ids that it draws, and releases its lock. -/
  | finish (i : ℕ) (draws : ℕ → Uuid)

namespace ServiceSystem
variable (defs : ServiceDefinitions)

def start (s : ServiceSystem) (r : ServiceRequest) : Option ServiceSystem :=
  if r.lock.isSome && s.pending.any fun p => p.lock = r.lock then none
  else match s.store.check defs r with
    | .error _ => some s
    | .ok w => some { s with pending := s.pending ++ [{ lock := r.lock, write := w }] }

def begins (s : ServiceSystem) : ServiceEvent → Option ServiceRequest
  | .start r => some r
  | .next k => s.discoveries[k]?.bind List.head?
  | .discover _ | .finish _ _ => none

def step (s : ServiceSystem) : ServiceEvent → Option ServiceSystem
  | .start r => s.start defs r
  | .discover d =>
    some { s with discoveries := s.discoveries ++ [d.requests defs s.store] }
  | .next k =>
    match s.discoveries[k]? with
    | some (r :: rs) => { s with discoveries := s.discoveries.set k rs }.start defs r
    | _ => none
  | .finish i draws =>
    s.pending[i]?.map fun p => { s with
      store := (s.store.write draws p.write).1
      pending := (s.pending.eraseIdx i).map (PendingWrite.overtake p.write) }

end ServiceSystem

def serviceLts (defs : ServiceDefinitions) (store : ServiceStore) :
    Lts ServiceSystem ServiceEvent where
  init := { store }
  step := ServiceSystem.step defs

namespace ServiceStore
variable {defs : ServiceDefinitions} {store : ServiceStore} {w : ServiceWrite}
variable {s service : TrackedService} {serviceId : Uuid}

theorem getById_eq_some
    (h : store.getById serviceId = some s) :
    ∃ r ∈ store.services, r.id = serviceId ∧ s = store.hydrate r := by
  obtain ⟨r, hr, rfl⟩ := map_eq_some_iff.mp h
  obtain ⟨hr, hid⟩ := Table.find_eq_some.mp hr
  exact ⟨r, hr, hid, rfl⟩

theorem mem_liveServices {hostId : Uuid} :
    s ∈ store.liveServices hostId ↔
      ∃ r ∈ store.services, r.isLive = true ∧ r.base.hostId = hostId ∧ s = store.hydrate r := by
  unfold liveServices
  rw [List.mem_map]
  refine exists_congr fun r => ?_
  rw [mem_insertionSort, mem_filter, Bool.and_eq_true, decide_eq_true_eq, and_assoc,
    and_assoc, @eq_comm _ s]
  rfl

theorem upsertTarget_eq_some {existing : TrackedService}
    (h : store.upsertTarget defs service = some existing) :
    ∃ r ∈ store.services, r.isLive = true ∧ r.base.hostId = service.base.hostId ∧
      existing = store.hydrate r := by
  obtain ⟨hfind, -⟩ := filter_eq_some_iff.mp h
  exact mem_liveServices.mp (mem_of_find?_eq_some hfind)

theorem checkCreate_cases (h : store.checkCreate defs service = .ok w) :
    (∃ existing, store.upsertTarget defs service = some existing ∧
      w = .ofService .update (upsertService existing service)) ∨
    (store.upsertTarget defs service = none ∧ store.checkInsert service = none ∧
      w = .ofService .insert (store.originateService service)) := by
  unfold checkCreate at h
  cases htarget : store.upsertTarget defs service with
  | some existing =>
    rw [htarget] at h
    cases h
    exact .inl ⟨existing, rfl, rfl⟩
  | none =>
    rw [htarget] at h
    cases hcheck : store.checkInsert service with
    | some e =>
      rw [hcheck] at h
      cases h
    | none =>
      rw [hcheck] at h
      cases h
      exact .inr ⟨rfl, rfl, rfl⟩

theorem check_update (h : store.check defs (.update service) = .ok w) :
    store.checkUpdate (service.withBindings (deduplicateBindings service.base.bindings)) = none ∧
      w = .ofService .update
        (service.withBindings (deduplicateBindings service.base.bindings)) := by
  unfold check at h
  dsimp only at h
  split at h
  · cases h
  · split at h
    · cases h
    next hcheck =>
      cases h
      exact ⟨hcheck, rfl⟩

theorem check_removePortBindings {claims : List (Uuid × Option Uuid)}
    (h : store.check defs (.removePortBindings serviceId claims) = .ok w) :
    ∃ r ∈ store.services, r.id = serviceId ∧ w.mode = .keep ∧ w.service = store.hydrate r ∧
      w.bindings = remainingBindings claims (store.bindingsOf r.id) := by
  unfold check at h
  dsimp only at h
  split at h
  · cases h
  next hget =>
    cases h
    obtain ⟨r, hr, hid, rfl⟩ := getById_eq_some hget
    exact ⟨r, hr, hid, rfl, rfl, rfl⟩

theorem check_delete (h : store.check defs (.delete serviceId) = .ok w) :
    ∃ r ∈ store.services, r.id = serviceId ∧ w.mode = .delete ∧ w.service = store.hydrate r ∧
      w.bindings = [] := by
  unfold check at h
  dsimp only at h
  split at h
  · cases h
  next hget =>
    cases h
    obtain ⟨r, hr, hid, rfl⟩ := getById_eq_some hget
    exact ⟨r, hr, hid, rfl, rfl, rfl⟩

end ServiceStore

namespace ServiceSystem
variable {defs : ServiceDefinitions} {s s' : ServiceSystem} {e : ServiceEvent}

theorem start_cases {r : ServiceRequest} (h : s.start defs r = some s') :
    (s'.store = s.store ∧ s'.pending = s.pending) ∨
    ∃ w, s.store.check defs r = .ok w ∧ s'.store = s.store ∧
      s'.pending = s.pending ++ [{ lock := r.lock, write := w }] := by
  unfold start at h
  split_ifs at h
  split at h
  next => exact .inl (by cases h; exact ⟨rfl, rfl⟩)
  next w hw => exact .inr ⟨w, hw, by cases h; exact ⟨rfl, rfl⟩⟩

/-- All that a step can do: nothing that the store or a waiting request would notice, the start of
a request that passes its checks, or the write of one. -/
theorem step_cases (h : s.step defs e = some s') :
    (s'.store = s.store ∧ s'.pending = s.pending) ∨
    (∃ r w, s.begins e = some r ∧ s.store.check defs r = .ok w ∧ s'.store = s.store ∧
      s'.pending = s.pending ++ [{ lock := r.lock, write := w }]) ∨
    (∃ i draws p, e = .finish i draws ∧ s.pending[i]? = some p ∧
      s'.store = (s.store.write draws p.write).1 ∧
      s'.pending = (s.pending.eraseIdx i).map (PendingWrite.overtake p.write)) := by
  cases e with
  | start r =>
    rcases start_cases h with hsame | ⟨w, hw⟩
    · exact .inl hsame
    · exact .inr (.inl ⟨r, w, rfl, hw⟩)
  | discover d =>
    cases h
    exact .inl ⟨rfl, rfl⟩
  | next k =>
    unfold step at h
    dsimp only at h
    split at h
    next r rs hk =>
      have hbegins : s.begins (.next k) = some r := by
        unfold begins
        dsimp only
        rw [hk]
        rfl
      rcases start_cases h with hsame | ⟨w, hw⟩
      · exact .inl hsame
      · exact .inr (.inl ⟨r, w, hbegins, hw⟩)
    next => cases h
  | finish i draws =>
    obtain ⟨p, hp, rfl⟩ := map_eq_some_iff.mp h
    exact .inr (.inr ⟨i, draws, p, rfl, hp, rfl, rfl⟩)

end ServiceSystem
end Scanopy
