import Scanopy.Hosts.Consolidate
import Scanopy.Hosts.Edits
import Scanopy.Lib.Commits
import Scanopy.Services.Saves
import Scanopy.Tags.Replacement

/-! `update_from_request`, on a store that nobody else writes meanwhile. The parts of the request
are read, checked and written one after the other; what stands when a part is refused stays. -/

namespace Scanopy
open Option Commits

structure EditStore where
  hosts : EntityTable TrackedHostBase
  entityTags : EntityTagTable
  hostCredentials : HostCredentials
  children : ServiceStore

inductive HostEditError
  | hostNotFound (id : Uuid)
  /-- The host was modified since the client has loaded it. -/
  | modified (expected actual : Timestamp)
  | unknownVirtualizationService (id : Uuid)
  | tags (entity : TaggedEntity)
  | positions (kind : ChildKind) (e : PositionError)
  | service (e : ServiceError)
  /-- A statement is refused by the database. -/
  | database
  deriving DecidableEq

/-- What an id is drawn for: the `n`th input of a kind, the `k`th binding of the `n`th service, a tag
of the host or of the `n`th service. -/
inductive DrawKey
  | child (kind : ChildKind) (n : ℕ)
  | binding (n k : ℕ)
  | tag (n : Option ℕ) (tagId : Uuid)
  deriving DecidableEq

structure EditContext where
  now : Timestamp
  organizationId : Option Uuid
  defs : ServiceDefinitions
  tags : Uuid → Option Tag
  subnets : List Uuid
  draw : DrawKey → Uuid

structure TaggedServiceInput extends ServiceInput where
  tags : List Uuid := []
  deriving DecidableEq

structure HostUpdateRequest where
  id : Uuid
  edit : HostEdit
  tags : List Uuid := []
  expectedUpdatedAt : Option Timestamp := none
  ipAddresses : Option (List IPAddressInput) := none
  ports : Option (List PortInput) := none
  services : Option (List TaggedServiceInput) := none

/-- `idx_ip_addresses_unique_live`. -/
def ipAddressesUniqueLive : UniqueIndex IPAddress (Uuid × Uuid × IpAddr) :=
  ⟨fun r => r.isLive, fun r => (r.base.hostId, r.base.subnetId, r.base.ipAddress)⟩

/-- `idx_ports_unique_live`. -/
def portsUniqueLive : UniqueIndex Port (Uuid × BitVec 16 × TransportProtocol) :=
  ⟨fun r => r.isLive, fun r => (r.base.hostId, r.base.number, r.base.protocol)⟩

def IPAddressInput.intoIpAddress (hostId networkId : Uuid) (now : Timestamp)
    (input : IPAddressInput) : IPAddress :=
  ⟨input.id, now, now, none, none, {
    networkId, hostId, subnetId := input.subnetId, ipAddress := input.ipAddress
    macAddress := input.macAddress, name := input.name, position := input.position.getD 0
    lastSeenAt := now }⟩

def PortInput.intoPort (hostId networkId : Uuid) (now : Timestamp) (input : PortInput) : Port :=
  ⟨input.id, now, now, none, none, {
    hostId, networkId, number := input.number, protocol := input.protocol }⟩

def BindingInput.intoBinding (serviceId networkId : Uuid) (now : Timestamp) (input : BindingInput) :
    Binding := ⟨input.id, now, now, none, none, ⟨serviceId, networkId, input.bindingType⟩⟩

def TaggedServiceInput.intoService (hostId networkId : Uuid) (now : Timestamp)
    (input : TaggedServiceInput) : TrackedService :=
  ⟨input.id, now, now, none, none, {
    hostId, networkId, serviceDefinition := input.serviceDefinition, name := input.name
    bindings := input.bindings.map (BindingInput.intoBinding input.id networkId now)
    virtualizationMetadata := input.virtualizationMetadata
    virtualizationServiceId := input.virtualizationServiceId
    source := .manual, position := input.position.getD 0, lastSeenAt := now }⟩

def preserveIpAddress (existing new : IPAddress) : IPAddress := { new with
  createdAt := existing.createdAt
  base := { new.base with macAddress := existing.base.macAddress.or new.base.macAddress } }

def preserveService (existing new : TrackedService) : TrackedService := { new with
  base := { new.base with
    source := existing.base.source
    virtualizationMetadata :=
      new.base.virtualizationMetadata.or existing.base.virtualizationMetadata
    virtualizationServiceId :=
      new.base.virtualizationServiceId.or existing.base.virtualizationServiceId } }

namespace ServiceStore
variable (store : ServiceStore)

/-- `get_for_host` of addresses, which are live. -/
def ipAddressesOf (hostId : Uuid) : List IPAddress :=
  store.ipAddresses.rows.filter fun i => i.isLive && i.base.hostId = hostId

def portsOf (hostId : Uuid) : List Port := store.ports.rows.filter fun p => p.base.hostId = hostId

/-- `get_for_parent` of services, closed ones among them. -/
def servicesOf (hostId : Uuid) : List TrackedService :=
  (store.services.rows.filter fun s => s.base.hostId = hostId).map store.hydrate

def ownerStored (s : TrackedService) : Bool :=
  s.base.virtualizationServiceId.all fun owner => owner = s.id || store.hasService owner

end ServiceStore

/-- A row that was there when the rows were read is updated, another one is created. -/
def saveRow {B N : Type} [DecidableEq N] (ix : UniqueIndex (Row B) N)
    (preserve : Row B → Row B → Row B) (t : EntityTable B) (existing : List (Row B)) (row : Row B)
    (newId : Uuid) : Option (EntityTable B) :=
  match existing.find? (·.id = row.id) with
  | some stored => if (t.find row.id).isSome then ix.set t (preserve stored row) else none
  | none => ix.insert t { row with id := if row.id = Uuid.nil then newId else row.id }

namespace EditStore

/-- `delete_many` of addresses: their bindings go with them. -/
def deleteIpAddresses (ids : List Uuid) (s : EditStore) : EditStore :=
  { s with children := { s.children with
      ipAddresses := s.children.ipAddresses.delete (·.id ∈ ids)
      bindings := s.children.bindings.delete (·.base.bindingType.ipAddressId.any (· ∈ ids)) } }

def deletePorts (ids : List Uuid) (s : EditStore) : EditStore :=
  { s with children := { s.children with
      ports := s.children.ports.delete (·.id ∈ ids)
      bindings := s.children.bindings.delete (·.base.bindingType.portId.any (· ∈ ids)) } }

/-- `delete_many` of services: their bindings go with them, their tags end, and what they owned has
no owner. -/
def deleteServices (now : Timestamp) (ids : List Uuid) (s : EditStore) : EditStore :=
  { s with
    hosts := s.hosts.modify (TrackedHost.releaseOwners ids) fun _ => rfl
    entityTags := s.entityTags.update
      (EntityTagTable.closed now (s.entityTags.liveRows ids .service none))
    children := { s.children with
      services := (s.children.services.delete (·.id ∈ ids)).modify
        (TrackedService.releaseOwners ids) fun _ => rfl
      bindings := s.children.bindings.delete (·.base.serviceId ∈ ids) } }

def commit (s : EditStore) : Option EditStore → EditStore × Option HostEditError
  | some s' => (s', none)
  | none => (s, some .database)

variable (ctx : EditContext)

/-- `set_tags`, if the caller is of an organization. -/
def setTags (n : Option ℕ) (entity : TaggedEntity) (tagIds : List Uuid) (s : EditStore) :
    EditStore × Option HostEditError :=
  match ctx.organizationId with
  | none => (s, none)
  | some organizationId =>
    match Scanopy.setTags ctx.tags s.entityTags (fun tagId => ctx.draw (.tag n tagId)) ctx.now entity
      tagIds organizationId with
    | some entityTags => ({ s with entityTags }, none)
    | none => (s, some (.tags entity))

/-- `update` of the host. -/
def updateHost (host : TrackedHost) (s : EditStore) : EditStore × Option HostEditError :=
  match s.hosts.find host.id with
  | none => (s, some (.hostNotFound host.id))
  | some _ => s.commit <|
    if host.base.virtualizationServiceId.all s.children.hasService then
      some { s with hosts := s.hosts.set host } else none

section Sync
variable (hostId networkId : Uuid)

def syncRows {I : Type} (inputId : I → Uuid) (delete : List Uuid → EditStore → EditStore)
    (put : I × ℕ → EditStore → EditStore × Option HostEditError) (existingIds : List Uuid)
    (inputs : List I) (s : EditStore) : EditStore × Option HostEditError :=
  each put inputs.zipIdx (delete (existingIds.filter fun id => id ∉ inputs.map inputId) s)

def putIpAddress (existing : List IPAddress) (p : IPAddressInput × ℕ) (s : EditStore) :
    EditStore × Option HostEditError :=
  let ipAddress := p.1.intoIpAddress hostId networkId ctx.now
  s.commit <|
    if ipAddress.base.subnetId ∉ ctx.subnets then none
    else
      (saveRow ipAddressesUniqueLive preserveIpAddress s.children.ipAddresses existing ipAddress
        (ctx.draw (.child .ipAddress p.2))).map fun ipAddresses =>
          { s with children := { s.children with ipAddresses } }

def syncIpAddresses (inputs : List IPAddressInput) (s : EditStore) :
    EditStore × Option HostEditError :=
  let existing := s.children.ipAddressesOf hostId
  match resolveAndValidateInputPositions (inputs.map fun i => (i.id, i.position))
    (existing.map fun i => (i.id, i.base.position)) with
  | .error e => (s, some (.positions .ipAddress e))
  | .ok positions =>
    let inputs := List.zipWith (fun position (i : IPAddressInput) =>
      { i with position := some position }) positions inputs
    s.syncRows (fun i => i.id) deleteIpAddresses (putIpAddress ctx hostId networkId existing)
      (existing.map fun i => i.id) inputs

def putPort (existing : List Port) (p : PortInput × ℕ) (s : EditStore) :
    EditStore × Option HostEditError :=
  s.commit <| (saveRow portsUniqueLive (fun _ new => new) s.children.ports existing
    (p.1.intoPort hostId networkId ctx.now) (ctx.draw (.child .port p.2))).map fun ports =>
      { s with children := { s.children with ports } }

def syncPorts (inputs : List PortInput) (s : EditStore) : EditStore × Option HostEditError :=
  let existing := s.children.portsOf hostId
  s.syncRows (fun i => i.id) deletePorts (putPort ctx hostId networkId existing)
    (existing.map fun p => p.id) inputs

def losesBindings (existing : List TrackedService) (input : TaggedServiceInput) : Bool :=
  (existing.find? (·.id = input.id)).any fun stored =>
    (portClaims stored.base.bindings).any fun claim =>
      claim ∉ input.bindings.filterMap fun b => ChildInput.portKey b.bindingType

def orderServices (existing : List TrackedService) (inputs : List TaggedServiceInput) :
    Except PositionError (List TaggedServiceInput) :=
  (resolveAndValidateInputPositions (inputs.map fun i => (i.id, i.position))
    (existing.map fun s => (s.id, s.base.position))).map fun positions =>
    let inputs := List.zipWith (fun position (i : TaggedServiceInput) =>
      { i with position := some position }) positions inputs
    inputs.filter (losesBindings existing) ++ inputs.filter fun i => !losesBindings existing i

def serviceRequest (existing : List TrackedService) (p : TaggedServiceInput × ℕ) : ServiceRequest :=
  let service := p.1.intoService hostId networkId ctx.now
  match existing.find? (·.id = p.1.id) with
  | some stored => .update (preserveService stored service)
  | none => .create service (ctx.draw (.child .service p.2)) ctx.now

def putService (existing : List TrackedService) (p : TaggedServiceInput × ℕ) (s : EditStore) :
    EditStore × Option HostEditError :=
  match s.children.check ctx.defs (serviceRequest ctx hostId networkId existing p) with
  | .error e => (s, some (.service e))
  | .ok w =>
    if s.children.ownerStored w.service then
      match s.children.write (fun k => ctx.draw (.binding p.2 k)) w with
      | (children, false) => ({ s with children }, some .database)
      | (children, true) =>
        -- a `create` that was merged into a stored service leaves its tags
        if (existing.find? (·.id = p.1.id)).isNone && w.mode = .update then
          ({ s with children }, none)
        else { s with children }.setTags ctx (some p.2) (w.service.id, .service) p.1.tags
    else (s, some .database)

def syncServices (inputs : List TaggedServiceInput) (s : EditStore) :
    EditStore × Option HostEditError :=
  let existing := s.children.servicesOf hostId
  match orderServices existing inputs with
  | .error e => (s, some (.positions .service e))
  | .ok inputs => s.syncRows (fun i : TaggedServiceInput => i.id) (deleteServices ctx.now)
      (putService ctx hostId networkId existing) (existing.map (·.id)) inputs

end Sync

/-- A part that is left out changes nothing. -/
def syncProvided {I : Type} (sync : List I → EditStore → EditStore × Option HostEditError)
    (inputs : Option (List I)) (s : EditStore) : EditStore × Option HostEditError :=
  match inputs with
  | none => (s, none)
  | some inputs => sync inputs s

def syncChildren (request : HostUpdateRequest) (networkId : Uuid) :
    EditStore → EditStore × Option HostEditError :=
  andThen (syncProvided (syncIpAddresses ctx request.id networkId) request.ipAddresses) <|
    andThen (syncProvided (syncPorts ctx request.id networkId) request.ports) <|
      syncProvided (syncServices ctx request.id networkId) request.services

def updateFromRequest (request : HostUpdateRequest) (s : EditStore) :
    EditStore × Option HostEditError :=
  match s.hosts.find request.id with
  | none => (s, some (.hostNotFound request.id))
  | some existing =>
    match request.expectedUpdatedAt.filter (· ≠ existing.base.updatedAt) with
    | some expected => (s, some (.modified expected existing.base.updatedAt))
    | none =>
      match request.edit.virtualizationServiceId.filter (!s.children.hasService ·) with
      | some id => (s, some (.unknownVirtualizationService id))
      | none =>
        andThen (setTags ctx none (request.id, .host) request.tags)
          (andThen (updateHost (editHost existing request.edit ctx.now))
            (syncChildren ctx request existing.base.networkId)) s

end EditStore

open Commits

inductive RefusedFirst (ctx : EditContext) (request : HostUpdateRequest) (s : EditStore) : Prop
  | hostNotFound (h : ∀ r ∈ s.hosts, r.id ≠ request.id)
  | modified {existing : TrackedHost} {expected : Timestamp} (hmem : existing ∈ s.hosts)
    (hid : existing.id = request.id) (hexpected : request.expectedUpdatedAt = some expected)
    (hne : expected ≠ existing.base.updatedAt)
  | unknownVirtualizationService {id : Uuid}
    (howner : request.edit.virtualizationServiceId = some id)
    (hnone : ∀ t ∈ s.children.services, t.id ≠ id)
  | tags {organizationId : Uuid} (horg : ctx.organizationId = some organizationId)
    (hrefused : ¬TagsAccepted ctx.tags s.entityTags (request.id, .host) request.tags organizationId)

def Stamped (hostId : Uuid) (now : Timestamp) (s : EditStore) : Prop :=
  ∃ r ∈ s.hosts, r.id = hostId ∧ r.base.updatedAt = now

namespace EditStore
variable {ctx : EditContext} {request : HostUpdateRequest} {s s' : EditStore}
  {hostId networkId id : Uuid} {now time : Timestamp}

theorem stamped_of_hosts (h : Stamped id time s) (hhosts : s'.hosts = s.hosts) :
    Stamped id time s' := by
  unfold Stamped
  rwa [hhosts]

theorem stamped_commit {o : Option EditStore} (h : Stamped id time s)
    (ho : ∀ s' ∈ o, s'.hosts = s.hosts) : Stamped id time (s.commit o).1 := by
  cases o with
  | none => exact h
  | some s' => exact stamped_of_hosts h (ho s' rfl)

theorem hosts_setTags (ctx : EditContext) (n : Option ℕ) (entity : TaggedEntity)
    (tagIds : List Uuid) (s : EditStore) : (s.setTags ctx n entity tagIds).1.hosts = s.hosts := by
  unfold setTags
  split
  · rfl
  · split <;> rfl

theorem children_setTags (ctx : EditContext) (n : Option ℕ) (entity : TaggedEntity)
    (tagIds : List Uuid) (s : EditStore) :
    (s.setTags ctx n entity tagIds).1.children = s.children := by
  unfold setTags
  split
  · rfl
  · split <;> rfl

theorem stamped_deleteServices (ids : List Uuid) (h : Stamped id time s) :
    Stamped id time (s.deleteServices now ids) := by
  obtain ⟨r, hr, hid, htime⟩ := h
  exact ⟨TrackedHost.releaseOwners ids r, List.mem_map_of_mem hr, hid, htime⟩

section Sync
variable {I : Type} {inputId : I → Uuid} {delete : List Uuid → EditStore → EditStore}
  {put : I × ℕ → EditStore → EditStore × Option HostEditError} {existingIds : List Uuid}
  {inputs : List I}

theorem stamped_syncRows (hdelete : ∀ ids s, Stamped id time s → Stamped id time (delete ids s))
    (hput : ∀ p s, Stamped id time s → Stamped id time (put p s).1) (h : Stamped id time s) :
    Stamped id time (s.syncRows inputId delete put existingIds inputs).1 :=
  invariant_of_each (fun p _ s => hput p s) (hdelete _ s h)

theorem stamped_syncProvided {sync : List I → EditStore → EditStore × Option HostEditError}
    (hsync : ∀ inputs s, Stamped id time s → Stamped id time (sync inputs s).1)
    (inputs : Option (List I)) (h : Stamped id time s) :
    Stamped id time (s.syncProvided sync inputs).1 := by
  cases inputs with
  | none => exact h
  | some inputs => exact hsync inputs s h

theorem stamped_putIpAddress {existing : List IPAddress} (p : IPAddressInput × ℕ)
    (h : Stamped id time s) : Stamped id time (s.putIpAddress ctx hostId networkId existing p).1 := by
  refine stamped_commit h fun s' hs' => ?_
  split_ifs at hs' with hsubnet
  · obtain ⟨_, -, rfl⟩ := map_eq_some_iff.mp hs'
    rfl
  · cases hs'

theorem stamped_syncIpAddresses (inputs : List IPAddressInput) (h : Stamped id time s) :
    Stamped id time (s.syncIpAddresses ctx hostId networkId inputs).1 := by
  unfold syncIpAddresses
  dsimp only
  split
  · exact h
  · exact stamped_syncRows (fun _ _ hs => stamped_of_hosts hs rfl)
      (fun p _ hs => stamped_putIpAddress p hs) h

theorem stamped_putPort {existing : List Port} (p : PortInput × ℕ) (h : Stamped id time s) :
    Stamped id time (s.putPort ctx hostId networkId existing p).1 := by
  refine stamped_commit h fun s' hs' => ?_
  obtain ⟨_, -, rfl⟩ := map_eq_some_iff.mp hs'
  rfl

theorem stamped_syncPorts (inputs : List PortInput) (h : Stamped id time s) :
    Stamped id time (s.syncPorts ctx hostId networkId inputs).1 :=
  stamped_syncRows (fun _ _ hs => stamped_of_hosts hs rfl) (fun p _ hs => stamped_putPort p hs) h

theorem hosts_putService {existing : List TrackedService} (p : TaggedServiceInput × ℕ)
    (s : EditStore) : (s.putService ctx hostId networkId existing p).1.hosts = s.hosts := by
  unfold putService
  split
  · rfl
  · split
    · split
      · rfl
      · split
        · rfl
        · exact hosts_setTags _ _ _ _ _
    · rfl

theorem stamped_syncServices (inputs : List TaggedServiceInput) (h : Stamped id time s) :
    Stamped id time (s.syncServices ctx hostId networkId inputs).1 := by
  unfold syncServices
  dsimp only
  split
  · exact h
  · exact stamped_syncRows (fun _ _ hs => stamped_deleteServices _ hs)
      (fun p s hs => stamped_of_hosts hs (hosts_putService p s)) h

theorem stamped_syncChildren (h : Stamped id time s) :
    Stamped id time (s.syncChildren ctx request networkId).1 := by
  refine invariant_of_andThen (P := Stamped id time) (fun s hs => ?_) (fun s hs => ?_) h
  · exact stamped_syncProvided (fun inputs _ hs => stamped_syncIpAddresses inputs hs) _ hs
  · refine invariant_of_andThen (P := Stamped id time) (fun s hs => ?_) (fun s hs => ?_) hs
    · exact stamped_syncProvided (fun inputs _ hs => stamped_syncPorts inputs hs) _ hs
    · exact stamped_syncProvided (fun inputs _ hs => stamped_syncServices inputs hs) _ hs

end Sync

theorem updatedAt_editHost (existing : TrackedHost) (edit : HostEdit) (now : Timestamp) :
    (editHost existing edit now).base.updatedAt = now := by
  unfold editHost
  dsimp only
  split_ifs with hname
  · rcases TrackedHostBase.applyNameOf_eq _ (HostName.manual edit.name) with h | ⟨_, _, h⟩ <;> rw [h]
  · rfl

theorem owner_editHost (existing : TrackedHost) (edit : HostEdit) (now : Timestamp) :
    (editHost existing edit now).base.virtualizationServiceId = edit.virtualizationServiceId := by
  unfold editHost
  dsimp only
  split_ifs with hname
  · rcases TrackedHostBase.applyNameOf_eq _ (HostName.manual edit.name) with h | ⟨_, _, h⟩ <;> rw [h]
  · rfl

theorem setTags_ok_iff {n : Option ℕ} {entity : TaggedEntity} {tagIds : List Uuid}
    (hdraws : s.entityTags.DrawsFresh (fun tagId => ctx.draw (.tag n tagId)) tagIds) :
    (s.setTags ctx n entity tagIds).2 = none ↔ ∀ organizationId ∈ ctx.organizationId,
      TagsAccepted ctx.tags s.entityTags entity tagIds organizationId := by
  unfold setTags
  cases ctx.organizationId with
  | none => exact iff_of_true rfl nofun
  | some organizationId =>
    simp only [mem_some_iff, forall_eq']
    rw [← isSome_setTags_iff ctx.now hdraws]
    split
    next hset => exact iff_of_true rfl (by rw [hset]; rfl)
    next hset => exact iff_of_false nofun (by rw [hset]; nofun)

theorem setTags_atomic (n : Option ℕ) (entity : TaggedEntity) (tagIds : List Uuid) :
    Atomic (setTags ctx n entity tagIds) := by
  intro s hfailed
  unfold setTags at hfailed ⊢
  split at hfailed
  · exact absurd rfl hfailed
  · split at hfailed
    · exact absurd rfl hfailed
    · rfl

theorem updateHost_of_stored (host : TrackedHost) (hhost : ∃ r ∈ s.hosts, r.id = host.id)
    (howner : host.base.virtualizationServiceId.all s.children.hasService = true) :
    s.updateHost host = ({ s with hosts := s.hosts.set host }, none) := by
  obtain ⟨r, hr, hid⟩ := hhost
  unfold updateHost
  rw [Table.find_eq_some.mpr ⟨hr, hid⟩]
  dsimp only
  rw [if_pos howner]
  rfl

theorem stamped_of_accepted {existing : TrackedHost} (hmem : existing ∈ s.hosts)
    (hid : existing.id = request.id)
    (howner : request.edit.virtualizationServiceId.all s.children.hasService = true)
    (htags : (s.setTags ctx none (request.id, .host) request.tags).2 = none) :
    Stamped request.id ctx.now
      (andThen (setTags ctx none (request.id, .host) request.tags)
        (andThen (updateHost (editHost existing request.edit ctx.now))
          (syncChildren ctx request networkId)) s).1 := by
  have hhosts := hosts_setTags ctx none (request.id, .host) request.tags s
  have hchildren := children_setTags ctx none (request.id, .host) request.tags s
  have hupdate := updateHost_of_stored
    (s := (s.setTags ctx none (request.id, .host) request.tags).1)
    (editHost existing request.edit ctx.now) (by rw [hhosts]; exact ⟨existing, hmem, rfl⟩)
    (by rw [hchildren, owner_editHost]; exact howner)
  rw [andThen_of_ok htags, andThen_of_ok (by rw [hupdate]), hupdate]
  refine stamped_syncChildren ⟨editHost existing request.edit ctx.now, ?_, hid, ?_⟩
  · have hstored : existing ∈ (s.setTags ctx none (request.id, .host) request.tags).1.hosts := by
      rwa [hhosts]
    exact Table.mem_set_self hstored rfl
  · exact updatedAt_editHost existing request.edit ctx.now

/-- What is refused first leaves the store as it was; whatever else the call answers, the row of the
host has its new version. -/
theorem updateFromRequest_cases (ctx : EditContext) (request : HostUpdateRequest) (s : EditStore)
    (hdraws : s.entityTags.DrawsFresh (fun tagId => ctx.draw (.tag none tagId)) request.tags) :
    (RefusedFirst ctx request s ∧ (s.updateFromRequest ctx request).1 = s) ∨
      (¬RefusedFirst ctx request s ∧
        Stamped request.id ctx.now (s.updateFromRequest ctx request).1) := by
  unfold updateFromRequest
  cases hfind : s.hosts.find request.id with
  | none =>
    refine .inl ⟨.hostNotFound fun r hr hid => ?_, rfl⟩
    exact absurd (hfind.symm.trans (Table.find_eq_some.mpr ⟨hr, hid⟩)) nofun
  | some existing =>
    obtain ⟨hmem, hid⟩ := Table.find_eq_some.mp hfind
    dsimp only
    cases hexpected : request.expectedUpdatedAt.filter (· ≠ existing.base.updatedAt) with
    | some expected =>
      obtain ⟨hsome, hne⟩ := filter_eq_some_iff.mp hexpected
      exact .inl ⟨.modified hmem hid hsome (of_decide_eq_true hne), rfl⟩
    | none =>
      dsimp only
      cases howner : request.edit.virtualizationServiceId.filter
          (!s.children.hasService ·) with
      | some id =>
        obtain ⟨hsome, hunknown⟩ := filter_eq_some_iff.mp howner
        refine .inl ⟨.unknownVirtualizationService hsome fun t ht htid => ?_, rfl⟩
        rw [ServiceStore.hasService_eq_true.mpr ⟨t, ht, htid⟩] at hunknown
        exact absurd hunknown nofun
      | none =>
        dsimp only
        have hknown : request.edit.virtualizationServiceId.all s.children.hasService = true := by
          rw [all_eq_true]
          intro id hsome
          simpa using filter_eq_none_iff.mp howner id hsome
        by_cases htags : (s.setTags ctx none (request.id, .host) request.tags).2 = none
        · refine .inr ⟨?_, stamped_of_accepted hmem hid hknown htags⟩
          -- each of the first checks was passed
          rintro (h | ⟨hmem', hid', hsome, hne⟩ | ⟨hsome, hnone⟩ | ⟨horg, hrefused⟩)
          · exact h existing hmem hid
          · rw [s.hosts.eq_of_key hmem' hmem (hid'.trans hid.symm)] at hne
            exact absurd (decide_eq_true hne) (filter_eq_none_iff.mp hexpected _ hsome)
          · obtain ⟨t, ht, htid⟩ := ServiceStore.hasService_eq_true.mp
              ((all_eq_true _ _).mp hknown _ hsome)
            exact hnone t ht htid
          · exact hrefused ((setTags_ok_iff hdraws).mp htags _ horg)
        · refine .inl ⟨?_, ?_⟩
          · rw [setTags_ok_iff hdraws] at htags
            push Not at htags
            obtain ⟨organizationId, horg, hrefused⟩ := htags
            exact .tags horg hrefused
          · rw [andThen_of_failed htags]
            exact setTags_atomic none _ _ s htags

/-- A refused edit leaves every row as it was if it is refused before the first write, and in no
other case. -/
theorem refused_eq_self_iff
    (hclock : ∀ r ∈ s.hosts, r.id = request.id → r.base.updatedAt < ctx.now)
    (hdraws : s.entityTags.DrawsFresh (fun tagId => ctx.draw (.tag none tagId)) request.tags) :
    ∀ e, (s.updateFromRequest ctx request).2 = some e →
      ((s.updateFromRequest ctx request).1 = s ↔ RefusedFirst ctx request s) := by
  intro _ _
  rcases updateFromRequest_cases ctx request s hdraws with ⟨hfirst, hsame⟩ | ⟨hlater, hstamped⟩
  · exact iff_of_true hsame hfirst
  · refine iff_of_false (fun hsame => ?_) hlater
    rw [hsame] at hstamped
    obtain ⟨r, hr, hid, htime⟩ := hstamped
    exact absurd htime (hclock r hr hid).ne

section Nas

def nasHost : TrackedHost :=
  ⟨10, 0, 0, none, none, {
    name := "nas", nameSource := .hostname, networkId := 1, hostname := none, description := none
    source := .discovery, virtualizationMetadata := none, virtualizationServiceId := none
    hidden := false, texts := fun _ => none, updatedAt := 3, lastSeenAt := 2
    lastDiscoveryId := none, firstDiscoveryId := none }⟩

def nasStore : EditStore where
  hosts := ⟨[nasHost], List.nodup_singleton _⟩
  entityTags := .empty
  hostCredentials := .empty
  children := ⟨.empty, .empty, .empty, .empty⟩

def nasContext : EditContext where
  now := 5
  organizationId := some 7
  defs := ⟨fun _ => false, fun _ => false, fun _ => false⟩
  tags := fun _ => none
  subnets := []
  draw := fun _ => 99

def nasEdit : HostEdit := ⟨"nas", none, some "in the attic", none, none, false⟩

def nasServices : List TaggedServiceInput :=
  [⟨⟨21, "SSH", "ssh", [], none, none, some 0⟩, []⟩, ⟨⟨22, "SMB", "smb", [], none, none, none⟩, []⟩]

def nasRequest (expectedUpdatedAt : Option Timestamp) : HostUpdateRequest where
  id := 10
  edit := nasEdit
  expectedUpdatedAt := expectedUpdatedAt
  services := some nasServices

theorem drawsFresh_nasStore :
    nasStore.entityTags.DrawsFresh (fun tagId => nasContext.draw (.tag none tagId)) [] :=
  ⟨nofun, nofun⟩

theorem clock_nasStore : ∀ r ∈ nasStore.hosts, r.id = 10 → r.base.updatedAt < nasContext.now := by
  intro r hr _
  rw [List.mem_singleton.mp hr]
  decide

/-- The client has loaded the host before it was written last. -/
theorem refused_eq_self_nasStore :
    (nasStore.updateFromRequest nasContext (nasRequest (some 2))).1 = nasStore :=
  (refused_eq_self_iff clock_nasStore drawsFresh_nasStore (.modified 2 3) rfl).mpr
    (.modified (List.mem_singleton_self nasHost) rfl rfl (by decide))

/-- The positions of the services are refused when the row of the host is written. -/
theorem not_refused_eq_self :
    ¬∀ (ctx : EditContext) (request : HostUpdateRequest) (s : EditStore),
      (s.updateFromRequest ctx request).2 ≠ none → (s.updateFromRequest ctx request).1 = s := by
  intro h
  have hsame := h nasContext (nasRequest none) nasStore (by decide)
  have hrow := congrArg (fun s : EditStore => s.hosts.rows.map (·.base.updatedAt)) hsame
  exact absurd hrow (by decide)

end Nas

end EditStore
end Scanopy
