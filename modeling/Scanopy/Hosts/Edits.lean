import Scanopy.Hosts.Children
import Scanopy.Hosts.Records
import Scanopy.Shared.Positions

/-! Edits of a host with its children. The server compares the version that the client has loaded,
writes the row and then brings the children into line, one statement after the other; scans and
other clients write meanwhile. -/

namespace Scanopy

inductive ChildKind
  | ipAddress
  | port
  | service
  deriving DecidableEq

inductive ChildRow
  | ipAddress (row : IPAddress)
  | port (row : TrackedPort)
  | service (row : TrackedService)
  deriving DecidableEq

namespace ChildRow

def kind : ChildRow → ChildKind
  | ipAddress _ => .ipAddress
  | port _ => .port
  | service _ => .service

def id : ChildRow → Uuid
  | ipAddress row => row.id
  | port row => row.id
  | service row => row.id

/-- Keys are sought in lists by it, as in `EditSystem.ownersOf`. -/
instance lawfulBEqChildKey : LawfulBEq (ChildKind × Uuid) := inferInstance

def key (c : ChildRow) : ChildKind × Uuid := (c.kind, c.id)

def hostId : ChildRow → Uuid
  | ipAddress row => row.base.hostId
  | port row => row.base.hostId
  | service row => row.base.hostId

def position : ChildRow → ℤ
  | ipAddress row => row.base.position
  | port _ => 0
  | service row => row.base.position

def bindings : ChildRow → List Binding
  | service row => row.base.bindings
  | ipAddress _ | port _ => []

/-- `preserve_immutable_fields`, from the stored child. -/
def preserveImmutableFields : ChildRow → ChildRow → ChildRow
  | ipAddress new, ipAddress existing => ipAddress { new with
      createdAt := existing.createdAt
      base := { new.base with macAddress := existing.base.macAddress.or new.base.macAddress } }
  | service new, service existing => service { new with
      base := { new.base with
        source := existing.base.source
        virtualizationMetadata :=
          new.base.virtualizationMetadata.or existing.base.virtualizationMetadata
        virtualizationServiceId :=
          new.base.virtualizationServiceId.or existing.base.virtualizationServiceId } }
  | new, _ => new

end ChildRow

abbrev ChildTable := Table ChildRow.key

structure BindingInput where
  id : Uuid
  bindingType : BindingType
  deriving DecidableEq

structure IPAddressInput where
  id : Uuid
  subnetId : Uuid
  ipAddress : IpAddr
  macAddress : Option MacAddress
  name : Option String
  position : Option ℤ
  deriving DecidableEq

structure PortInput where
  id : Uuid
  number : BitVec 16
  protocol : TransportProtocol
  deriving DecidableEq

structure ServiceInput where
  id : Uuid
  serviceDefinition : String
  name : String
  bindings : List BindingInput
  virtualizationMetadata : Option ServiceVirtualization
  virtualizationServiceId : Option Uuid
  position : Option ℤ
  deriving DecidableEq

inductive ChildInput
  | ipAddress (input : IPAddressInput)
  | port (input : PortInput)
  | service (input : ServiceInput)
  deriving DecidableEq

namespace ChildInput

def kind : ChildInput → ChildKind
  | ipAddress _ => .ipAddress
  | port _ => .port
  | service _ => .service

def id : ChildInput → Uuid
  | ipAddress input => input.id
  | port input => input.id
  | service input => input.id

def position : ChildInput → Option ℤ
  | ipAddress input => input.position
  | port _ => none
  | service input => input.position

def setPosition (value : ℤ) : ChildInput → ChildInput
  | ipAddress input => ipAddress { input with position := some value }
  | port input => port input
  | service input => service { input with position := some value }

/-- `into_ip_address`, `into_port` and `into_service`. -/
def toChild (hostId networkId : Uuid) (now : Timestamp) : ChildInput → ChildRow
  | ipAddress input => .ipAddress ⟨input.id, now, now, none, none, {
      networkId, hostId, subnetId := input.subnetId, ipAddress := input.ipAddress
      macAddress := input.macAddress, name := input.name, position := input.position.getD 0
      lastSeenAt := now }⟩
  | port input => .port ⟨input.id, now, now, none, none, {
      hostId, networkId, number := input.number, protocol := input.protocol, lastSeenAt := now }⟩
  | service input => .service ⟨input.id, now, now, none, none, {
      hostId, networkId, serviceDefinition := input.serviceDefinition, name := input.name
      bindings := input.bindings.map fun b =>
        ⟨b.id, now, now, none, none, ⟨input.id, networkId, b.bindingType⟩⟩
      virtualizationMetadata := input.virtualizationMetadata
      virtualizationServiceId := input.virtualizationServiceId
      source := .manual, position := input.position.getD 0, lastSeenAt := now }⟩

def portKey : BindingType → Option (Uuid × Option Uuid)
  | .port portId ipAddressId => some (portId, ipAddressId)
  | .ipAddress _ => none

/-- Keys are sought in lists by it, as in `losesPorts`. -/
instance lawfulBEqPortKey : LawfulBEq (Uuid × Option Uuid) := inferInstance

def losesPorts (existing : List ChildRow) : ChildInput → Bool
  | service input => (existing.find? fun c => c.id = input.id).any fun stored =>
    (stored.bindings.filterMap fun b => portKey b.base.bindingType).any fun key =>
      key ∉ input.bindings.filterMap fun b => portKey b.bindingType
  | ipAddress _ | port _ => false

end ChildInput

/-- What a client sends; children that are left out stay as they are. -/
structure UpdateHostRequest where
  edit : HostEdit
  ipAddresses : Option (List IPAddressInput) := none
  ports : Option (List PortInput) := none
  services : Option (List ServiceInput) := none
  deriving DecidableEq

def UpdateHostRequest.inputs (request : UpdateHostRequest) : ChildKind → Option (List ChildInput)
  | .ipAddress => request.ipAddresses.map (List.map .ipAddress)
  | .port => request.ports.map (List.map .port)
  | .service => request.services.map (List.map .service)

/-- The inputs with their positions, in the order in which they are written. Ports have no
positions. -/
def orderedInputs (kind : ChildKind) (inputs : List ChildInput) (existing : List ChildRow) :
    Except PositionError (List ChildInput) :=
  let placed := (resolveAndValidateInputPositions (inputs.map fun i => (i.id, i.position))
    (existing.map fun c => (c.id, c.position))).map fun positions =>
      List.zipWith ChildInput.setPosition positions inputs
  match kind with
  | .ipAddress => placed
  | .port => .ok inputs
  | .service => placed.map fun inputs =>
    inputs.filter (·.losesPorts existing) ++ inputs.filter fun i => !i.losesPorts existing

structure Submission where
  versioned : Bool
  request : UpdateHostRequest
  networkId : Uuid
  deriving DecidableEq

inductive EditPhase
  /-- The client has the host and has not sent it back. -/
  | loaded
  | update (sub : Submission) (existing : TrackedHost)
  | sync (sub : Submission) (kinds : List ChildKind)
  | delete (sub : Submission) (removed : List (ChildKind × Uuid)) (existing : List ChildRow)
    (inputs : List ChildInput) (kinds : List ChildKind)
  | put (sub : Submission) (existing : List ChildRow) (inputs : List ChildInput)
    (kinds : List ChildKind)
  deriving DecidableEq

structure HostEditCall where
  hostId : Uuid
  updatedAt : Timestamp
  children : List (ChildKind × Uuid)
  phase : EditPhase
  deriving DecidableEq

def HostEditCall.moveTo (c : HostEditCall) (phase : EditPhase) : HostEditCall := { c with phase }

structure EditSystem where
  hosts : EntityTable TrackedHostBase
  children : ChildTable
  edits : List (ℕ × HostEditCall) := []
  scans : List (ℕ × TrackedHost) := []

inductive EditStep
  | load (call : ℕ) (hostId : Uuid)
  | submit (call : ℕ) (request : UpdateHostRequest) (versioned : Bool)
  /-- The next statement of an edit. A service that is new can be merged into a stored one. -/
  | proceed (call : ℕ) (now : Timestamp) (merged : Option ChildRow)
  /-- A statement of an edit is refused. -/
  | refuse (call : ℕ)
  | readUpsert (scan : ℕ) (id : Uuid) (new : TrackedHost)
  | writeUpsert (scan : ℕ)
  /-- A scan or another client writes a child: a new one, or one that is stored. -/
  | writeChild (child : ChildRow)
  | deleteChildren (keys : List (ChildKind × Uuid))

namespace EditSystem
variable (s : EditSystem)

def edit (call : ℕ) : Option HostEditCall := (s.edits.find? (·.1 = call)).map Prod.snd

def scan (scan : ℕ) : Option TrackedHost := (s.scans.find? (·.1 = scan)).map Prod.snd

def childrenOf (hostId : Uuid) : List ChildRow :=
  s.children.rows.filter fun c => c.hostId = hostId

def advance (call : ℕ) (next : Option HostEditCall) : EditSystem :=
  { s with edits := (next.map (call, ·)).toList ++ s.edits.filter (·.1 ≠ call) }

def putChild (existing : List ChildRow) (child : ChildRow) (merged : Option ChildRow) :
    Option ChildTable :=
  match existing.find? fun c => c.key = child.key with
  | some stored => some (s.children.set (child.preserveImmutableFields stored))
  | none =>
    match merged with
    | some target =>
      if ∃ c ∈ s.children.rows, c.key = target.key ∧ c.hostId = child.hostId ∧
          target.hostId = child.hostId ∧ target.kind = child.kind then
        some (s.children.set target) else none
    | none => s.children.insertMany [child]

/-- The next statement of an edit: the system after it, or `none` if it is refused. The edit has
succeeded when no kind of children is left. -/
def editStatement (call : ℕ) (c : HostEditCall) (now : Timestamp) (merged : Option ChildRow) :
    Option EditSystem :=
  match c.phase with
  | .loaded => none
  | .update sub existing =>
    if (s.hosts.find existing.id).isSome then
      some ({ s with hosts := s.hosts.set (editHost existing sub.request.edit now) }.advance call
        (some (c.moveTo (.sync sub [.ipAddress, .port, .service]))))
    else none
  | .sync _ [] => some (s.advance call none)
  | .sync sub (kind :: kinds) =>
    match sub.request.inputs kind with
    | none => some (s.advance call (some (c.moveTo (.sync sub kinds))))
    | some inputs =>
      let existing := (s.childrenOf c.hostId).filter fun child => child.kind = kind
      match orderedInputs kind inputs existing with
      | .error _ => none
      | .ok ordered =>
        let removed := (existing.filter fun child =>
          child.id ∉ inputs.map ChildInput.id).map ChildRow.key
        some (s.advance call (some (c.moveTo (.delete sub removed existing ordered kinds))))
  | .delete sub removed existing inputs kinds =>
    some ({ s with children := s.children.delete (·.key ∈ removed) }.advance call
      (some (c.moveTo (.put sub existing inputs kinds))))
  | .put sub _ [] kinds => some (s.advance call (some (c.moveTo (.sync sub kinds))))
  | .put sub existing (input :: inputs) kinds =>
    (s.putChild existing (input.toChild c.hostId sub.networkId now) merged).map fun children =>
      { s with children }.advance call (some (c.moveTo (.put sub existing inputs kinds)))

def step : EditStep → Option EditSystem
  | .load call hostId =>
    if (s.edit call).isSome then none
    else (s.hosts.find hostId).map fun host => s.advance call (some {
      hostId := hostId, updatedAt := host.base.updatedAt
      children := (s.childrenOf hostId).map ChildRow.key, phase := .loaded })
  | .submit call request versioned => (s.edit call).bind fun c =>
    match c.phase, s.hosts.find c.hostId with
    | .loaded, some existing =>
      -- a version that is not the stored one is a conflict
      if versioned && existing.base.updatedAt ≠ c.updatedAt then some (s.advance call none)
      else some (s.advance call (some (c.moveTo
        (.update ⟨versioned, request, existing.base.networkId⟩ existing))))
    | .loaded, none => some (s.advance call none)
    | _, _ => none
  | .proceed call now merged => (s.edit call).bind fun c => s.editStatement call c now merged
  | .refuse call => (s.edit call).map fun _ => s.advance call none
  | .readUpsert scan id new =>
    if (s.scan scan).isSome then none
    else (s.hosts.find id).map fun existing => { s with
      scans := (scan, (upsertHost existing new).host) :: s.scans }
  | .writeUpsert scan => (s.scan scan).map fun row => { s with
      hosts := s.hosts.set row
      scans := s.scans.filter (·.1 ≠ scan) }
  | .writeChild child => some { s with children := s.children.put child }
  | .deleteChildren keys => some { s with children := s.children.delete (·.key ∈ keys) }

end EditSystem

def editLts (hosts : EntityTable TrackedHostBase) (children : ChildTable) :
    Lts EditSystem EditStep := ⟨{ hosts, children }, EditSystem.step⟩

end Scanopy
