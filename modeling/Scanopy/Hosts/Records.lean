import Mathlib.Data.Fintype.Pi
import Scanopy.Shared.Freshness
import Scanopy.Shared.Text

/-! The row of a host with all its columns, and what a scan and a user make of it. The tags and the
credentials of a host stand in tables of their own. -/

namespace Scanopy

inductive HostNameSource
  | unspecified | ip | detectedService | hostname | integration | manual
  deriving DecidableEq

def HostNameSource.rank : HostNameSource → ℕ
  | unspecified => 0
  | ip => 1
  | detectedService => 2
  | hostname => 3
  | integration => 4
  | manual => 5

structure HostName where
  value : String
  source : HostNameSource
  deriving DecidableEq

def HostName.nonBlank (value : String) (source : HostNameSource) : Option HostName :=
  if trim value = "" then none else some ⟨value, source⟩

def HostName.fromHostname (value : String) : Option HostName := nonBlank value .hostname

def HostName.manual (value : String) : Option HostName := nonBlank value .manual

structure GuestDetails where
  vmName : Option String
  vmId : Option String
  deriving DecidableEq

inductive HostVirtualization
  | proxmox (details : GuestDetails)
  | vCenter (details : GuestDetails)
  | esxi (details : GuestDetails)
  deriving DecidableEq

/-- The texts that a scan reads off a device, each in a column of its own. -/
inductive HostText
  | sysDescr | sysObjectId | sysLocation | sysContact | managementUrl | chassisId | sysName
  | manufacturer | model | serialNumber
  deriving DecidableEq

def HostText.all : List HostText :=
  [.sysDescr, .sysObjectId, .sysLocation, .sysContact, .managementUrl, .chassisId, .sysName,
    .manufacturer, .model, .serialNumber]

instance : Fintype HostText := ⟨HostText.all.toFinset, fun column => by cases column <;> decide⟩

structure TrackedHostBase where
  name : String
  nameSource : HostNameSource
  networkId : Uuid
  hostname : Option String
  description : Option String
  source : EntitySource
  virtualizationMetadata : Option HostVirtualization
  virtualizationServiceId : Option Uuid
  hidden : Bool
  texts : HostText → Option String
  updatedAt : Timestamp
  lastSeenAt : Timestamp
  lastDiscoveryId : Option Uuid
  firstDiscoveryId : Option Uuid
  deriving DecidableEq

abbrev TrackedHost := Row TrackedHostBase

instance : Sighted TrackedHostBase where
  lastSeenAt := (·.lastSeenAt)
  isDiscoveryManaged b := b.source.isFromDiscovery

namespace TrackedHostBase

def applyName (b : TrackedHostBase) (candidate : HostName) : TrackedHostBase × Bool :=
  if candidate.source.rank < b.nameSource.rank then (b, false)
  else if b.name = candidate.value ∧ b.nameSource = candidate.source then (b, false)
  else ({ b with name := candidate.value, nameSource := candidate.source }, true)

def applyNameOf (b : TrackedHostBase) (candidate : Option HostName) : TrackedHostBase × Bool :=
  match candidate with
  | some candidate => b.applyName candidate
  | none => (b, false)

def upsertName (b : TrackedHostBase) (candidate : Option HostName) : TrackedHostBase × Bool :=
  let (b, named) := b.applyNameOf candidate
  let (b, named') := b.applyNameOf (b.hostname.bind HostName.fromHostname)
  (b, named || named')

def nameCandidate (b : TrackedHostBase) : Option HostName := HostName.nonBlank b.name b.nameSource

end TrackedHostBase

theorem TrackedHostBase.applyNameOf_eq (b : TrackedHostBase) (candidate : Option HostName) :
    b.applyNameOf candidate = (b, false) ∨
      ∃ name nameSource, b.applyNameOf candidate = ({ b with name, nameSource }, true) := by
  cases candidate with
  | none => exact .inl rfl
  | some candidate =>
    rw [applyNameOf, applyName]
    split_ifs
    · exact .inl rfl
    · exact .inl rfl
    · exact .inr ⟨candidate.value, candidate.source, rfl⟩

theorem TrackedHostBase.upsertName_eq (b : TrackedHostBase) (candidate : Option HostName) :
    b.upsertName candidate = (b, false) ∨
      ∃ name nameSource, b.upsertName candidate = ({ b with name, nameSource }, true) := by
  unfold upsertName
  rcases b.applyNameOf_eq candidate with hname | ⟨name, nameSource, hname⟩
  · rw [hname]
    exact applyNameOf_eq _ _
  · rw [hname]
    right
    rcases applyNameOf_eq ({ b with name, nameSource } : TrackedHostBase)
      (b.hostname.bind HostName.fromHostname) with hagain | ⟨name', nameSource', hagain⟩
    · refine ⟨name, nameSource, ?_⟩
      dsimp only
      rw [hagain]
      rfl
    · refine ⟨name', nameSource', ?_⟩
      dsimp only
      rw [hagain]
      rfl

inductive HostField
  | createdAt | validFrom | validTo | lineageId | name | nameSource | networkId | hostname
  | description | source | virtualizationMetadata | virtualizationServiceId | hidden
  | text (column : HostText) | updatedAt
  deriving DecidableEq

def HostField.all : List HostField :=
  [.createdAt, .validFrom, .validTo, .lineageId, .name, .nameSource, .networkId, .hostname,
    .description, .source, .virtualizationMetadata, .virtualizationServiceId, .hidden, .updatedAt] ++
    HostText.all.map .text

instance : Fintype HostField := ⟨HostField.all.toFinset, fun f => by
  cases f with
  | text column => cases column <;> decide
  | _ => decide⟩

abbrev HostField.Value : HostField → Type
  | createdAt | validFrom | updatedAt => Timestamp
  | validTo => Option Timestamp
  | lineageId | virtualizationServiceId => Option Uuid
  | name => String
  | nameSource => HostNameSource
  | networkId => Uuid
  | hostname | description | text _ => Option String
  | source => EntitySource
  | virtualizationMetadata => Option HostVirtualization
  | hidden => Bool

def HostField.get : (f : HostField) → TrackedHost → f.Value
  | createdAt, h => h.createdAt
  | validFrom, h => h.validFrom
  | validTo, h => h.validTo
  | lineageId, h => h.lineageId
  | name, h => h.base.name
  | nameSource, h => h.base.nameSource
  | networkId, h => h.base.networkId
  | hostname, h => h.base.hostname
  | description, h => h.base.description
  | source, h => h.base.source
  | virtualizationMetadata, h => h.base.virtualizationMetadata
  | virtualizationServiceId, h => h.base.virtualizationServiceId
  | hidden, h => h.base.hidden
  | text column, h => h.base.texts column
  | updatedAt, h => h.base.updatedAt

instance : (f : HostField) → DecidableEq f.Value
  | .createdAt | .validFrom | .updatedAt => inferInstanceAs (DecidableEq Timestamp)
  | .validTo => inferInstanceAs (DecidableEq (Option Timestamp))
  | .lineageId | .virtualizationServiceId => inferInstanceAs (DecidableEq (Option Uuid))
  | .name => inferInstanceAs (DecidableEq String)
  | .nameSource => inferInstanceAs (DecidableEq HostNameSource)
  | .networkId => inferInstanceAs (DecidableEq Uuid)
  | .hostname | .description | .text _ => inferInstanceAs (DecidableEq (Option String))
  | .source => inferInstanceAs (DecidableEq EntitySource)
  | .virtualizationMetadata => inferInstanceAs (DecidableEq (Option HostVirtualization))
  | .hidden => inferInstanceAs (DecidableEq Bool)

/-- What `upsert_host` writes over the stored host, and the fields that it fills on the way. -/
structure UpsertedHost where
  host : TrackedHost
  fills : HostField → Bool

/-- A scan fills what is empty, and the name if it is at least as authoritative. -/
def upsertHost (existing new : TrackedHost) : UpsertedHost :=
  let fillsHostname := existing.base.hostname.isNone && new.base.hostname.any (· ≠ "")
  let b := { existing.base with
    lastSeenAt := new.base.lastSeenAt
    hostname := if fillsHostname then new.base.hostname else existing.base.hostname }
  let (b, named) := b.upsertName new.base.nameCandidate
  let fillsText := fun column =>
    (existing.base.texts column).isNone && (new.base.texts column).isSome
  let fillsSource := decide (new.base.source = .discovery) &&
    decide (existing.base.source ≠ .discovery)
  { host := { existing with base := { b with
      texts := fun column =>
        if fillsText column then new.base.texts column else existing.base.texts column
      source := if fillsSource then .discovery else existing.base.source } }
    fills := fun
      | .hostname => fillsHostname
      | .name | .nameSource => named
      | .text column => fillsText column
      | .source => fillsSource
      | _ => false }

theorem upsertHost_id (existing new : TrackedHost) :
    (upsertHost existing new).host.id = existing.id := by
  unfold upsertHost
  rfl

/-- What a user sends of a host; the children come separately. -/
structure HostEdit where
  name : String
  hostname : Option String
  description : Option String
  virtualizationMetadata : Option HostVirtualization
  virtualizationServiceId : Option Uuid
  hidden : Bool
  deriving DecidableEq

/-- The row of `update_from_request`: the name counts as given by a person only if it is another
one. -/
def editHost (existing : TrackedHost) (edit : HostEdit) (now : Timestamp) : TrackedHost :=
  let b := { existing.base with
    hostname := edit.hostname
    description := edit.description
    virtualizationMetadata := edit.virtualizationMetadata
    virtualizationServiceId := edit.virtualizationServiceId
    hidden := edit.hidden
    updatedAt := now }
  { existing with base :=
      if edit.name ≠ b.name then (b.applyNameOf (HostName.manual edit.name)).1 else b }

def HostEdit.sets (existing : TrackedHost) (edit : HostEdit) : HostField → Bool
  | .hostname | .description | .virtualizationMetadata | .virtualizationServiceId | .hidden
  | .updatedAt => true
  | .name | .nameSource =>
    decide (edit.name ≠ existing.base.name) && (HostName.manual edit.name).isSome
  | _ => false

end Scanopy
