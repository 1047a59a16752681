import Scanopy.Credentials.Junction
import Scanopy.Hosts.Matching
import Scanopy.Hosts.Records
import Scanopy.Services.Requests

/-! Consolidation of two hosts. Addresses and ports move to the destination unless it has them
already, services move with their bindings, and what is left of the other host is deleted with it.
-/

namespace Scanopy

open List

structure ConsolidationState where
  hosts : EntityTable TrackedHostBase
  /-- The hosts that a daemon runs on. -/
  daemonHosts : List Uuid
  children : ServiceStore
  hostCredentials : HostCredentials

inductive ConsolidateError
  | validation (message : String)
  /-- The update of a service fails a check, or is refused by the database. -/
  | service (name : String) (error : Option ServiceError)
  | hostNotFound (id : Uuid)
  | refused
  deriving DecidableEq

structure Absorption (B : Type) where
  table : EntityTable B
  idMap : HashMap Uuid Uuid

section Absorb
variable {B : Type} (findRow : Row B → Option (Row B)) (transfer : Row B → Row B)
variable {table : EntityTable B}

/-- A row that the destination has already stays where it is, and its id leads to that row. Any
other row is transferred, under its id. -/
def absorb (s : Absorption B) (row : Row B) : Absorption B :=
  match findRow row with
  | some dest => { s with idMap := s.idMap.insert row.id dest.id }
  | none => ⟨s.table.set (transfer row), s.idMap.insert row.id row.id⟩

def absorbAll (table : EntityTable B) (rows : List (Row B)) : Absorption B :=
  rows.foldl (absorb findRow transfer) ⟨table, HashMap.empty⟩

variable {findRow transfer} {rows : List (Row B)} {r row : Row B} {s : Absorption B}

theorem idMap_absorb (s : Absorption B) (row : Row B) :
    (absorb findRow transfer s row).idMap = s.idMap.insert row.id ((findRow row).getD row).id := by
  unfold absorb
  cases findRow row <;> rfl

theorem get_idMap_absorbAll (hnodup : (rows.map (·.id)).Nodup)
    (hrow : row ∈ rows) : (absorbAll findRow transfer table rows).idMap.get row.id =
      some ((findRow row).getD row).id := by
  have hfold : ∀ s : Absorption B, (rows.foldl (absorb findRow transfer) s).idMap =
      rows.foldl (fun m r => m.insert r.id ((findRow r).getD r).id) s.idMap := by
    clear hnodup hrow
    induction rows with
    | nil => exact fun _ => rfl
    | cons row rows ih =>
      intro s
      rw [foldl_cons, foldl_cons, ih, idMap_absorb]
  rw [absorbAll, hfold, HashMap.get_foldl_insert]
  have hmem : row ∈ rows.filter fun r => r.id = row.id := mem_filter.mpr ⟨hrow, decide_eq_true rfl⟩
  rw [getLast?_eq_some_getLast (ne_nil_of_mem hmem)]
  obtain ⟨hlast, hid⟩ := mem_filter.mp (getLast_mem (ne_nil_of_mem hmem))
  rw [inj_on_of_nodup_map hnodup hlast hrow (of_decide_eq_true hid)]
  rfl

variable (htransfer : ∀ r, (transfer r).id = r.id)
include htransfer

theorem mem_table_of_kept (hr : r ∈ s.table)
    (hkept : ∀ row ∈ rows, row.id = r.id → findRow row ≠ none) :
    r ∈ (rows.foldl (absorb findRow transfer) s).table := by
  induction rows generalizing s with
  | nil => exact hr
  | cons row rows ih =>
    rw [forall_mem_cons] at hkept
    refine ih ?_ hkept.2
    unfold absorb
    cases hfound : findRow row with
    | some dest => exact hr
    | none =>
      refine (Table.mem_set_of_ne fun hid => ?_).mpr hr
      rw [htransfer] at hid
      exact hkept.1 hid.symm hfound

theorem mem_table_of_transferred (hnodup : (rows.map (·.id)).Nodup) (hrow : row ∈ rows)
    (hstored : ∃ r ∈ s.table, r.id = row.id) (hnone : findRow row = none) :
    transfer row ∈ (rows.foldl (absorb findRow transfer) s).table := by
  induction rows generalizing s with
  | nil => exact absurd hrow not_mem_nil
  | cons row' rows ih =>
    rw [map_cons, nodup_cons] at hnodup
    rw [foldl_cons]
    rcases mem_cons.mp hrow with rfl | hrow
    · -- the rows after it have other ids
      refine mem_table_of_kept htransfer ?_ fun r hr hid => ?_
      · obtain ⟨r, hr, hid⟩ := hstored
        rw [absorb, hnone]
        exact Table.mem_set_self hr (hid.trans (htransfer row).symm)
      · rw [htransfer] at hid
        exact absurd (mem_map.mpr ⟨r, hr, hid⟩) hnodup.1
    · refine ih hnodup.2 hrow ?_
      obtain ⟨r, hr, hid⟩ := hstored
      have hne : row.id ≠ row'.id := fun heq => hnodup.1 (heq ▸ mem_map_of_mem hrow)
      refine ⟨r, ?_, hid⟩
      unfold absorb
      cases findRow row' with
      | some dest => exact hr
      | none =>
        refine (Table.mem_set_of_ne ?_).mpr hr
        rw [htransfer, hid]
        exact hne

theorem exists_mem_absorbAll (hnodup : (rows.map (·.id)).Nodup)
    (hrow : row ∈ rows) (hstored : row ∈ table)
    (hfound : ∀ d, findRow row = some d → d ∈ (absorbAll findRow transfer table rows).table) :
    ∃ d ∈ (absorbAll findRow transfer table rows).table,
      (absorbAll findRow transfer table rows).idMap.get row.id = some d.id ∧
        (findRow row = some d ∨ d = transfer row) := by
  have hget : (absorbAll findRow transfer table rows).idMap.get row.id =
      some ((findRow row).getD row).id := get_idMap_absorbAll hnodup hrow
  cases hfind : findRow row with
  | some d =>
    rw [hfind] at hget
    exact ⟨d, hfound d hfind, hget, .inl rfl⟩
  | none =>
    rw [hfind] at hget
    exact ⟨transfer row, mem_table_of_transferred htransfer hnodup hrow ⟨row, hstored, rfl⟩ hfind,
      hget.trans (congrArg some (htransfer row).symm), .inr rfl⟩

end Absorb

namespace ServiceStore
variable (store : ServiceStore)

/-- `get_for_host` of addresses, by their positions. -/
def hostAddresses (hostId : Uuid) : List IPAddress :=
  (store.ipAddresses.rows.filter fun a => a.isLive && a.base.hostId = hostId).insertionSort
    fun a b => a.base.position ≤ b.base.position

/-- `get_for_host` of ports, from the oldest. -/
def hostPorts (hostId : Uuid) : List Port :=
  (store.ports.rows.filter fun p => p.base.hostId = hostId).insertionSort fun a b =>
    a.createdAt ≤ b.createdAt

end ServiceStore

def sameInterface (dest other : List IPAddress) (a d : IPAddress) : Bool :=
  ipAddressesShareAddress d a || (d.base.macAddress.isSome &&
    d.base.macAddress = a.base.macAddress && d.base.macAddress.any fun mac =>
      macCount dest mac = 1 && macCount other mac = 1)

def matchingAddress (dest other : List IPAddress) (a : IPAddress) : Option IPAddress :=
  dest.find? (sameInterface dest other a)

def IPAddress.transferTo (hostId : Uuid) (a : IPAddress) : IPAddress :=
  { a with base := { a.base with hostId } }

theorem IPAddress.id_transferTo (hostId : Uuid) (a : IPAddress) :
    (IPAddress.transferTo hostId a).id = a.id := rfl

def matchingPort (dest : List Port) (p : Port) : Option Port :=
  dest.find? fun d => d.base.number = p.base.number && d.base.protocol = p.base.protocol

def Port.withHost (hostId networkId : Uuid) (p : Port) : Port :=
  { p with base := { p.base with hostId, networkId } }

theorem Port.id_withHost (hostId networkId : Uuid) (p : Port) :
    (Port.withHost hostId networkId p).id = p.id := rfl

/-- A binding with the ids of the destination. An address that is not known leaves a port bound to
all addresses. -/
def BindingType.remap (addresses ports : HashMap Uuid Uuid) : BindingType → BindingType
  | ipAddress ip => .ipAddress ((addresses.get ip).getD ip)
  | port portId ip => .port ((ports.get portId).getD portId) (ip.bind addresses.get)

def Binding.remap (addresses ports : HashMap Uuid Uuid) (b : Binding) : Binding :=
  { b with base := { b.base with bindingType := b.base.bindingType.remap addresses ports } }

def TrackedService.transferTo (hostId networkId : Uuid) (addresses ports : HashMap Uuid Uuid)
    (s : TrackedService) : TrackedService :=
  { s with base := { s.base with
      hostId
      networkId
      bindings := s.base.bindings.map (Binding.remap addresses ports) } }

def isDuplicateService (existing : List TrackedService) (s : TrackedService) : Bool :=
  existing.any fun e =>
    e.base.name = s.base.name && e.base.serviceDefinition = s.base.serviceDefinition

/-- `ON DELETE SET NULL`: what names one of the deleted services as its owner has no owner. -/
def TrackedService.releaseOwners (deleted : List Uuid) (s : TrackedService) : TrackedService :=
  let owner := s.base.virtualizationServiceId.filter fun id => !deleted.contains id
  { s with base := { s.base with virtualizationServiceId := owner } }

def TrackedHost.releaseOwners (deleted : List Uuid) (h : TrackedHost) : TrackedHost :=
  let owner := h.base.virtualizationServiceId.filter fun id => !deleted.contains id
  { h with base := { h.base with virtualizationServiceId := owner } }

namespace ServiceStore

/-- `update` of the service layer. -/
def updateService (defs : ServiceDefinitions) (draws : ℕ → Uuid) (store : ServiceStore)
    (s : TrackedService) : Except ConsolidateError ServiceStore :=
  match store.check defs (.update s) with
  | .error e => .error (.service s.base.name (some e))
  | .ok w => match store.write draws w with
    | (store', true) => .ok store'
    | (_, false) => .error (.service s.base.name none)

/-- The loop over the services. The ids drawn for a service are those that bindings without an id
get. -/
def absorbServices (defs : ServiceDefinitions) (draws : Uuid → ℕ → Uuid)
    (existing : List TrackedService) (transfer : TrackedService → TrackedService) :
    ServiceStore → List TrackedService → Except ConsolidateError ServiceStore
  | store, [] => .ok store
  | store, s :: rest =>
    if isDuplicateService existing s then absorbServices defs draws existing transfer store rest
    else match store.updateService defs (draws s.id) (transfer s) with
      | .error e => .error e
      | .ok store => absorbServices defs draws existing transfer store rest

def serviceIdsOf (store : ServiceStore) (hostId : Uuid) : List Uuid :=
  (store.services.rows.filter fun s => s.base.hostId = hostId).map (·.id)

def deleteHost (store : ServiceStore) (hostId : Uuid) : ServiceStore :=
  let deleted := store.serviceIdsOf hostId
  let ports := store.ports.delete (·.base.hostId = hostId)
  let ipAddresses := store.ipAddresses.delete (·.base.hostId = hostId)
  { services := (store.services.delete (·.base.hostId = hostId)).modify
      (TrackedService.releaseOwners deleted) fun _ => rfl
    bindings := store.bindings.delete fun b => b.base.serviceId ∈ deleted ||
      b.base.bindingType.portId.any (fun p => store.ports.rows.any fun r =>
        r.id = p && r.base.hostId = hostId) ||
      b.base.bindingType.ipAddressId.any fun ip => store.ipAddresses.rows.any fun r =>
        r.id = ip && r.base.hostId = hostId
    ports
    ipAddresses }

end ServiceStore

/-- One assignment of the absorbed host, on top of those of the destination. The broader scope
wins; an assignment whose addresses are all unknown is dropped. -/
def migrateAssignment (addresses : HashMap Uuid Uuid) (dest : List CredentialAssignment)
    (merged : List CredentialAssignment) (other : CredentialAssignment) :
    List CredentialAssignment :=
  let remapped := other.ipAddressIds.map fun ids => ids.filterMap addresses.get
  if remapped = some [] then merged
  else match dest.reverse.find? (·.credentialId = other.credentialId) with
    | some assignment =>
      let ids := match assignment.ipAddressIds, remapped with
        | none, _ | _, none => none
        | some destIds, some otherIds => some (otherIds.foldl
            (fun union id => if union.contains id then union else union ++ [id]) destIds)
      merged.set (merged.findIdx (·.credentialId = other.credentialId))
        { assignment with ipAddressIds := ids }
    | none => merged ++ [⟨other.credentialId, remapped⟩]

def migrateCredentials (t : HostCredentials) (destination other : Uuid)
    (addresses : HashMap Uuid Uuid) : Option HostCredentials :=
  let assignments := fun hostId => (t.rows.filter fun r => r.hostId = hostId).map fun r =>
    (⟨r.credentialId, r.ipAddressIds⟩ : CredentialAssignment)
  if (assignments other).isEmpty then some t
  else saveForHost t destination ((assignments other).foldl
    (migrateAssignment addresses (assignments destination)) (assignments destination))

namespace ConsolidationState
variable (s : ConsolidationState)

def absorbedAddresses (destination other : Uuid) : Absorption IPAddressBase :=
  let destAddresses := s.children.hostAddresses destination
  let otherAddresses := s.children.hostAddresses other
  absorbAll (matchingAddress destAddresses otherAddresses) (IPAddress.transferTo destination)
    s.children.ipAddresses otherAddresses

def absorbedPorts (destination : TrackedHost) (other : Uuid) : Absorption PortBase :=
  absorbAll (matchingPort (s.children.hostPorts destination.id))
    (Port.withHost destination.id destination.base.networkId)
    s.children.ports (s.children.hostPorts other)

def consolidateHosts (defs : ServiceDefinitions) (draws : Uuid → ℕ → Uuid)
    (destination other : TrackedHost) : Except ConsolidateError ConsolidationState :=
  if destination.id = other.id then
    .error (.validation "Can't consolidate a host with itself")
  else if s.daemonHosts.contains other.id then
    .error (.validation ("Can't consolidate a host that has a daemon associated with it. " ++
      "Consolidate the other host into the host with the daemon instead."))
  else
    let addresses := s.absorbedAddresses destination.id other.id
    let ports := s.absorbedPorts destination other.id
    let hosts := s.hosts.set (upsertHost destination other).host
    let store := { s.children with ipAddresses := addresses.table, ports := ports.table }
    let transfer := TrackedService.transferTo destination.id destination.base.networkId
      addresses.idMap ports.idMap
    match store.absorbServices defs draws (store.liveServices destination.id) transfer
      (store.liveServices other.id) with
    | .error e => .error e
    | .ok store =>
      match migrateCredentials s.hostCredentials destination.id other.id addresses.idMap with
      | none => .error .refused
      | some hostCredentials =>
        if hosts.rows.any (·.id = other.id) then
          .ok { s with
            hosts := (hosts.delete (·.id = other.id)).modify
              (TrackedHost.releaseOwners (store.serviceIdsOf other.id)) (fun _ => rfl)
            children := store.deleteHost other.id
            hostCredentials := hostCredentials.delete (·.hostId = other.id) }
        else .error (.hostNotFound other.id)

end ConsolidationState

end Scanopy
