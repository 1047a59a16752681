import Scanopy.Hosts.Children
import Scanopy.Hosts.Records
import Scanopy.Shared.WriteBack

/-! The bookkeeping of scans beside the edits of users. After a scan the rows that it has seen are
marked; marks, refreshes and edits all write whole rows that they have read before. -/

namespace Scanopy

open List Option Bool RecordStore

structure TrackedSubnetBase extends SubnetBase where
  updatedAt : Timestamp
  lastDiscoveryId : Option Uuid
  firstDiscoveryId : Option Uuid
  deriving DecidableEq

abbrev TrackedSubnet := Row TrackedSubnetBase

inductive SubnetField
  | createdAt | validFrom | validTo | lineageId | cidr | networkId | name | description | subnetType
  | virtualizationServiceId | source | updatedAt
  deriving DecidableEq

def SubnetField.all : List SubnetField :=
  [.createdAt, .validFrom, .validTo, .lineageId, .cidr, .networkId, .name, .description,
    .subnetType, .virtualizationServiceId, .source, .updatedAt]

instance : Fintype SubnetField := ⟨SubnetField.all.toFinset, fun f => by cases f <;> decide⟩

abbrev SubnetField.Value : SubnetField → Type
  | createdAt | validFrom | updatedAt => Timestamp
  | validTo => Option Timestamp
  | lineageId | virtualizationServiceId => Option Uuid
  | cidr => IpCidr
  | networkId => Uuid
  | name => String
  | description => Option String
  | subnetType => SubnetType
  | source => EntitySource

def SubnetField.get : (f : SubnetField) → TrackedSubnet → f.Value
  | createdAt, s => s.createdAt
  | validFrom, s => s.validFrom
  | validTo, s => s.validTo
  | lineageId, s => s.lineageId
  | cidr, s => s.base.cidr
  | networkId, s => s.base.networkId
  | name, s => s.base.name
  | description, s => s.base.description
  | subnetType, s => s.base.subnetType
  | virtualizationServiceId, s => s.base.virtualizationServiceId
  | source, s => s.base.source
  | updatedAt, s => s.base.updatedAt

instance : (f : SubnetField) → DecidableEq f.Value
  | .createdAt | .validFrom | .updatedAt => inferInstanceAs (DecidableEq Timestamp)
  | .validTo => inferInstanceAs (DecidableEq (Option Timestamp))
  | .lineageId | .virtualizationServiceId => inferInstanceAs (DecidableEq (Option Uuid))
  | .cidr => inferInstanceAs (DecidableEq IpCidr)
  | .networkId => inferInstanceAs (DecidableEq Uuid)
  | .name => inferInstanceAs (DecidableEq String)
  | .description => inferInstanceAs (DecidableEq (Option String))
  | .subnetType => inferInstanceAs (DecidableEq SubnetType)
  | .source => inferInstanceAs (DecidableEq EntitySource)

instance : DiscoveryTracked TrackedHostBase where
  firstDiscoveryId := (·.firstDiscoveryId)
  setFirstDiscoveryId id b := { b with firstDiscoveryId := id }
  setLastDiscoveryId id b := { b with lastDiscoveryId := id }

instance : DiscoveryTracked TrackedSubnetBase where
  firstDiscoveryId := (·.firstDiscoveryId)
  setFirstDiscoveryId id b := { b with firstDiscoveryId := id }
  setLastDiscoveryId id b := { b with lastDiscoveryId := id }

theorem HostField.get_markDiscovered (discoveryId : Uuid) (f : HostField) (h : TrackedHost) :
    f.get (markDiscovered discoveryId h) = f.get h := by
  unfold markDiscovered
  dsimp only
  split_ifs <;> cases f <;> rfl

theorem SubnetField.get_markDiscovered (discoveryId : Uuid) (f : SubnetField) (s : TrackedSubnet) :
    f.get (markDiscovered discoveryId s) = f.get s := by
  unfold markDiscovered
  dsimp only
  split_ifs <;> cases f <;> rfl

/-- The row that a scan leaves, and what it counts as filled: which name the row has is the ladder's
business. -/
theorem upsertHost_eq (existing new : TrackedHost) :
    ∃ name nameSource named,
      (named = false → name = existing.base.name ∧ nameSource = existing.base.nameSource) ∧
      let fillsHostname := existing.base.hostname.isNone && new.base.hostname.any (· ≠ "")
      let fillsText := fun column =>
        (existing.base.texts column).isNone && (new.base.texts column).isSome
      let fillsSource := decide (new.base.source = .discovery) &&
        decide (existing.base.source ≠ .discovery)
      upsertHost existing new =
        { host := { existing with base :=
            { existing.base with
              name, nameSource
              lastSeenAt := new.base.lastSeenAt
              hostname := if fillsHostname then new.base.hostname else existing.base.hostname
              texts := fun column =>
                if fillsText column then new.base.texts column else existing.base.texts column
              source := if fillsSource then .discovery else existing.base.source } }
          fills := fun
            | .hostname => fillsHostname
            | .name | .nameSource => named
            | .text column => fillsText column
            | .source => fillsSource
            | _ => false } := by
  dsimp only
  unfold upsertHost
  dsimp only
  rcases TrackedHostBase.upsertName_eq _ new.base.nameCandidate with hname |
    ⟨name, nameSource, hname⟩
  · rw [hname]
    exact ⟨_, _, false, fun _ => ⟨rfl, rfl⟩, rfl⟩
  · rw [hname]
    exact ⟨name, nameSource, true, fun h => absurd h.symm Bool.false_ne_true, rfl⟩

theorem upsertHost_keeps (existing new : TrackedHost) (f : HostField)
    (h : (upsertHost existing new).fills f = false) :
    f.get (upsertHost existing new).host = f.get existing := by
  obtain ⟨name, nameSource, named, hnamed, heq⟩ := upsertHost_eq existing new
  rw [heq] at h ⊢
  cases f with
  | name => exact (hnamed h).1
  | nameSource => exact (hnamed h).2
  | hostname | text | source => exact if_neg (eq_false_iff.mp h)
  | networkId | description | virtualizationMetadata | virtualizationServiceId | hidden
  | updatedAt | createdAt | validFrom | validTo | lineageId => rfl

theorem editHost_keeps (existing : TrackedHost) (edit : HostEdit) (now : Timestamp) (f : HostField)
    (h : edit.sets existing f = false) : f.get (editHost existing edit now) = f.get existing := by
  unfold editHost
  dsimp only
  cases f with
  | createdAt | validFrom | validTo | lineageId => rfl
  | hostname | description | virtualizationMetadata | virtualizationServiceId | hidden
  | updatedAt => exact absurd h.symm Bool.false_ne_true
  | name | nameSource =>
    rw [HostEdit.sets, and_eq_false_imp, decide_eq_true_eq] at h
    split_ifs with hname
    · have hblank := h hname
      rw [isSome_eq_false_iff, isNone_iff_eq_none] at hblank
      rw [hblank]
      rfl
    · rfl
  | networkId | source | text =>
    split_ifs
    · rcases TrackedHostBase.applyNameOf_eq _ (HostName.manual edit.name) with hname |
        ⟨name, nameSource, hname⟩ <;> rw [hname] <;> rfl
    · rfl

abbrev HostStorage := RecordStore HostField.get

abbrev SubnetStorage := RecordStore SubnetField.get

def upsertDraft (existing new : TrackedHost) : Draft HostField.get :=
  ⟨existing, (upsertHost existing new).host, (upsertHost existing new).fills,
    upsertHost_id existing new, upsertHost_keeps existing new⟩

def editDraft (existing : TrackedHost) (edit : HostEdit) (now : Timestamp) : Draft HostField.get :=
  ⟨existing, editHost existing edit now, edit.sets existing, rfl, editHost_keeps existing edit now⟩

def HostStorage.draftOf (s : HostStorage) (id : Uuid) (draft : TrackedHost → Draft HostField.get) :
    Option (WriteBack HostField.get) :=
  (s.table.find id).map fun r => .write [draft r.toRow] (List.nodup_singleton _)

/-- The subnet as `SubnetService::create` compares it. -/
def preparedTrackedSubnet (newId : Uuid) (now : Timestamp) (subnet : TrackedSubnet) :
    TrackedSubnet :=
  if subnet.id = Uuid.nil then
    ⟨newId, now, now, none, none, { subnet.base with
      lastSeenAt := now, updatedAt := now, lastDiscoveryId := none, firstDiscoveryId := none }⟩
  else subnet

def TrackedSubnet.subnet (s : TrackedSubnet) : Subnet := s.map (·.toSubnetBase)

def refreshDraft (subnet existing : TrackedSubnet) : Draft SubnetField.get :=
  let corrects := (TrackedSubnet.subnet subnet).correctsContainerBridgeGuess
    (TrackedSubnet.subnet existing)
  { read := existing
    written := { existing with base := { existing.base with
      lastSeenAt := subnet.base.lastSeenAt
      subnetType := if corrects then subnet.base.subnetType else existing.base.subnetType } }
    sets := fun f => decide (f = .subnetType) && corrects
    sameId := rfl
    keeps := by
      intro f h
      cases f with
      | subnetType =>
        show (if corrects then _ else _) = existing.base.subnetType
        have hcorrects : corrects = false := h
        rw [hcorrects]
        rfl
      | _ => rfl }

/-- `SubnetService::create` up to its write. -/
def SubnetStorage.create (s : SubnetStorage) (newId : Uuid) (now : Timestamp)
    (subnet : TrackedSubnet) : WriteBack SubnetField.get :=
  let live := s.table.rows.filter fun r => r.isLive && r.base.networkId = subnet.base.networkId
  let subnet := preparedTrackedSubnet newId now subnet
  match live.find? fun existing => (TrackedSubnet.subnet subnet).isDuplicateOf
      (TrackedSubnet.subnet existing.toRow) with
  | some existing => .write [refreshDraft subnet existing.toRow] (List.nodup_singleton _)
  | none => .insert { subnet with
      createdAt := subnet.base.lastSeenAt, validFrom := subnet.base.lastSeenAt }

structure TrackedRows where
  hosts : HostStorage
  subnets : SubnetStorage

inductive TrackedStep
  | hostDiscoveryFks (call : ℕ) (scanned : List Uuid) (discoveryId : Uuid)
  | subnetDiscoveryFks (call : ℕ) (scanned : List Uuid) (discoveryId : Uuid)
  | upsertHost (call : ℕ) (id : Uuid) (new : TrackedHost)
  | editHost (call : ℕ) (id : Uuid) (edit : HostEdit) (now : Timestamp)
  | updateHost (call : ℕ) (entity : TrackedHost) (carried : HostField → Bool)
  | updateSubnet (call : ℕ) (entity : TrackedSubnet) (carried : SubnetField → Bool)
  | createSubnet (call : ℕ) (newId : Uuid) (now : Timestamp) (subnet : TrackedSubnet)
  | writeHosts (call : ℕ)
  | writeSubnets (call : ℕ)

namespace TrackedRows
variable (s : TrackedRows)

def step : TrackedStep → Option TrackedRows
  | .hostDiscoveryFks call scanned discoveryId =>
    (s.hosts.enter call (some (updateDiscoveryFks discoveryId
      (HostField.get_markDiscovered discoveryId) s.hosts.table scanned))).map ({ s with hosts := · })
  | .subnetDiscoveryFks call scanned discoveryId =>
    (s.subnets.enter call (some (updateDiscoveryFks discoveryId
      (SubnetField.get_markDiscovered discoveryId) s.subnets.table scanned))).map
        ({ s with subnets := · })
  | .upsertHost call id new =>
    (s.hosts.enter call (s.hosts.draftOf id (upsertDraft · new))).map ({ s with hosts := · })
  | .editHost call id edit now =>
    (s.hosts.enter call (s.hosts.draftOf id (editDraft · edit now))).map ({ s with hosts := · })
  | .updateHost call entity carried =>
    (updateEntity s.hosts.table entity carried).bind fun write =>
      (s.hosts.enter call write).map ({ s with hosts := · })
  | .updateSubnet call entity carried =>
    (updateEntity s.subnets.table entity carried).bind fun write =>
      (s.subnets.enter call write).map ({ s with subnets := · })
  | .createSubnet call newId now subnet =>
    (s.subnets.enter call (some (s.subnets.create newId now subnet))).map ({ s with subnets := · })
  | .writeHosts call => (s.hosts.commit call).map ({ s with hosts := · })
  | .writeSubnets call => (s.subnets.commit call).map ({ s with subnets := · })

def Undisturbed (s : TrackedRows) : TrackedStep → Prop
  | .writeHosts call => s.hosts.Unchanged call
  | .writeSubnets call => s.subnets.Unchanged call
  | _ => True

instance (s : TrackedRows) : DecidablePred s.Undisturbed
  | .writeHosts call => inferInstanceAs (Decidable (s.hosts.Unchanged call))
  | .writeSubnets call => inferInstanceAs (Decidable (s.subnets.Unchanged call))
  | .hostDiscoveryFks .. | .subnetDiscoveryFks .. | .upsertHost .. | .editHost .. | .updateHost ..
  | .updateSubnet .. | .createSubnet .. => inferInstanceAs (Decidable True)

end TrackedRows

structure MeantRows where
  hosts : Meant HostField.Value
  subnets : Meant SubnetField.Value

def MeantRows.record (s : TrackedRows) (l : TrackedStep) (_ : TrackedRows) (m : MeantRows) :
    MeantRows :=
  match l with
  | .writeHosts call => { m with hosts := s.hosts.meantAfter call m.hosts }
  | .writeSubnets call => { m with subnets := s.subnets.meantAfter call m.subnets }
  | _ => m

def trackedLts (hosts : RowTable TrackedHostBase) (subnets : RowTable TrackedSubnetBase) :
    Lts TrackedRows TrackedStep := ⟨⟨{ table := hosts }, { table := subnets }⟩, TrackedRows.step⟩

theorem agrees_step {s s' : TrackedRows} {l : TrackedStep} {m : MeantRows}
    (h : s.step l = some s') (hundisturbed : s.Undisturbed l)
    (hhosts : Agrees HostField.get s.hosts.table m.hosts)
    (hsubnets : Agrees SubnetField.get s.subnets.table m.subnets) :
    Agrees HostField.get s'.hosts.table (m.record s l s').hosts ∧
      Agrees SubnetField.get s'.subnets.table (m.record s l s').subnets := by
  cases l with
  | hostDiscoveryFks | upsertHost | editHost =>
    obtain ⟨hosts, henter, rfl⟩ := map_eq_some_iff.mp h
    refine ⟨?_, hsubnets⟩
    show Agrees HostField.get hosts.table m.hosts
    rw [table_enter henter]
    exact hhosts
  | subnetDiscoveryFks | createSubnet =>
    obtain ⟨subnets, henter, rfl⟩ := map_eq_some_iff.mp h
    refine ⟨hhosts, ?_⟩
    show Agrees SubnetField.get subnets.table m.subnets
    rw [table_enter henter]
    exact hsubnets
  | updateHost =>
    obtain ⟨write, -, h⟩ := bind_eq_some_iff.mp h
    obtain ⟨hosts, henter, rfl⟩ := map_eq_some_iff.mp h
    refine ⟨?_, hsubnets⟩
    show Agrees HostField.get hosts.table m.hosts
    rw [table_enter henter]
    exact hhosts
  | updateSubnet =>
    obtain ⟨write, -, h⟩ := bind_eq_some_iff.mp h
    obtain ⟨subnets, henter, rfl⟩ := map_eq_some_iff.mp h
    refine ⟨hhosts, ?_⟩
    show Agrees SubnetField.get subnets.table m.subnets
    rw [table_enter henter]
    exact hsubnets
  | writeHosts call =>
    obtain ⟨hosts, hcommit, rfl⟩ := map_eq_some_iff.mp h
    exact ⟨agrees_commit hcommit hhosts hundisturbed, hsubnets⟩
  | writeSubnets call =>
    obtain ⟨subnets, hcommit, rfl⟩ := map_eq_some_iff.mp h
    exact ⟨hhosts, agrees_commit hcommit hsubnets hundisturbed⟩

/-- In every run in which no field that a call copies changes between its reading and its writing,
every field of a host or subnet has the value that was last meant for it. -/
theorem agrees_of_undisturbed (hosts : RowTable TrackedHostBase)
    (subnets : RowTable TrackedSubnetBase) (meant : MeantRows)
    (hhosts : Agrees HostField.get hosts meant.hosts)
    (hsubnets : Agrees SubnetField.get subnets meant.subnets) (s : TrackedRows × MeantRows)
    (hs : ((trackedLts hosts subnets).withHistory meant MeantRows.record).ReachableVia
      (fun s l => s.1.Undisturbed l) s) :
    Agrees HostField.get s.1.hosts.table s.2.hosts ∧
      Agrees SubnetField.get s.1.subnets.table s.2.subnets := by
  refine hs.invariant (P := fun s => Agrees HostField.get s.1.hosts.table s.2.hosts ∧
    Agrees SubnetField.get s.1.subnets.table s.2.subnets) ⟨hhosts, hsubnets⟩ ?_
  rintro s l s' - ⟨hhosts, hsubnets⟩ hundisturbed hstep
  obtain ⟨hstep, hrecord⟩ := Lts.step_withHistory hstep
  rw [hrecord]
  exact agrees_step hstep hundisturbed hhosts hsubnets

section Printer

def printerHost : TrackedHost :=
  ⟨20, 1, 1, none, none, {
    name := "printer", nameSource := .hostname, networkId := 5, hostname := some "printer"
    description := none, source := .discovery, virtualizationMetadata := none
    virtualizationServiceId := none, hidden := false, texts := fun _ => none
    updatedAt := 1, lastSeenAt := 1, lastDiscoveryId := none, firstDiscoveryId := none }⟩

def hideEdit : HostEdit := ⟨"printer", some "printer", none, none, none, true⟩

def printerHosts : RowTable TrackedHostBase := ⟨[⟨printerHost, none⟩], by decide⟩

def noTrackedSubnets : RowTable TrackedSubnetBase := ⟨[], List.nodup_nil⟩

def officeTrackedSubnet : TrackedSubnet :=
  ⟨10, 1, 1, none, none, {
    cidr := .v4 .lan, networkId := 5, name := "office"
    description := none, subnetType := .lan, virtualizationServiceId := none, source := .discovery
    lastSeenAt := 1, updatedAt := 1, lastDiscoveryId := none, firstDiscoveryId := none }⟩

def printerMeant : MeantRows := ⟨fun _ f => f.get printerHost, fun _ f => f.get officeTrackedSubnet⟩

theorem agrees_printerHosts : Agrees HostField.get printerHosts printerMeant.hosts := by
  intro r hr f
  rw [mem_singleton.mp hr]
  rfl

def printerLts : Lts (TrackedRows × MeantRows) TrackedStep :=
  (trackedLts printerHosts noTrackedSubnets).withHistory printerMeant MeantRows.record

theorem agrees_printer : ∃ s, printerLts.run printerLts.init
    [.hostDiscoveryFks 0 [20] 90, .writeHosts 0, .editHost 1 20 hideEdit 3, .writeHosts 1] =
      some s ∧ Agrees HostField.get s.1.hosts.table s.2.hosts := by
  obtain ⟨s, hs⟩ := isSome_iff_exists.mp (show (printerLts.run printerLts.init
    [.hostDiscoveryFks 0 [20] 90, .writeHosts 0, .editHost 1 20 hideEdit 3,
      .writeHosts 1]).isSome = true by decide +kernel)
  have hreach : printerLts.ReachableVia (fun s l => s.1.Undisturbed l) s :=
    Lts.reachableVia_of_run .init (by decide +kernel) hs
  refine ⟨s, hs, (agrees_of_undisturbed printerHosts noTrackedSubnets printerMeant
    agrees_printerHosts (fun r hr => absurd hr not_mem_nil) s hreach).1⟩

/-- The user hides the host after the bookkeeping has read it and before it writes: the host is shown
again. -/
theorem not_agrees : ¬ ∀ (hosts : RowTable TrackedHostBase) (subnets : RowTable TrackedSubnetBase)
    (meant : MeantRows), Agrees HostField.get hosts meant.hosts →
    Agrees SubnetField.get subnets meant.subnets → ∀ s,
      ((trackedLts hosts subnets).withHistory meant MeantRows.record).Reachable s →
        Agrees HostField.get s.1.hosts.table s.2.hosts ∧
          Agrees SubnetField.get s.1.subnets.table s.2.subnets := by
  intro h
  have hrun : ∃ s, printerLts.run printerLts.init [.hostDiscoveryFks 0 [20] 90,
      .editHost 1 20 hideEdit 3, .writeHosts 1, .writeHosts 0] = some s ∧
        ∃ r ∈ s.1.hosts.table.rows, r.base.hidden ≠ s.2.hosts r.id .hidden :=
    ⟨_, rfl, _, mem_cons_self, by decide +kernel⟩
  obtain ⟨s, hs, r, hr, hhidden⟩ := hrun
  have hagrees := h printerHosts noTrackedSubnets printerMeant agrees_printerHosts
    (fun r hr => absurd hr not_mem_nil) s (Lts.reachable_of_run hs)
  exact hhidden (hagrees.1 r hr .hidden)

end Printer

end Scanopy
