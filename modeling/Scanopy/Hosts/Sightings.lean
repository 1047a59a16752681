import Scanopy.Hosts.Frame
import Scanopy.Hosts.Scans
import Scanopy.Lib.Stamps

/-! What a scan has seen has the time of the scan: every stage of a submission writes rows that
carry this time, or rows that keep the time they had. -/

namespace Scanopy
open List Option Stamps SnmpInterface VlanTable Restamped InterfaceTable
variable {t : Timestamp}

/-- The column `last_seen_at` of a stored row. -/
def seenTime {B : Type} [Sighted B] (r : StoredRow B) : Timestamp := Sighted.lastSeenAt r.base

def entitySeenTime {B : Type} [Sighted B] (r : Row B) : Timestamp := Sighted.lastSeenAt r.base

/-- Every row of a loop that the loop inserts comes with an id. -/
def InsertsWithIds {S B : Type} (step : S → Row B → Option S) (inserts : S → Row B → Prop)
    (start : S) (rows : List (Row B)) : Prop :=
  (Lts.mk start step).Guarded (fun s r => inserts s r → r.id ≠ Uuid.nil) start rows

theorem touched_update {B : Type} [Sighted B] {rows : List (Row B)} (tbl : RowTable B)
    (h : ∀ u ∈ rows, entitySeenTime u = t) :
    Touched seenTime t tbl (tbl.update rows) (rows.map (·.id)) :=
  touched_updateMany tbl _ fun u hu _ => h u hu

section Host

theorem upsertHost_lastSeenAt (existing new : TrackedHost) :
    (upsertHost existing new).host.base.lastSeenAt = new.base.lastSeenAt := by
  unfold upsertHost
  dsimp only
  rcases TrackedHostBase.upsertName_eq _ new.base.nameCandidate with hname |
    ⟨name, nameSource, hname⟩
  · rw [hname]
  · rw [hname]

variable {env : CreateEnv} {after hosts : RowTable TrackedHostBase} {created host : TrackedHost}

theorem createTrackedHost_id (h : createTrackedHost env hosts host = .ok (after, created)) :
    created.id = if host.id = Uuid.nil then env.newHostId else host.id := by
  unfold createTrackedHost at h
  dsimp only at h
  split at h
  next existing hfind =>
    cases h
    have hid := find?_some hfind
    simp only [decide_eq_true_eq] at hid
    rw [upsertHost_id, hid]
    split_ifs <;> rfl
  next =>
    split at h
    · exact absurd h nofun
    · split at h
      · cases h
        show Row.id (if host.id = Uuid.nil then _ else host) = _
        split_ifs <;> rfl
      · exact absurd h nofun

theorem createUnlocked_id {hosts after : RowTable HostBase} {host created : Host}
    (h : createUnlocked env hosts host = .ok (after, created)) :
    created.id = if host.id = Uuid.nil then env.newHostId else host.id := by
  unfold createUnlocked at h
  dsimp only at h
  split at h
  next existing hfind =>
    cases h
    have hid := find?_some hfind
    simp only [decide_eq_true_eq] at hid
    refine hid.trans ?_
    split_ifs <;> rfl
  next =>
    split at h
    · exact absurd h nofun
    · split at h
      · cases h
        show Row.id (if host.id = Uuid.nil then _ else host) = _
        split_ifs <;> rfl
      · exact absurd h nofun

theorem touched_createTrackedHost (hid : host.id ≠ Uuid.nil) (hseen : host.base.lastSeenAt = t)
    (h : createTrackedHost env hosts host = .ok (after, created)) :
    Touched seenTime t hosts after [created.id] := by
  unfold createTrackedHost at h
  rw [if_neg hid] at h
  dsimp only at h
  split at h
  next existing _ =>
    cases h
    refine touched_update hosts fun u hu => ?_
    rw [mem_singleton.mp hu]
    exact (upsertHost_lastSeenAt existing.toRow host).trans hseen
  next =>
    split at h
    · exact absurd h nofun
    · split at h
      next hinsert =>
        cases h
        exact touched_insertMany hinsert hseen
      · exact absurd h nofun

end Host

section Subnets
variable {env : CreateEnv} {host : Host} {owner : Option Uuid → Option Uuid}

theorem touched_createSubnet {newId : Uuid} {now : Timestamp} {subnets after : RowTable SubnetBase}
    {subnet created : Subnet} (h : createSubnet newId now subnets subnet = some (after, created))
    (hid : subnet.id ≠ Uuid.nil) (hseen : subnet.base.lastSeenAt = t) :
    Touched seenTime t subnets after [created.id] := by
  unfold createSubnet at h
  dsimp only at h
  rw [if_neg hid] at h
  split at h
  next existing _ =>
    cases h
    refine touched_update subnets fun u hu => ?_
    rw [mem_singleton.mp hu]
    exact hseen
  next =>
    obtain ⟨rows, hinsert, heq⟩ := map_eq_some_iff.mp h
    cases heq
    exact touched_insertMany hinsert hseen

theorem SubnetStage.touched_foldlM {subnets : List Subnet} {stored : RowTable SubnetBase}
    {s : SubnetStage} (hids : ∀ subnet ∈ subnets, subnet.id ≠ Uuid.nil)
    (hseen : ∀ subnet ∈ subnets, subnet.base.lastSeenAt = t)
    (h : subnets.foldlM (SubnetStage.step env host owner) { subnets := stored } = some s) :
    Touched seenTime t stored s.subnets s.createdSubnetIds := by
  have hstart : Touched seenTime t stored stored [] := (refl _ _ _).touched
  refine Lts.invariant_of_foldlM (P := fun s : SubnetStage =>
    Touched seenTime t stored s.subnets s.createdSubnetIds) hstart ?_ h
  intro subnet hsubnet s s' hs hstep
  obtain ⟨⟨rows, created⟩, hcreate, rfl⟩ := map_eq_some_iff.mp hstep
  exact hs.trans (touched_createSubnet hcreate (hids subnet hsubnet) (hseen subnet hsubnet))

end Subnets

section Addresses
variable {ctx : AddressContext}

def AddressContext.Inserts (ctx : AddressContext) (s : AddressStage) (a : IPAddress) : Prop :=
  ctx.findExisting s.rows (ctx.place a) = none

theorem AddressContext.touched_createIpAddresses {rows after : RowTable IPAddressBase}
    {created : List IPAddress}
    (hids : InsertsWithIds ctx.step ctx.Inserts { rows } ctx.incoming)
    (hseen : ∀ a ∈ ctx.incoming, a.base.lastSeenAt = t)
    (hupsert : ctx.conflictBehavior = .upsert)
    (h : ctx.createIpAddresses rows = some (after, created)) :
    Touched seenTime t rows after (created.map (·.id)) := by
  obtain ⟨s, hrun, heq⟩ := map_eq_some_iff.mp h
  cases heq
  have hcollected : Collected seenTime t (fun u : IPAddress => u.id)
      (fun u r => (⟨u, r.snapshotId⟩ : StoredRow IPAddressBase)) rows s.rows s.toRefresh
      (s.created.map (·.id)) := by
    refine Lts.invariant_of_guarded (P := fun s : AddressStage => Collected seenTime t
      (fun u : IPAddress => u.id) (fun u r => (⟨u, r.snapshotId⟩ : StoredRow IPAddressBase)) rows
      s.rows s.toRefresh (s.created.map (·.id))) (Collected.start _ _ _ _ _) ?_ hids hrun
    intro a ha s s' hs hid hstep
    dsimp only at hstep
    rw [step, hupsert] at hstep
    dsimp only at hstep
    split at hstep
    next r _ =>
      cases hstep
      rw [map_append]
      exact hs.refresh fun _ => hseen a ha
    next hnone =>
      obtain ⟨rows', hinsert, rfl⟩ := map_eq_some_iff.mp hstep
      rw [map_append]
      have hplaced : (ctx.place a).id ≠ Uuid.nil := hid hnone
      rw [newRow, if_neg hplaced] at hinsert ⊢
      unfold insertAddress at hinsert
      split_ifs at hinsert
      exact hs.insert hinsert (hseen a ha)
  exact hcollected.flush _

end Addresses

section Ports
variable {env : ChildEnv} {host : Host}

def PortStage.Inserts (host : Host) (s : PortStage) (port : TrackedPort) : Prop :=
  findExistingPort s.rows { port with base := { port.base with
    hostId := host.id, networkId := host.base.networkId } } = none

theorem touched_createPorts {ports created : List TrackedPort}
    {rows after : EntityTable TrackedPortBase}
    (hids : InsertsWithIds (PortStage.step env host) (PortStage.Inserts host) { rows } ports)
    (hseen : ∀ p ∈ ports, p.base.lastSeenAt = t)
    (h : createPorts env host ports rows = some (after, created)) :
    Touched entitySeenTime t rows after (created.map (·.id)) := by
  obtain ⟨s, hrun, heq⟩ := map_eq_some_iff.mp h
  cases heq
  have hcollected : Collected entitySeenTime t (fun u : TrackedPort => u.id) (fun u _ => u) rows
      s.rows s.toRefresh (s.created.map (·.id)) := by
    refine Lts.invariant_of_guarded (P := fun s : PortStage => Collected entitySeenTime t
      (fun u : TrackedPort => u.id) (fun u _ => u) rows s.rows s.toRefresh (s.created.map (·.id)))
      (Collected.start _ _ _ _ _) ?_ hids hrun
    intro port hport s s' hs hid hstep
    dsimp only at hstep
    unfold PortStage.step at hstep
    dsimp only at hstep
    split at hstep
    next existing _ =>
      cases hstep
      rw [map_append]
      exact hs.refresh fun _ => hseen port hport
    next hnone =>
      obtain ⟨rows', hinsert, rfl⟩ := map_eq_some_iff.mp hstep
      rw [map_append]
      rw [newPort, if_neg (hid hnone)] at hinsert ⊢
      unfold insertPort at hinsert
      split_ifs at hinsert
      exact hs.insert hinsert (hseen port hport)
  exact hcollected.flush _

end Ports

section Services
variable {defs : ServiceDefinitions} {env : ChildEnv} {store : ServiceStore} {w : ServiceWrite}
  {service created : TrackedService} {r : ServiceRequest}
  {start : EntityTable TrackedServiceBase}

def ServiceRequest.Quiet (services : EntityTable TrackedServiceBase) : ServiceRequest → Prop
  | create _ _ _ => False
  | update service => StampedAt entitySeenTime service.base.lastSeenAt service.id services
  | removePortBindings _ _ | delete _ => True

/-- A request that writes a row with the time `t`, or leaves the times as they are. -/
def ServiceRequest.Timely (t : Timestamp) (services : EntityTable TrackedServiceBase) :
    ServiceRequest → Prop
  | create service _ _ => service.id ≠ Uuid.nil ∧ service.base.lastSeenAt = t
  | update service => service.base.lastSeenAt = t ∨
      StampedAt entitySeenTime service.base.lastSeenAt service.id services
  | removePortBindings _ _ | delete _ => True

theorem ServiceRequest.Quiet.timely {services : EntityTable TrackedServiceBase}
    (h : r.Quiet services) (t : Timestamp) : r.Timely t services := by
  cases r with
  | create => exact absurd h not_false
  | update => exact .inr h
  | removePortBindings => exact trivial
  | delete => exact trivial

theorem entitySeenTime_release (w : ServiceWrite) (s : TrackedService) :
    (w.release s).id = s.id ∧ entitySeenTime (w.release s) = entitySeenTime s := by
  unfold ServiceWrite.release TrackedService.releaseOwner
  split_ifs <;> exact ⟨rfl, rfl⟩

namespace ServiceStore

theorem restamped_write (draws : ℕ → Uuid) (h : entitySeenTime w.service = t ∨
    ∃ s ∈ store.services, s.id = w.service.id ∧ entitySeenTime s = entitySeenTime w.service) :
    Restamped entitySeenTime t store.services (store.write draws w).1.services := by
  have hwritten : Written store draws w (store.write draws w) := written_write w
  intro s hs
  by_cases hid : s.id = w.service.id
  · rcases hwritten.row s hs hid with rfl | hold
    · exact h
    · exact .inr ⟨s, hold, rfl, rfl⟩
  · obtain ⟨s₀, hs₀, rfl⟩ := (hwritten.otherServices s hid).mp hs
    obtain ⟨hid₀, htime⟩ := entitySeenTime_release w s₀
    exact .inr ⟨s₀, hs₀, hid₀.symm, htime.symm⟩

theorem exists_of_check_update (h : store.check defs (.update service) = .ok w) :
    ∃ s ∈ store.services, s.id = service.id := by
  unfold check at h
  dsimp only at h
  split at h
  · exact absurd h nofun
  next hget =>
    obtain ⟨s, hs, hid, -⟩ := getById_eq_some hget
    exact ⟨s, hs, hid⟩

theorem check_create_seen {newId : Uuid} {now : Timestamp} (hid : service.id ≠ Uuid.nil)
    (h : store.check defs (.create service newId now) = .ok w) :
    entitySeenTime w.service = service.base.lastSeenAt ∧ (w.mode = .insert ∨ w.mode = .update) := by
  have hsubmitted : (submittedService service newId now).base.lastSeenAt =
      service.base.lastSeenAt := by
    unfold submittedService
    rw [if_neg hid]
    rfl
  rcases checkCreate_cases h with ⟨existing, -, rfl⟩ | ⟨-, -, rfl⟩
  · exact ⟨hsubmitted, .inr rfl⟩
  · exact ⟨hsubmitted, .inl rfl⟩

theorem seen_of_check (hr : r.Timely t store.services) (h : store.check defs r = .ok w) :
    entitySeenTime w.service = t ∨
      ∃ s ∈ store.services, s.id = w.service.id ∧ entitySeenTime s = entitySeenTime w.service := by
  cases r with
  | create service newId now => exact .inl ((check_create_seen hr.1 h).1.trans hr.2)
  | update service =>
    obtain ⟨s, hs, hid⟩ := exists_of_check_update h
    obtain ⟨-, rfl⟩ := check_update h
    exact hr.imp_right fun hstamped => ⟨s, hs, hid, hstamped s hs hid⟩
  | removePortBindings serviceId claims =>
    obtain ⟨s, hs, -, -, hservice, -⟩ := check_removePortBindings h
    rw [hservice]
    exact .inr ⟨s, hs, rfl, rfl⟩
  | delete serviceId =>
    obtain ⟨s, hs, -, -, hservice, -⟩ := check_delete h
    rw [hservice]
    exact .inr ⟨s, hs, rfl, rfl⟩

end ServiceStore

def TransferPlan.KeepsTimes (services : EntityTable TrackedServiceBase) : TransferPlan → Prop
  | create _ _ service => service.id ≠ Uuid.nil
  | drop requests orphaned => orphaned = [] ∧ ∀ r ∈ requests, r.Quiet services

theorem TransferContext.lastSeenAt_transferPlan (ctx : TransferContext) (defs : ServiceDefinitions)
    (store : ServiceStore) (service : TrackedService) :
    match ctx.transferPlan defs store service with
    | .create before _ submitted => (∀ r ∈ before, r.Quiet store.services) ∧
        submitted.base.lastSeenAt = service.base.lastSeenAt
    | .drop _ _ => True := by
  have halign : (ctx.align defs service).base.lastSeenAt = service.base.lastSeenAt := by
    unfold align
    dsimp only
    split <;> rfl
  unfold transferPlan
  dsimp only
  split_ifs
  · exact ⟨forall_mem_nil _, halign⟩
  · exact ⟨forall_mem_nil _, halign⟩
  · exact trivial
  · refine ⟨fun r hr => ?_, halign⟩
    unfold reclaimRequests at hr
    split at hr
    · exact absurd hr not_mem_nil
    · split_ifs at hr
      · rw [mem_singleton.mp hr]
        exact trivial
      · rw [mem_singleton.mp hr]
        exact trivial
  · exact trivial

namespace ServiceStage
variable {s s' : ServiceStage} {fixed : TransferContext}
variable {portIdRemap : HashMap Uuid Uuid} {services : List TrackedService}
  {returned : Option TrackedService}

theorem performAll_created (defs : ServiceDefinitions) (env : ChildEnv) (s : ServiceStage)
    (requests : List ServiceRequest) : (s.performAll defs env requests).created = s.created := by
  unfold performAll
  refine List.foldlRecOn (motive := fun u : ServiceStage => u.created = s.created) requests _ rfl ?_
  intro u hu r _
  exact (perform_memory defs env u r).2.trans hu

theorem restamped_perform (defs : ServiceDefinitions) (env : ChildEnv)
    (hr : r.Timely t s.store.services) :
    Restamped entitySeenTime t s.store.services (s.perform defs env r).1.store.services := by
  unfold perform
  cases hcheck : s.store.check defs r with
  | error e => exact refl _ _ _
  | ok w => exact ServiceStore.restamped_write _ (ServiceStore.seen_of_check hr hcheck)

theorem restamped_performAll (defs : ServiceDefinitions) (env : ChildEnv) (t : Timestamp)
    {requests : List ServiceRequest} (hquiet : ∀ r ∈ requests, r.Quiet s.store.services) :
    Restamped entitySeenTime t s.store.services
      (s.performAll defs env requests).store.services := by
  -- the times stay what they are, which is to be restamped with any time at all
  suffices hall : ∀ t, Restamped entitySeenTime t s.store.services
      (s.performAll defs env requests).store.services from hall t
  unfold performAll
  refine List.foldlRecOn (motive := fun u : ServiceStage => ∀ t,
    Restamped entitySeenTime t s.store.services u.store.services) requests _
    (fun t => refl _ _ _) ?_
  intro u hu r hr t
  have hstart := hquiet r hr
  have hnow : r.Quiet u.store.services := by
    cases r with
    | create => exact hstart
    | update service => exact StampedAt.mono hstart (hu _)
    | removePortBindings => exact trivial
    | delete => exact trivial
  exact (hu t).trans (restamped_perform defs env (hnow.timely t))

theorem perform_create {newId : Uuid} {now : Timestamp} (hid : service.id ≠ Uuid.nil)
    (hseen : service.base.lastSeenAt = t)
    (h : s.perform defs env (.create service newId now) = (s', some created)) :
    Touched entitySeenTime t s.store.services s'.store.services [created.id] ∧
      created.base.lastSeenAt = t := by
  have htimely : (ServiceRequest.create service newId now).Timely t s.store.services := ⟨hid, hseen⟩
  have hrestamped := restamped_perform defs env htimely
  rw [h] at hrestamped
  unfold perform at h
  cases hcheck : s.store.check defs (.create service newId now) with
  | error e =>
    rw [hcheck] at h
    exact absurd (Prod.mk.inj h).2 nofun
  | ok w =>
    rw [hcheck] at h
    obtain ⟨htime, hmode⟩ := ServiceStore.check_create_seen hid hcheck
    obtain ⟨hstore, hreturned⟩ := Prod.mk.inj h
    subst hstore
    split_ifs at hreturned with hwrite
    obtain rfl := some.inj hreturned
    refine ⟨⟨hrestamped, fun k hk service' hservice' hkey => ?_⟩, htime.trans hseen⟩
    rw [mem_singleton.mp hk] at hkey
    rcases (ServiceStore.written_write w).service hwrite service' hservice' hkey with
      ⟨-, rfl⟩ | ⟨hkeep, -⟩
    · exact htime.trans hseen
    · rw [hkeep] at hmode
      exact absurd hmode (by decide)

/-- In the middle of a call: the services that it has stored have the time `t`. -/
structure Seen (t : Timestamp) (start : EntityTable TrackedServiceBase) (s : ServiceStage) :
    Prop where
  touched : Touched entitySeenTime t start s.store.services (s.created.map (·.id))
  created : ∀ e ∈ s.created, e.base.lastSeenAt = t

theorem touched_createService (hcreate : s.createService defs env service = some (s', created))
    (hid : service.id ≠ Uuid.nil) (hseen : service.base.lastSeenAt = t) :
    Touched entitySeenTime t s.store.services s'.store.services [created.id] ∧
      created.base.lastSeenAt = t ∧ s'.created = s.created := by
  unfold createService at hcreate
  split at hcreate
  next hperform =>
    cases hcreate
    obtain ⟨htouched, htime⟩ := perform_create hid hseen hperform
    have hmemory := (perform_memory defs env s (.create service (env.newServiceId s.made) env.now)).2
    rw [hperform] at hmemory
    exact ⟨htouched, htime, hmemory⟩
  next => exact absurd hcreate nofun

/-- The row that `createOwner` stores for a service. -/
def ownerRow (host : Host) (svc : TrackedService) : TrackedService :=
  { svc with base := { svc.base with
    hostId := host.id, networkId := host.base.networkId, bindings := []
    virtualizationServiceId := none } }

/-- The service owns a subnet, is not among those that exist, and is not refused. -/
def StoresOwner (defs : ServiceDefinitions) (env : ChildEnv) (host : Host) (ownerIds : List Uuid)
    (s : ServiceStage) (svc : TrackedService) : Prop :=
  svc.id ∈ ownerIds ∧ defs.isGeneric svc.base.serviceDefinition = false ∧
    s.existingServices.find? (·.same defs { svc with base := { svc.base with
      hostId := host.id, networkId := host.base.networkId } }) = none ∧
    ∃ w, s.store.check defs (.create (ownerRow host svc) (env.newServiceId s.made) env.now) = .ok w

def OwnersWithIds (defs : ServiceDefinitions) (env : ChildEnv) (host : Host)
    (services : List TrackedService) (subnets : List Subnet) (store : ServiceStore) : Prop :=
  let existing := store.liveServices host.id
  let ownerIds := subnets.filterMap (·.base.virtualizationServiceId)
  InsertsWithIds (fun s svc => some (createOwner defs env host ownerIds s svc))
    (StoresOwner defs env host ownerIds)
    (precomputeRemap defs host.id services
      { store, existingServices := existing, liveServiceIds := existing.map (·.id) }) services

theorem perform_of_error {e : ServiceError} (defs : ServiceDefinitions) (env : ChildEnv)
    (h : s.store.check defs r = .error e) : (s.perform defs env r).1.store = s.store := by
  unfold perform
  rw [h]

theorem restamped_createOwner {ownerIds : List Uuid}
    (hid : s.StoresOwner defs env host ownerIds service → service.id ≠ Uuid.nil)
    (hseen : service.base.lastSeenAt = t) :
    Restamped entitySeenTime t s.store.services
      (s.createOwner defs env host ownerIds service).store.services := by
  unfold createOwner
  split_ifs with howns
  · exact refl _ _ _
  · dsimp only
    split
    · exact refl _ _ _
    next hnone =>
      simp only [Bool.or_eq_true, decide_eq_true_eq, not_or, not_not, Bool.not_eq_true] at howns
      have hperform : Restamped entitySeenTime t s.store.services (s.perform defs env
          (.create (ownerRow host service) (env.newServiceId s.made)
            env.now)).1.store.services := by
        cases hcheck : s.store.check defs
            (.create (ownerRow host service) (env.newServiceId s.made) env.now) with
        | error e =>
          rw [perform_of_error defs env hcheck]
          exact refl _ _ _
        | ok w =>
          have hstored : s.StoresOwner defs env host ownerIds service :=
            ⟨howns.1, howns.2, hnone, w, hcheck⟩
          exact restamped_perform defs env ⟨hid hstored, hseen⟩
      dsimp only [ownerRow] at hperform
      split
      next hrun =>
        rw [hrun] at hperform
        exact hperform
      next hrun =>
        rw [hrun] at hperform
        exact hperform

theorem restamped_createOwners {subnets : List Subnet} {store : ServiceStore}
    (hids : OwnersWithIds defs env host services subnets store)
    (hseen : ∀ svc ∈ services, svc.base.lastSeenAt = t) :
    Restamped entitySeenTime t store.services
      (createOwners defs env host services subnets store).store.services := by
  refine Lts.invariant_of_guarded (P := fun u : ServiceStage =>
    Restamped entitySeenTime t store.services u.store.services) (refl _ _ _) ?_ hids
    foldlM_pure
  intro svc hsvc u u' hu hid hstep
  cases hstep
  exact hu.trans (restamped_createOwner hid (hseen svc hsvc))

theorem Seen.transfer (h : s.Seen t start) (hseen : service.base.lastSeenAt = t)
    (hplan : ((s.context fixed).transferPlan defs s.store service).KeepsTimes s.store.services)
    (htransfer : s.transfer defs env fixed service = some s') : s'.Seen t start := by
  have hsame := (s.context fixed).lastSeenAt_transferPlan defs s.store service
  unfold ServiceStage.transfer at htransfer
  dsimp only at htransfer
  split at htransfer
  next requests orphaned hdrop =>
    rw [hdrop] at hplan
    cases htransfer
    have hquiet := restamped_performAll defs env t hplan.2
    have hcreated := performAll_created defs env s requests
    refine ⟨?_, ?_⟩
    · rw [hcreated]
      exact h.touched.mono hquiet
    · rw [hcreated]
      exact h.created
  next before reclaimed submitted hcreate =>
    rw [hcreate] at hplan hsame
    obtain ⟨hquiet, hsubmitted⟩ := hsame
    have hbefore := restamped_performAll defs env t hquiet
    obtain ⟨⟨u, created⟩, hcreated, rfl⟩ := map_eq_some_iff.mp htransfer
    obtain ⟨htouched, htime, hmemory⟩ :=
      touched_createService hcreated hplan (hsubmitted.trans hseen)
    have hcreated₀ := performAll_created defs env s before
    refine ⟨?_, fun e he => ?_⟩
    · rw [hmemory, hcreated₀, map_append]
      exact (h.touched.mono hbefore).trans htouched
    · rw [hmemory, hcreated₀] at he
      rcases mem_append.mp he with he | he
      · exact h.created e he
      · rw [mem_singleton.mp he]
        exact htime

theorem Seen.perform_update {svc : TrackedService}
    (hperform : s.perform defs env (.update svc) = (s', returned)) (h : s.Seen t start)
    (hsvc : svc.base.lastSeenAt = t) : s'.Seen t start := by
  have htimely : (ServiceRequest.update svc).Timely t s.store.services := .inl hsvc
  have hrestamped := restamped_perform defs env htimely
  have hcreated := (perform_memory defs env s (.update svc)).2
  rw [hperform] at hrestamped hcreated
  refine ⟨?_, ?_⟩
  · rw [hcreated]
    exact h.touched.mono hrestamped
  · rw [hcreated]
    exact h.created

theorem Seen.fixOwners (h : s.Seen t start) (hfix : s.fixOwners defs env fixed = some s') :
    s'.Seen t start := by
  refine Lts.invariant_of_foldlM (P := Seen t start) h ?_ hfix
  intro svc hsvc u u' hu hstep
  refine Lts.invariant_of_foldlM (P := Seen t start) hu ?_ hstep
  intro r hr v v' hv hperform
  unfold DiscoveryStep.requests at hr
  dsimp only at hr
  split_ifs at hr
  · exact absurd hr not_mem_nil
  · rw [mem_singleton.mp hr] at hperform
    split at hperform
    next hrun =>
      cases hperform
      exact Seen.perform_update hrun hv (h.created svc hsvc)
    next => exact absurd hperform nofun

theorem Seen.fixBindings {ipAddressIdRemap : HashMap Uuid Uuid} (h : s.Seen t start) :
    (s.fixBindings defs env ipAddressIdRemap portIdRemap).Seen t start := by
  refine List.foldlRecOn (motive := Seen t start) s.created _ h fun u hu svc hsvc => ?_
  refine List.foldlRecOn (motive := Seen t start) _ _ hu fun v hv r hr => ?_
  unfold DiscoveryStep.requests at hr
  dsimp only at hr
  split_ifs at hr
  · rw [mem_singleton.mp hr]
    exact Seen.perform_update rfl hv (h.created svc hsvc)
  · exact absurd hr not_mem_nil

def KeepsTimes (defs : ServiceDefinitions) (env : ChildEnv) (fixed : TransferContext)
    (s : ServiceStage) (services : List TrackedService) : Prop :=
  (Lts.mk s (transfer defs env fixed)).Guarded (fun s service =>
    ((s.context fixed).transferPlan defs s.store service).KeepsTimes s.store.services) s services

theorem perform_orphaned
    (h : s.perform defs env r = (s', returned)) : s'.orphaned = s.orphaned := by
  unfold perform at h
  split at h
  · cases h
    rfl
  · cases h
    rfl

theorem performAll_orphaned (defs : ServiceDefinitions) (env : ChildEnv) (s : ServiceStage)
    (requests : List ServiceRequest) : (s.performAll defs env requests).orphaned = s.orphaned := by
  refine List.foldlRecOn (motive := fun u : ServiceStage => u.orphaned = s.orphaned) requests _
    rfl ?_
  intro u hu r _
  exact (perform_orphaned rfl).trans hu

theorem orphaned_transfer (horphaned : s.orphaned = [])
    (hplan : ((s.context fixed).transferPlan defs s.store service).KeepsTimes s.store.services)
    (htransfer : s.transfer defs env fixed service = some s') : s'.orphaned = [] := by
  unfold ServiceStage.transfer at htransfer
  dsimp only at htransfer
  split at htransfer
  next requests orphaned hdrop =>
    rw [hdrop] at hplan
    cases htransfer
    show s.orphaned ++ orphaned = []
    rw [horphaned, hplan.1]
    rfl
  next before reclaimed submitted _ =>
    obtain ⟨⟨u, created⟩, hcreated, rfl⟩ := map_eq_some_iff.mp htransfer
    show u.orphaned = []
    unfold createService at hcreated
    split at hcreated
    next hrun =>
      cases hcreated
      rw [perform_orphaned hrun]
      exact (performAll_orphaned defs env s before).trans horphaned
    next => exact absurd hcreated nofun

theorem Seen.transfers
    (h : s.Seen t start) (horphaned : s.orphaned = [])
    (hseen : ∀ svc ∈ services, svc.base.lastSeenAt = t)
    (hguard : KeepsTimes defs env fixed s services)
    (hrun : services.foldlM (ServiceStage.transfer defs env fixed) s = some s') :
    s'.Seen t start ∧ s'.orphaned = [] := by
  refine Lts.invariant_of_guarded (P := fun u : ServiceStage => u.Seen t start ∧ u.orphaned = [])
    ⟨h, horphaned⟩ ?_ hguard hrun
  intro service hservice u u' hu hplan hstep
  exact ⟨hu.1.transfer (hseen service hservice) hplan hstep, orphaned_transfer hu.2 hplan hstep⟩

theorem Seen.transferAll
    (h : s.Seen t start) (horphaned : s.orphaned = [])
    (hseen : ∀ svc ∈ services, svc.base.lastSeenAt = t)
    (hguard : KeepsTimes defs env fixed s services)
    (htransfer : s.transferAll defs env fixed portIdRemap services = some s') :
    s'.Seen t start := by
  obtain ⟨s₁, htransferred, htransfer⟩ := bind_eq_some_iff.mp htransfer
  obtain ⟨s₂, hcreated, htransfer⟩ := bind_eq_some_iff.mp htransfer
  obtain ⟨s₃, hfixed, htransfer⟩ := bind_eq_some_iff.mp htransfer
  cases htransfer
  obtain ⟨h₁, hnone⟩ := h.transfers horphaned hseen hguard htransferred
  -- no binding is left over, so that no other service is stored
  unfold createOrphaned at hcreated
  rw [hnone] at hcreated
  cases hcreated
  exact (h₁.fixOwners hfixed).fixBindings

end ServiceStage
end Services

section Interfaces
variable {tbl after : InterfaceTable} {env : ChildEnv} {host : Host}
  {collected : InterfaceDataComplete} {entry row : SnmpInterface}
variable {claimed : List Uuid}

theorem mergeReport_lastSeenAt (entry existing : SnmpInterface)
    (collected : InterfaceDataComplete) :
    (InterfaceTable.mergeReport entry existing collected).base.lastSeenAt =
      entry.base.lastSeenAt := by
  unfold mergeReport preserveUncollectedData
  cases collected.lldp <;> cases collected.cdp <;> cases collected.fdb <;>
    cases collected.vlanMembership <;> rfl

/-- The report matches no stored row, and its row is not refused. -/
def InterfaceTable.Inserts (tbl : InterfaceTable) (env : IngestEnv) (entry : SnmpInterface)
    (claimed : List Uuid) : Prop :=
  let entry := SnmpInterface.normalizeBlankIdentity entry
  tbl.findMatchingExisting entry claimed = none ∧ (tbl.insert (newReport env entry)).isSome = true

theorem inserts_of_createOrUpdateFromDiscovery {env : IngestEnv}
    (h : tbl.createOrUpdateFromDiscovery env entry claimed collected = some (after, row))
    (hnone : tbl.findMatchingExisting (SnmpInterface.normalizeBlankIdentity entry) claimed = none) :
    tbl.Inserts env entry claimed := by
  unfold createOrUpdateFromDiscovery at h
  dsimp only at h
  rw [hnone] at h
  obtain ⟨inserted, hinsert, -⟩ := map_eq_some_iff.mp h
  exact ⟨hnone, by rw [hinsert]; rfl⟩

theorem touched_createOrUpdateFromDiscovery {env : IngestEnv}
    (h : tbl.createOrUpdateFromDiscovery env entry claimed collected = some (after, row))
    (hid : tbl.Inserts env entry claimed → entry.id ≠ Uuid.nil)
    (hseen : entry.base.lastSeenAt = t) :
    Touched entitySeenTime t tbl after [row.id] := by
  rcases createOrUpdateFromDiscovery_cases h with
    ⟨existing, -, hrow, hrows⟩ | ⟨hnone, hrow, hrows, hfree⟩
  · have htime : entitySeenTime row = t := by
      rw [hrow]
      exact (mergeReport_lastSeenAt _ existing collected).trans hseen
    have hset : after = tbl.set row := by
      apply Table.ext_rows
      rw [hrows]
      exact map_congr_left fun j _ => if_congr eq_comm rfl rfl
    rw [hset]
    exact touched_set tbl htime
  · have hid' : (normalizeBlankIdentity entry).id ≠ Uuid.nil :=
      hid (inserts_of_createOrUpdateFromDiscovery h hnone)
    have htime : entitySeenTime row = t := by
      rw [hrow, newReport, if_neg hid']
      exact hseen
    have hrestamped : Restamped entitySeenTime t tbl after := by
      refine .of_mem fun i hi => ?_
      replace hi : i ∈ after.rows := hi
      rw [hrows, mem_append, mem_singleton] at hi
      rcases hi with hi | rfl
      · exact .inr hi
      · exact .inl htime
    refine ⟨hrestamped, fun k hk => ?_⟩
    rw [mem_singleton.mp hk]
    exact hrestamped.stampedAt hfree

theorem restamped_pruneInterfaces (t : Timestamp) (tbl : InterfaceTable) (hostId : Uuid)
    (kept : List Uuid) :
    Restamped entitySeenTime t tbl (tbl.pruneInterfaces hostId kept) := by
  unfold pruneInterfaces
  refine List.foldlRecOn (motive := Restamped entitySeenTime t tbl) (tbl.getForHost hostId) _
    (refl _ _ _) fun u hu i _ => ?_
  split_ifs
  · exact hu
  · refine hu.trans fun j hj => ?_
    obtain ⟨j₀, hj₀, rfl⟩ := List.mem_map.mp hj
    refine .inr ⟨j₀, (Table.mem_delete.mp hj₀).1, (releaseNeighbor_id _ _).symm, ?_⟩
    unfold releaseNeighbor
    split_ifs <;> rfl

def InterfaceStage.Inserts (env : ChildEnv) (host : Host) (s : InterfaceStage)
    (entry : SnmpInterface) : Prop :=
  s.table.Inserts ⟨env.scanTime, env.now, env.newInterfaceId (s.created.length + s.skipped)⟩
    { entry with base := { entry.base with hostId := host.id, networkId := host.base.networkId } }
    (s.created.map (·.id))

theorem touched_createInterfaces {interfacesComplete : Bool}
    {interfaces created : List SnmpInterface}
    (hids : InsertsWithIds (InterfaceStage.step env host collected)
      (InterfaceStage.Inserts env host) { table := tbl } interfaces)
    (hseen : ∀ i ∈ interfaces, i.base.lastSeenAt = t)
    (h : createInterfaces env host collected interfacesComplete interfaces tbl =
      some (after, created)) : Touched entitySeenTime t tbl after (created.map (·.id)) := by
  obtain ⟨s, hrun, heq⟩ := map_eq_some_iff.mp h
  have hstart : Touched entitySeenTime t tbl tbl [] := (refl _ _ _).touched
  have hloop : Touched entitySeenTime t tbl s.table (s.created.map (·.id)) := by
    refine Lts.invariant_of_guarded (P := fun s : InterfaceStage =>
      Touched entitySeenTime t tbl s.table (s.created.map (·.id))) hstart ?_ hids hrun
    intro entry hentry s s' hs hid hstep
    dsimp only at hstep
    unfold InterfaceStage.step at hstep
    dsimp only at hstep
    split at hstep
    next hingest =>
      cases hstep
      rw [map_append]
      exact hs.trans (touched_createOrUpdateFromDiscovery hingest hid (hseen entry hentry))
    next =>
      split at hstep
      · exact absurd hstep nofun
      · cases hstep
        exact hs
  cases heq
  split_ifs
  · exact hloop.mono (restamped_pruneInterfaces _ _ _ _)
  · exact hloop

theorem restamped_linkInterfaces (t : Timestamp) (s : VlanLinkStore) (hostId : Uuid) :
    Restamped entitySeenTime t s.interfaces
      (s.linkInterfacesToIpAddresses hostId).interfaces := by
  unfold VlanLinkStore.linkInterfacesToIpAddresses
  refine List.foldlRecOn (motive := Restamped entitySeenTime t s.interfaces) _ _
    (refl _ _ _) fun u hu i hi => ?_
  split
  next _ ipAddressId _ =>
    cases hupdate : update u
        { i with base := { i.base with ipAddressId := some ipAddressId } } with
    | none => exact hu
    | some u' =>
      intro j hj
      replace hj : j ∈ u'.rows := hj
      rw [rows_update hupdate] at hj
      obtain ⟨j₀, hj₀, rfl⟩ := List.mem_map.mp hj
      split_ifs
      · exact .inr ⟨i, (mem_getForHost.mp hi).1, rfl, rfl⟩
      · exact hu j₀ hj₀
  next => exact hu

end Interfaces

section Vlans
variable {newId : ℕ → Uuid} {now : ℕ → Timestamp} {s s' : VlanStage} {report : VlanReport}

def VlanStage.Refreshes (t : Timestamp) (now : ℕ → Timestamp) (s : VlanStage)
    (report : VlanReport) : Prop :=
  match s.vlans.findLive (report.networkId, report.vlanNumber) with
  | some existing => existing.base.name ≠ report.name ∨ existing.base.lastSeenAt = t
  | none => now s.ids.length = t

theorem VlanStage.touched_step (hreport : report.scanTime = some t)
    (hrefreshes : s.Refreshes t now report)
    (hstep : VlanStage.step newId now s report = some s') :
    ∃ id, s'.ids = s.ids ++ [id] ∧ Touched seenTime t s.vlans s'.vlans [id] := by
  obtain ⟨vlans, hwrite, rfl⟩ := map_eq_some_iff.mp hstep
  refine ⟨_, rfl, ?_⟩
  unfold Refreshes at hrefreshes
  unfold lookupReport at hwrite ⊢
  cases hfind : s.vlans.findLive (report.networkId, report.vlanNumber) with
  | some existing =>
    simp only [hfind, hreport] at hwrite hrefreshes ⊢
    have hmem : existing ∈ s.vlans := mem_of_find?_eq_some hfind
    split_ifs at hwrite ⊢ with hname
    · -- the name is another one: the row is written with the time
      have hstored : s.vlans.find existing.id = some existing := Table.find_eq_some.mpr ⟨hmem, rfl⟩
      simp only [writeReport, updateVlan, TrackedVlan.refreshScanTimestamps,
        hstored] at hwrite
      obtain ⟨-, rfl⟩ := UniqueIndex.set_eq_some hwrite
      exact touched_set s.vlans rfl
    · cases hwrite
      refine ⟨refl _ _ _, fun k hk r hr hkey => ?_⟩
      rw [mem_singleton.mp hk] at hkey
      rw [s.vlans.eq_of_key hr hmem hkey]
      exact hrefreshes.resolve_left hname
  | none =>
    simp only [hfind] at hwrite hrefreshes ⊢
    obtain ⟨-, hinsert⟩ := UniqueIndex.insert_eq_some hwrite
    have htime : (reportedRow (newId s.ids.length) (now s.ids.length)
        report).base.lastSeenAt = t := by
      unfold reportedRow
      rw [hreport]
      exact hrefreshes
    exact touched_insertMany hinsert htime

/-- No report of a VLAN finds it under its name with an older time, and none is new at another
moment. -/
def VlansTimely (t : Timestamp) (newId : ℕ → Uuid) (now : ℕ → Timestamp) (s : VlanStage)
    (reports : List VlanReport) : Prop :=
  (Lts.mk s (VlanStage.step newId now)).Guarded (VlanStage.Refreshes t now) s reports

theorem VlanStage.touched_foldlM {reports : List VlanReport} {start : VlanTable}
    (h : Touched seenTime t start s.vlans s.ids)
    (hreports : ∀ report ∈ reports, report.scanTime = some t)
    (hguard : VlansTimely t newId now s reports)
    (hrun : reports.foldlM (VlanStage.step newId now) s = some s') :
    Touched seenTime t start s'.vlans s'.ids := by
  refine Lts.invariant_of_guarded (P := fun u : VlanStage => Touched seenTime t start u.vlans u.ids)
    h ?_ hguard hrun
  intro report hreport u u' hu hrefreshes hstep
  obtain ⟨id, hids, htouched⟩ := touched_step (hreports report hreport) hrefreshes hstep
  rw [hids]
  exact hu.trans htouched

end Vlans

namespace Scan
variable {c : Scan} {s after : ScanStore} {ids : SeenIds}
variable {p : PreparedHost ChildStage} {hosts : RowTable TrackedHostBase} {host : TrackedHost}

def transferContext (c : Scan) (p : PreparedHost ChildStage) (created : List IPAddress) :
    TransferContext where
  host := p.context.host
  originalIpAddresses := c.stamped.request.ipAddresses
  originalPorts := c.stamped.request.ports
  ipAddresses := (c.stamped.request.ipAddresses.zip created).map (·.2)
  ports := p.rest.createdPorts.map (Row.map (·.toPortBase))
  ipAddressIdRemap := collectRemap
    ((c.stamped.request.ipAddresses.zip created).map fun (a, b) => (a.id, b.id))
  existingServices := p.rest.memory.existingServices
  batchClaimed := []
  serviceIdRemap := p.rest.memory.serviceIdRemap
  liveServiceIds := p.rest.memory.liveServiceIds

def transferStart (p : PreparedHost ChildStage) (ipAddresses : RowTable IPAddressBase) :
    ServiceStage :=
  { p.rest.memory with store := p.rest.serviceStore ipAddresses.entities }

/-- What a scan asks of the children of its host. -/
structure TimelyChildren (c : Scan) (s : ScanStore) (p : PreparedHost ChildStage) : Prop where
  ipAddresses : InsertsWithIds p.context.step p.context.Inserts { rows := s.ipAddresses }
    c.stamped.request.ipAddresses
  ports : InsertsWithIds (PortStage.step c.childEnv p.context.host)
    (PortStage.Inserts p.context.host) { rows := s.ports } c.stamped.ports
  owners : ∀ ports createdPorts,
    createPorts c.childEnv p.context.host c.stamped.ports s.ports = some (ports, createdPorts) →
    ServiceStage.OwnersWithIds c.defs c.childEnv p.context.host c.stamped.services
      c.stamped.request.subnets
      (ChildStage.serviceStore { s.hostStore.rest with ports, createdPorts } ⟨[], List.nodup_nil⟩)
  transfers : ∀ ipAddresses created,
    p.context.createIpAddresses s.ipAddresses = some (ipAddresses, created) →
    ServiceStage.KeepsTimes c.defs c.childEnv (c.transferContext p created)
      (transferStart p ipAddresses) c.stamped.services
  interfaces : InsertsWithIds
    (InterfaceStage.step c.childEnv p.context.host c.stamped.request.interfaceDataComplete)
    (InterfaceStage.Inserts c.childEnv p.context.host) { table := s.interfaces }
    c.stamped.interfaces

structure Timely (c : Scan) (s : ScanStore) : Prop where
  host : ∀ aligned, alignHost c.limitCtx .upsert c.stamped.request s.hostStore = .ok aligned →
    aligned.id ≠ Uuid.nil
  -- a subnet without an id gets the time of the server, also where it is the one that is stored
  subnets : ∀ r ∈ c.stamped.request.subnets, r.id ≠ Uuid.nil
  children : ∀ hosts host p, c.resolveHost s = .ok (hosts, host) →
    prepareHost (c.createEnv host) c.stages c.limitCtx .upsert c.stamped.request s.hostStore =
      .ok p → c.TimelyChildren s p
  vlans : VlansTimely c.time c.newVlanId c.vlanNow { vlans := s.vlans } c.vlanReports

theorem lastSeenAt_map {A E : Type} {entities : List A} {refresh : A → Row E}
    {seenAt : E → Timestamp} (h : ∀ a, seenAt (refresh a).base = c.time) :
    ∀ r ∈ entities.map refresh, seenAt r.base = c.time :=
  List.forall_mem_map.mpr fun a _ => h a

theorem touched_children
    {ipAddresses : RowTable IPAddressBase} {created : List IPAddress} {rest : ChildStage}
    {children : CreatedChildren} (htimely : c.TimelyChildren s p)
    (hp : prepareHost (c.createEnv host) c.stages c.limitCtx .upsert c.stamped.request
      s.hostStore = .ok p)
    (haddresses : p.context.createIpAddresses s.ipAddresses = some (ipAddresses, created))
    (hchildren : c.stages.children c.stamped.request p.context.host
      (c.stamped.request.ipAddresses.zip created)
      ⟨p.hosts, p.context.subnets, ipAddresses, p.rest⟩ = some (rest, children)) :
    Touched entitySeenTime c.time s.ports rest.ports (children.ports.map (·.id)) ∧
      Touched entitySeenTime c.time s.services rest.services (children.services.map (·.id)) ∧
      Touched entitySeenTime c.time s.interfaces rest.interfaces
        (children.interfaces.map (·.id)) := by
  obtain ⟨-, rest₀, owner, -, -, -, hports, howners, -⟩ := prepareHost_ok hp
  obtain ⟨⟨ports, createdPorts⟩, hcreatePorts, rfl⟩ := map_eq_some_iff.mp hports
  have htouchedPorts := touched_createPorts htimely.ports (lastSeenAt_map fun _ => rfl) hcreatePorts
  have hguard := htimely.transfers ipAddresses created haddresses
  obtain ⟨hprest, -⟩ := Prod.mk.inj (some.inj howners)
  have howned := ServiceStage.restamped_createOwners
    (htimely.owners ports createdPorts hcreatePorts)
    (lastSeenAt_map fun _ => rfl)
  obtain ⟨stage, htransfer, hchildren⟩ := bind_eq_some_iff.mp hchildren
  obtain ⟨⟨interfaces, createdInterfaces⟩, hinterfaces, hchildren⟩ := bind_eq_some_iff.mp hchildren
  cases hchildren
  have hstart : (transferStart p ipAddresses).Seen c.time s.services := by
    refine ⟨touched ?_, fun e he => absurd he not_mem_nil⟩
    unfold transferStart
    rw [← hprest]
    exact howned
  have hseen := hstart.transferAll rfl (lastSeenAt_map fun _ => rfl) hguard htransfer
  have hsame : p.rest.ports = ports ∧ p.rest.createdPorts = createdPorts ∧
      p.rest.interfaces = s.interfaces := by
    rw [← hprest]
    exact ⟨rfl, rfl, rfl⟩
  have htouchedInterfaces := touched_createInterfaces (hsame.2.2 ▸ htimely.interfaces)
    (lastSeenAt_map fun _ => rfl) hinterfaces
  refine ⟨?_, ?_, ?_⟩
  · dsimp only
    rw [hsame.1, hsame.2.1, List.map_map]
    exact htouchedPorts
  · dsimp only
    rw [List.map_map]
    exact hseen.touched
  · dsimp only
    rw [List.map_map, ← hsame.2.2]
    exact htouchedInterfaces

theorem touched_resolveHost
    (htimely : c.Timely s) (hresolve : c.resolveHost s = .ok (hosts, host)) :
    Touched seenTime c.time s.hosts hosts [host.id] := by
  obtain ⟨aligned, haligned, hcreate⟩ := exists_of_bind_eq_ok hresolve
  have hid := htimely.host aligned haligned
  exact touched_createTrackedHost hid rfl hcreate

theorem id_of_prepareHost (htimely : c.Timely s)
    (hresolve : c.resolveHost s = .ok (hosts, host))
    (hp : prepareHost (c.createEnv host) c.stages c.limitCtx .upsert c.stamped.request
      s.hostStore = .ok p) : p.context.host.id = host.id := by
  obtain ⟨aligned, haligned, hcreate⟩ := exists_of_bind_eq_ok hresolve
  obtain ⟨aligned', -, -, -, haligned', hcreate', -⟩ := prepareHost_ok hp
  obtain rfl : aligned = aligned' := Except.ok.inj (haligned.symm.trans haligned')
  have hid := htimely.host aligned haligned
  have htracked : host.id = aligned.id := (createTrackedHost_id hcreate).trans (if_neg hid)
  have hother : p.context.host.id = aligned.id := (createUnlocked_id hcreate').trans (if_neg hid)
  exact hother.trans htracked.symm

theorem all_lastSeenAt (htimely : c.Timely s) (h : c.run s = .ok (ids, after)) :
    ids.All after fun B _ b => Sighted.lastSeenAt b = c.time := by
  obtain ⟨reported, hreported, h⟩ := exists_of_bind_eq_ok h
  obtain ⟨⟨hosts, host⟩, hresolve, h⟩ := exists_of_bind_eq_ok h
  obtain ⟨p, hp, h⟩ := exists_of_bind_eq_ok h
  obtain ⟨⟨response, stored⟩, hcreate, h⟩ := exists_of_bind_eq_ok h
  cases h
  obtain ⟨p', children, hp', haddresses, hchildren, hsubnets, hid, hports, hservices,
    hinterfaces⟩ := createWithChildren_ok hcreate
  obtain rfl : p = p' := Except.ok.inj (hp.symm.trans hp')
  have hrows := htimely.children hosts host p hresolve hp
  obtain ⟨htouchedPorts, htouchedServices, htouchedInterfaces⟩ :=
    touched_children hrows hp haddresses hchildren
  obtain ⟨-, -, owner, stage, -, -, -, -, hfold, hstage, hcreatedIds, hincoming, hupsert⟩ :=
    prepareHost_ok hp
  have htouchedSubnets :=
    SubnetStage.touched_foldlM htimely.subnets (lastSeenAt_map fun _ => rfl) hfold
  have htouchedAddresses := AddressContext.touched_createIpAddresses
    (hincoming ▸ hrows.ipAddresses) (by rw [hincoming]; exact lastSeenAt_map fun _ => rfl)
    hupsert haddresses
  have htouchedHost := touched_resolveHost htimely hresolve
  have hreports : ∀ report ∈ c.vlanReports, report.scanTime = some c.time := by
    intro report hreport
    obtain ⟨r, -, rfl⟩ := List.mem_map.mp hreport
    rfl
  have hvlans := VlanStage.touched_foldlM (refl _ _ _).touched hreports htimely.vlans
    (eq_some_of_elim_eq_ok hreported)
  constructor
  · intro r hr _ hkey
    exact htouchedHost.stamped _ (mem_singleton_self _) r hr
      (hkey.trans (hid.trans (id_of_prepareHost htimely hresolve hp)))
  · intro r hr _ hmem
    rw [hsubnets, hstage] at hr
    rw [hcreatedIds] at hmem
    exact htouchedSubnets.stamped _ hmem r hr rfl
  · intro r hr _ hmem
    exact htouchedAddresses.stamped _ hmem r hr rfl
  · intro r hr _ hmem
    rw [hports] at hmem
    exact htouchedPorts.stamped _ hmem r hr rfl
  · intro r hr _ hmem
    rcases mem_append.mp hmem with hmem | hnew
    · rw [hservices] at hmem
      exact htouchedServices.stamped _ hmem r hr rfl
    · -- a service that was not stored before
      have hfree := (mem_filter.mp hnew).2
      refine htouchedServices.restamped.stampedAt (fun r₀ hr₀ => ?_) r hr rfl
      exact of_decide_eq_true (List.all_eq_true.mp hfree r₀ hr₀)
  · intro r hr _ hmem
    rw [hinterfaces] at hmem
    refine (htouchedInterfaces.stamped _ hmem).mono ?_ r hr rfl
    dsimp only
    unfold linkInterfaces
    split_ifs
    · exact refl _ _ _
    · exact restamped_linkInterfaces _ _ _
  · intro r hr _ hmem
    exact hvlans.stamped _ hmem r hr rfl

end Scan

/-- A scan that takes none of the branches that lose its time leaves all it has seen with this time,
so that none of it is stale before the network's window has passed. -/
theorem seenAt_run (c : Scan) (s after : ScanStore) (ids : SeenIds) (htimely : c.Timely s)
    (h : c.run s = .ok (ids, after)) :
    (ids.All after fun B _ b => Sighted.lastSeenAt b = c.time) ∧
      ∀ cutoff ≤ c.time, ids.All after fun B _ b => freshness b cutoff ≠ .stale := by
  have hall := Scan.all_lastSeenAt htimely h
  refine ⟨hall, fun cutoff hcutoff => hall.imp fun B _ b hseen hstale => ?_⟩
  have hold := (freshness_eq_stale_iff.mp hstale).2
  rw [hseen] at hold
  exact absurd hcutoff (not_le.mpr hold)

section Rescan

def rescanHost (id : Uuid) : TrackedHost :=
  ⟨id, 0, 0, none, none, {
    name := "core", nameSource := .hostname, networkId := 9, hostname := none, description := none
    source := .discovery, virtualizationMetadata := none, virtualizationServiceId := none
    hidden := false, texts := fun _ => none, updatedAt := 0, lastSeenAt := 0
    lastDiscoveryId := none, firstDiscoveryId := none }⟩

def rescanStore : ScanStore where
  hosts := ⟨[⟨rescanHost 1, none⟩], by decide⟩
  subnets := laptopStore.subnets
  ipAddresses := laptopStore.ipAddresses
  ports := ⟨[switchPort 50 1 80 0], by decide⟩
  services := ⟨[], List.nodup_nil⟩
  bindings := ⟨[], List.nodup_nil⟩
  interfaces := ⟨[switchInterface 71 1 1 none], by decide⟩
  vlans := ⟨[⟨⟨60, 0, 0, none, none, {
    toVlanBase := ⟨10, "users", none, 9, 1⟩, source := .discovery, updatedAt := 0
    lastSeenAt := 0 }⟩, none⟩], by decide⟩

def rescan (vlanName : String) : Scan where
  defs := switchDefinitions
  env := laptopEnv
  childEnv := switchEnv
  limitCtx := none
  host := rescanHost 40
  submission := {
    request := { laptopRequest [laptopAddress 41 Uuid.nil 0x0A000005 0x3C22FB010203 5] with
      host := ⟨40, 0, 0, none, none, ⟨"core", 9, none, none, none, false, []⟩⟩
      ports := [⟨43, 0, 0, none, none, ⟨40, 9, 80, .tcp⟩⟩]
      interfaces := [Row.map (·.toInterfaceBase) (switchInterface 45 40 1 none)] }
    ports := [switchPort 43 40 80 5]
    services := []
    interfaces := [switchInterface 45 40 1 none]
    ports_eq := rfl
    services_eq := HostSubmission.no_services
    interfaces_eq := switchSubmission.interfaces_eq }
  host_eq := rfl
  vlans := [⟨9, 1, 10, vlanName, none⟩]
  newVlanId := fun _ => 97
  vlanNow := fun _ => 6

theorem timely_rescan : (rescan "guests").Timely rescanStore where
  host aligned haligned := by
    obtain rfl := Except.ok.inj (show Except.ok _ = Except.ok aligned from haligned)
    decide +kernel
  subnets := by decide +kernel
  children _ _ _ _ _ := {
    ipAddresses := ⟨fun _ => by decide +kernel, fun _ _ => trivial⟩
    ports := ⟨fun _ => by decide +kernel, fun _ _ => trivial⟩
    owners := fun _ _ _ => trivial
    transfers := fun _ _ _ => trivial
    interfaces := ⟨fun _ => by decide +kernel, fun _ _ => trivial⟩ }
  vlans := by
    refine ⟨?_, fun _ _ => trivial⟩
    left
    decide +kernel

/-- The VLAN has another name: all that the scan has seen is fresh. -/
theorem seenAt_run_rescan : ∃ ids after, (rescan "guests").run rescanStore = .ok (ids, after) ∧
    (ids.All after fun B _ b => Sighted.lastSeenAt b = 5) ∧ ids.vlans = [60] := by
  obtain ⟨ids, after, hrun, hvlans⟩ : ∃ ids after,
      (rescan "guests").run rescanStore = .ok (ids, after) ∧ ids.vlans = [60] := ⟨_, _, rfl, rfl⟩
  exact ⟨ids, after, hrun, (seenAt_run _ _ _ _ timely_rescan hrun).1, hvlans⟩

/-- A VLAN that is reported with the name it has is returned without a write. -/
theorem not_seenAt_run : ¬∀ (c : Scan) (s after : ScanStore) (ids : SeenIds),
    c.run s = .ok (ids, after) → ids.All after fun B _ b => Sighted.lastSeenAt b = c.time := by
  intro h
  have hall := h (rescan "users") rescanStore _ _ rfl
  have hvlan := hall.vlans _ mem_cons_self rfl mem_cons_self
  exact absurd hvlan (by decide)

end Rescan
end Scanopy
