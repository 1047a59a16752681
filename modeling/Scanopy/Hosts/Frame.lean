import Scanopy.Hosts.Addresses
import Scanopy.Hosts.Children
import Scanopy.Lib.Ownership

/-! What a discovery leaves alone. All its writes are about children of the host it has resolved the
submission to; but what it deletes is also struck out of the children of others. -/

namespace Scanopy
open List Option Bool Ownership

def ownerReference :
    Reference (fun s : TrackedService => s.id) (fun s : TrackedService => s.base.hostId) where
  ref s := s.base.virtualizationServiceId
  clear s := { s with base := { s.base with virtualizationServiceId := none } }
  key_clear _ := rfl
  owner_clear _ := rfl
  ref_clear _ := rfl

def neighborReference :
    Reference (fun i : SnmpInterface => i.id) (fun i : SnmpInterface => i.base.hostId) where
  ref i := match i.base.neighbor with
    | some (.interface id) => some id
    | _ => none
  clear i := SnmpInterface.setNeighbor i none
  key_clear _ := rfl
  owner_clear _ := rfl
  ref_clear _ := rfl

section Services
variable {hostId : Uuid} {store store' : ServiceStore} {defs : ServiceDefinitions}
  {draws : ℕ → Uuid} {w : ServiceWrite} {e : TrackedService}
variable {r : ServiceRequest}

def ServiceStore.IdOnHost (store : ServiceStore) (hostId id : Uuid) : Prop :=
  BelongsTo store.services (fun s => s.base.hostId) hostId id

def ServiceStore.OnHost (store : ServiceStore) (hostId : Uuid) (s : TrackedService) : Prop :=
  s.base.hostId = hostId ∧ store.IdOnHost hostId s.id

structure ServicesKept (hostId : Uuid) (before after : ServiceStore) : Prop where
  services : Kept ownerReference hostId before.services after.services
  bindings : ∀ b ∈ before.bindings, ¬before.IdOnHost hostId b.base.serviceId → b ∈ after.bindings

theorem ServicesKept.refl (hostId : Uuid) (store : ServiceStore) :
    ServicesKept hostId store store := ⟨Kept.refl _ _ _, fun _ hb _ => hb⟩

theorem ServicesKept.trans {mid : ServiceStore} (h : ServicesKept hostId store mid)
    (h' : ServicesKept hostId mid store') : ServicesKept hostId store store' := by
  refine ⟨h.services.trans h'.services, fun b hb hother => ?_⟩
  have hother' : ¬mid.IdOnHost hostId b.base.serviceId :=
    fun hid => hother (BelongsTo.of_kept hid h.services)
  exact h'.bindings b (h.bindings b hb hother) hother'

theorem ServiceStore.OnHost.mono (h : store.OnHost hostId e)
    (hkept : ServicesKept hostId store store') : store'.OnHost hostId e :=
  ⟨h.1, BelongsTo.mono h.2 hkept.services⟩

theorem ServiceStore.idOnHost_of_mem (s : TrackedService) (hs : s ∈ store.services)
    (hhost : s.base.hostId = hostId) : store.IdOnHost hostId s.id := by
  intro r hr hid
  rw [store.services.eq_of_key hr hs hid]
  exact hhost

def ServiceRequest.Confined (hostId : Uuid) (store : ServiceStore) : ServiceRequest → Prop
  | create service _ _ => service.base.hostId = hostId
  | update service => store.OnHost hostId service
  | removePortBindings serviceId _ | delete serviceId => store.IdOnHost hostId serviceId

theorem ServiceRequest.Confined.mono (h : r.Confined hostId store)
    (hkept : ServicesKept hostId store store') : r.Confined hostId store' := by
  cases r with
  | create => exact h
  | update => exact ServiceStore.OnHost.mono h hkept
  | removePortBindings => exact BelongsTo.mono h hkept.services
  | delete => exact BelongsTo.mono h hkept.services

def TransferPlan.Confined (hostId : Uuid) (store : ServiceStore) : TransferPlan → Prop
  | create before _ service =>
    (∀ r ∈ before, r.Confined hostId store) ∧ service.base.hostId = hostId
  | drop requests _ => ∀ r ∈ requests, r.Confined hostId store

theorem submittedService_hostId (service : TrackedService) (newId : Uuid) (now : Timestamp) :
    (submittedService service newId now).base.hostId = service.base.hostId := by
  unfold submittedService TrackedService.withBindings
  dsimp only
  split_ifs <;> rfl

/-- Such a request writes a service of the host, under an id that no other host has; only an insert
does not know that yet. -/
theorem ServiceStore.onHost_of_check (hr : r.Confined hostId store)
    (h : store.check defs r = .ok w) :
    w.service.base.hostId = hostId ∧ (w.mode = .insert ∨ store.IdOnHost hostId w.service.id) := by
  cases r with
  | create service newId now =>
    have hhost : (submittedService service newId now).base.hostId = hostId :=
      (submittedService_hostId service newId now).trans hr
    rcases checkCreate_cases h with ⟨existing, htarget, rfl⟩ | ⟨-, -, rfl⟩
    · obtain ⟨s, hs, -, hsHost, rfl⟩ := upsertTarget_eq_some htarget
      exact ⟨hsHost.trans hhost, .inr (idOnHost_of_mem s hs (hsHost.trans hhost))⟩
    · exact ⟨hhost, .inl rfl⟩
  | update service =>
    obtain ⟨-, rfl⟩ := check_update h
    exact ⟨hr.1, .inr hr.2⟩
  | removePortBindings serviceId claims =>
    obtain ⟨s, hs, hid, -, hservice, -⟩ := check_removePortBindings h
    have hhost : s.base.hostId = hostId := hr s hs hid
    rw [hservice]
    exact ⟨hhost, .inr (idOnHost_of_mem s hs hhost)⟩
  | delete serviceId =>
    obtain ⟨s, hs, hid, -, hservice, -⟩ := check_delete h
    have hhost : s.base.hostId = hostId := hr s hs hid
    rw [hservice]
    exact ⟨hhost, .inr (idOnHost_of_mem s hs hhost)⟩

theorem ServiceStore.idOnHost_or_refused (draws : ℕ → Uuid)
    (h : w.mode = .insert ∨ store.IdOnHost hostId w.service.id) :
    store.IdOnHost hostId w.service.id ∨ store.write draws w = (store, false) := by
  rcases h with hmode | hid
  · cases hinsert : store.services.insertMany [w.service] with
    | none =>
      refine .inr ?_
      simp only [write, hmode, hinsert]
    | some services =>
      have hfree := (Table.insertMany_eq_some hinsert).2.2
      exact .inl fun r hr hkey => absurd hkey (hfree r hr w.service (mem_singleton_self _))
  · exact .inl hid

theorem ServiceStore.services_saveForParent (store : ServiceStore) (serviceId : Uuid)
    {children : List Binding} (howned : ∀ c ∈ children, c.base.serviceId = serviceId) :
    (store.saveForParent serviceId draws children).1.services = store.services := by
  rw [(saved_saveForParent howned).frame]

theorem ServiceStore.kept_services_write (hhost : w.service.base.hostId = hostId)
    (hid : store.IdOnHost hostId w.service.id) :
    Kept ownerReference hostId store.services (store.write draws w).1.services := by
  unfold write
  cases w.mode with
  | insert =>
    dsimp only
    cases hinsert : store.services.insertMany [w.service] with
    | none => exact Kept.refl _ _ _
    | some services =>
      dsimp only
      rw [services_saveForParent _ _ w.owned]
      refine kept_insert hhost fun s => ?_
      rw [Table.mem_insertMany hinsert, mem_singleton]
  | update =>
    dsimp only
    split_ifs
    · rw [services_saveForParent _ _ w.owned]
      exact kept_set hhost hid
    · exact Kept.refl _ _ _
  | keep =>
    dsimp only
    split_ifs
    · rw [services_saveForParent _ _ w.owned]
      exact Kept.refl _ _ _
    · exact Kept.refl _ _ _
  | delete => exact kept_deleteSetNull (c := ownerReference) hid

theorem ServiceStore.kept_write (draws : ℕ → Uuid) (hhost : w.service.base.hostId = hostId)
    (hid : store.IdOnHost hostId w.service.id) :
    ServicesKept hostId store (store.write draws w).1 := by
  refine ⟨kept_services_write hhost hid, fun b hb hother => ?_⟩
  have hne : b.base.serviceId ≠ w.service.id := by
    intro hservice
    rw [hservice] at hother
    exact hother hid
  exact ((written_write w).otherBindings b hne).mpr hb

namespace TransferContext
variable {ctx : TransferContext}

theorem align_hostId (ctx : TransferContext) (defs : ServiceDefinitions)
    (service : TrackedService) : (ctx.align defs service).base.hostId = ctx.host.id := by
  unfold align
  dsimp only
  split <;> rfl

theorem mem_reclaimedServices {claims : List (Uuid × Option Uuid)}
    (h : e ∈ ctx.reclaimedServices defs claims) :
    ∃ e₀ ∈ ctx.existingServices, e₀.id = e.id ∧ e₀.base.hostId = e.base.hostId := by
  unfold reclaimedServices at h
  split at h
  · exact ⟨e, h, rfl, rfl⟩
  · obtain ⟨j, hj⟩ := mem_iff_getElem?.mp h
    rw [List.getElem?_modify] at hj
    obtain ⟨e₀, he₀, rfl⟩ := map_eq_some_iff.mp hj
    refine ⟨e₀, mem_of_getElem? he₀, ?_⟩
    split_ifs <;> exact ⟨rfl, rfl⟩

theorem confined_transferPlan (ctx : TransferContext) (service : TrackedService)
    (hexisting : ∀ e ∈ ctx.existingServices, store.OnHost ctx.host.id e) :
    (ctx.transferPlan defs store service).Confined ctx.host.id store := by
  have hhost := ctx.align_hostId defs service
  unfold transferPlan
  dsimp only
  split_ifs
  · exact ⟨forall_mem_nil _, hhost⟩
  · exact ⟨forall_mem_nil _, hhost⟩
  · intro r hr
    obtain ⟨s, hs, rfl⟩ := List.mem_map.mp hr
    exact hexisting s (mem_filter.mp hs).1
  · refine ⟨fun r hr => ?_, hhost⟩
    unfold reclaimRequests at hr
    split at hr
    · exact absurd hr not_mem_nil
    next openPorts hfind =>
      have hid := (hexisting openPorts (mem_of_find?_eq_some hfind)).2
      split_ifs at hr
      · rw [mem_singleton.mp hr]
        exact hid
      · rw [mem_singleton.mp hr]
        exact hid
  · exact forall_mem_nil _

end TransferContext

namespace ServiceStage
variable {env : ChildEnv} {s s' : ServiceStage} {r : ServiceRequest}
variable {ipAddressIdRemap portIdRemap : HashMap Uuid Uuid} {host : Host}
  {created service svc : TrackedService}

/-- What one request does: it keeps the services of the other hosts, and returns one of the
host. -/
theorem perform_spec (defs : ServiceDefinitions) (env : ChildEnv)
    (hr : r.Confined hostId s.store) :
    ServicesKept hostId s.store (s.perform defs env r).1.store ∧
      ∀ created ∈ (s.perform defs env r).2,
        (s.perform defs env r).1.store.OnHost hostId created := by
  unfold perform
  cases hcheck : s.store.check defs r with
  | error e =>
    refine ⟨ServicesKept.refl hostId s.store, fun created hcreated => ?_⟩
    exact absurd hcreated (not_mem_none created)
  | ok w =>
    obtain ⟨hhost, hid⟩ := ServiceStore.onHost_of_check hr hcheck
    dsimp only
    rcases ServiceStore.idOnHost_or_refused (env.newBindingId s.made) hid with hid | hwrite
    · have hkept := ServiceStore.kept_write (env.newBindingId s.made) hhost hid
      refine ⟨hkept, fun created hcreated => ?_⟩
      split_ifs at hcreated
      · obtain rfl := some.inj hcreated
        exact ⟨hhost, BelongsTo.mono hid hkept.services⟩
      · exact absurd hcreated (not_mem_none created)
    · rw [hwrite]
      refine ⟨ServicesKept.refl hostId s.store, fun created hcreated => ?_⟩
      exact absurd hcreated (not_mem_none created)

theorem perform_memory (defs : ServiceDefinitions) (env : ChildEnv) (s : ServiceStage)
    (r : ServiceRequest) :
    (s.perform defs env r).1.existingServices = s.existingServices ∧
      (s.perform defs env r).1.created = s.created := by
  unfold perform
  split <;> exact ⟨rfl, rfl⟩

structure Confined (hostId : Uuid) (start : ServiceStore) (s : ServiceStage) : Prop where
  kept : ServicesKept hostId start s.store
  existing : ∀ e ∈ s.existingServices, s.store.OnHost hostId e
  created : ∀ e ∈ s.created, s.store.OnHost hostId e

variable {start : ServiceStore}

theorem Confined.restart (h : s.Confined hostId start) : s.Confined hostId s.store :=
  ⟨.refl _ _, h.existing, h.created⟩

theorem Confined.trans (h : s.Confined hostId start) (h' : s'.Confined hostId s.store) :
    s'.Confined hostId start := ⟨h.kept.trans h'.kept, h'.existing, h'.created⟩

theorem Confined.perform {returned : Option TrackedService} (h : s.Confined hostId start)
    (hperform : s.perform defs env r = (s', returned)) (hr : r.Confined hostId s.store) :
    s'.Confined hostId s.store ∧ ∀ created ∈ returned, s'.store.OnHost hostId created := by
  obtain ⟨hkept, hreturned⟩ := perform_spec defs env hr
  obtain ⟨hexisting, hcreated⟩ := perform_memory defs env s r
  rw [hperform] at hkept hreturned hexisting hcreated
  refine ⟨⟨hkept, ?_, ?_⟩, hreturned⟩
  · rw [hexisting]
    exact fun e he => (h.existing e he).mono hkept
  · rw [hcreated]
    exact fun e he => (h.created e he).mono hkept

theorem Confined.performAll (defs : ServiceDefinitions) (env : ChildEnv)
    {requests : List ServiceRequest} (h : s.Confined hostId start)
    (hrequests : ∀ r ∈ requests, r.Confined hostId s.store) :
    (s.performAll defs env requests).Confined hostId s.store := by
  unfold ServiceStage.performAll
  refine List.foldlRecOn requests _ h.restart fun t ht r hr => ?_
  exact ht.trans (ht.perform rfl ((hrequests r hr).mono ht.kept)).1

theorem Confined.createService
    (hcreate : s.createService defs env service = some (s', created))
    (h : s.Confined hostId start) (hhost : service.base.hostId = hostId) :
    s'.Confined hostId start ∧ s'.store.OnHost hostId created := by
  unfold ServiceStage.createService at hcreate
  split at hcreate
  next hperform =>
    cases hcreate
    obtain ⟨hconfined, hreturned⟩ := h.perform hperform hhost
    exact ⟨h.trans hconfined, hreturned created rfl⟩
  next => exact absurd hcreate nofun

theorem Confined.remember (h : s.Confined hostId start)
    (hcreated : s.store.OnHost hostId created) :
    ∀ e ∈ s.existingServices ++ [created], s.store.OnHost hostId e := by
  intro e he
  rcases mem_append.mp he with he | he
  · exact h.existing e he
  · rwa [mem_singleton.mp he]

theorem Confined.createOwner {ownerIds : List Uuid} (h : s.Confined host.id start)
    (svc : TrackedService) :
    (createOwner defs env host ownerIds s svc).Confined host.id start := by
  unfold ServiceStage.createOwner
  split_ifs
  · exact h
  · dsimp only
    split
    · exact ⟨h.kept, h.existing, h.created⟩
    · split
      next hperform => exact h.trans (h.perform hperform rfl).1
      next created hperform =>
        obtain ⟨hconfined, hreturned⟩ := h.perform hperform rfl
        exact h.trans
          ⟨hconfined.kept, hconfined.remember (hreturned created rfl), hconfined.created⟩

theorem confined_createOwners (host : Host) (services : List TrackedService)
    (subnets : List Subnet) (store : ServiceStore) :
    (createOwners defs env host services subnets store).Confined host.id store := by
  unfold createOwners
  refine List.foldlRecOn services _ ?_ fun s h svc _ => h.createOwner svc
  refine ⟨.refl _ _, fun e he => ?_, fun e he => absurd he not_mem_nil⟩
  obtain ⟨r, hr, -, hhost, rfl⟩ := ServiceStore.mem_liveServices.mp he
  exact ⟨hhost, ServiceStore.idOnHost_of_mem r hr hhost⟩

variable {fixed : TransferContext}

theorem Confined.transfer (h : s.Confined fixed.host.id start)
    (htransfer : s.transfer defs env fixed service = some s') :
    s'.Confined fixed.host.id start := by
  have hplan : ((s.context fixed).transferPlan defs s.store service).Confined fixed.host.id
      s.store := (s.context fixed).confined_transferPlan service h.existing
  unfold ServiceStage.transfer at htransfer
  dsimp only at htransfer
  split at htransfer
  next requests orphaned hdrop =>
    rw [hdrop] at hplan
    cases htransfer
    have hrun := h.trans (h.performAll defs env hplan)
    exact ⟨hrun.kept, hrun.existing, hrun.created⟩
  next before reclaimed submitted hcreate =>
    rw [hcreate] at hplan
    obtain ⟨hbefore, hhost⟩ := hplan
    have hrun := h.performAll defs env hbefore
    have hreclaimed : ∀ e ∈ (s.context fixed).reclaimedServices defs reclaimed,
        (s.performAll defs env before).store.OnHost fixed.host.id e := by
      intro e he
      obtain ⟨e₀, he₀, hid, he₀Host⟩ := TransferContext.mem_reclaimedServices he
      have honHost := (h.existing e₀ he₀).mono hrun.kept
      unfold ServiceStore.OnHost at honHost ⊢
      rwa [← hid, ← he₀Host]
    obtain ⟨⟨t, created⟩, hcreated, rfl⟩ := map_eq_some_iff.mp htransfer
    obtain ⟨ht, honHost⟩ :=
      Confined.createService hcreated ⟨hrun.kept, hreclaimed, hrun.created⟩ hhost
    refine h.trans ⟨ht.kept, ht.remember honHost, fun e he => ?_⟩
    rcases mem_append.mp he with he | he
    · exact ht.created e he
    · rwa [mem_singleton.mp he]

theorem Confined.createOrphaned (h : s.Confined host.id start)
    (hcreate : s.createOrphaned defs env host = some s') : s'.Confined host.id start := by
  unfold ServiceStage.createOrphaned at hcreate
  split_ifs at hcreate
  · cases hcreate
    exact h
  · obtain ⟨⟨t, created⟩, hcreated, rfl⟩ := map_eq_some_iff.mp hcreate
    obtain ⟨ht, honHost⟩ := h.createService hcreated rfl
    refine ⟨ht.kept, ht.existing, fun e he => ?_⟩
    rcases mem_append.mp he with he | he
    · exact ht.created e he
    · rwa [mem_singleton.mp he]

theorem confined_of_mem_fixOwner {owner : Option Uuid}
    (hsvc : store.OnHost hostId svc)
    (hr : r ∈ (DiscoveryStep.fixOwner svc owner).requests defs store) :
    r.Confined hostId store := by
  unfold DiscoveryStep.requests at hr
  dsimp only at hr
  split_ifs at hr
  · exact absurd hr not_mem_nil
  · rw [mem_singleton.mp hr]
    exact hsvc

theorem confined_of_mem_fixBindings (hsvc : store.OnHost hostId svc)
    (hr : r ∈ (DiscoveryStep.fixBindings svc ipAddressIdRemap portIdRemap).requests defs store) :
    r.Confined hostId store := by
  unfold DiscoveryStep.requests at hr
  dsimp only at hr
  split_ifs at hr
  · rw [mem_singleton.mp hr]
    exact hsvc
  · exact absurd hr not_mem_nil

theorem Confined.fixOwners (h : s.Confined fixed.host.id start)
    (hfix : s.fixOwners defs env fixed = some s') : s'.Confined fixed.host.id start := by
  refine h.trans (Lts.invariant_of_foldlM (P := Confined fixed.host.id s.store) h.restart ?_ hfix)
  intro svc hsvc t t' ht hstep
  refine ht.trans (Lts.invariant_of_foldlM (P := Confined fixed.host.id t.store) ht.restart ?_ hstep)
  intro r hr u u' hu hperform
  have hsvc := (h.created svc hsvc).mono ht.kept
  split at hperform
  next hperformed =>
    cases hperform
    have hconfined := (confined_of_mem_fixOwner hsvc hr).mono hu.kept
    exact hu.trans (hu.perform hperformed hconfined).1
  next => exact absurd hperform nofun

theorem Confined.fixBindings
    (h : s.Confined hostId start) :
    (s.fixBindings defs env ipAddressIdRemap portIdRemap).Confined hostId start := by
  refine h.trans (List.foldlRecOn s.created _ h.restart fun t ht svc hsvc => ?_)
  have hsvc := (h.created svc hsvc).mono ht.kept
  exact ht.trans (ht.performAll defs env fun r hr => confined_of_mem_fixBindings hsvc hr)

theorem Confined.transferAll {services : List TrackedService}
    (h : s.Confined fixed.host.id start)
    (htransfer : s.transferAll defs env fixed portIdRemap services = some s') :
    s'.Confined fixed.host.id start := by
  obtain ⟨s₁, htransferred, htransfer⟩ := bind_eq_some_iff.mp htransfer
  obtain ⟨s₂, horphaned, htransfer⟩ := bind_eq_some_iff.mp htransfer
  obtain ⟨s₃, hfixed, htransfer⟩ := bind_eq_some_iff.mp htransfer
  cases htransfer
  have h₁ : s₁.Confined fixed.host.id start :=
    Lts.invariant_of_foldlM h (fun _ _ _ _ ht hstep => ht.transfer hstep) htransferred
  exact ((h₁.createOrphaned horphaned).fixOwners hfixed).fixBindings

end ServiceStage
end Services

section Ports
variable {env : ChildEnv} {host : Host} {s s' : PortStage} {port : TrackedPort}
  {rows after : EntityTable TrackedPortBase}

theorem of_findExistingPort {existing : TrackedPort}
    (h : findExistingPort rows port = some existing) :
    existing ∈ rows ∧ (existing.id = port.id ∨ existing.base.hostId = port.base.hostId) := by
  rcases or_eq_some_iff.mp h with h | ⟨-, h⟩
  · obtain ⟨hmem, hid⟩ := Table.find_eq_some.mp h
    exact ⟨hmem, .inl hid⟩
  · have hmem := mem_of_find?_eq_some h
    rw [mem_insertionSort, mem_filter, decide_eq_true_eq] at hmem
    exact ⟨hmem.1, .inr hmem.2⟩

theorem PortStage.step_cases (h : PortStage.step env host s port = some s') :
    (∃ existing u, existing ∈ s.rows ∧ u.id = existing.id ∧
      (existing.id = port.id ∨ existing.base.hostId = host.id) ∧ s'.rows = s.rows ∧
      s'.toRefresh = s.toRefresh ++ [u]) ∨
    ((∀ r ∈ s.rows, r ∈ s'.rows) ∧ s'.toRefresh = s.toRefresh) := by
  unfold PortStage.step at h
  dsimp only at h
  split at h
  next existing hfind =>
    cases h
    obtain ⟨hmem, howned⟩ := of_findExistingPort hfind
    refine .inl ⟨existing, _, hmem, ?_, howned, rfl, rfl⟩
    rfl
  next =>
    obtain ⟨rows, hinsert, rfl⟩ := map_eq_some_iff.mp h
    unfold insertPort at hinsert
    split_ifs at hinsert
    exact .inr ⟨fun r hr => (Table.mem_insertMany hinsert).mpr (.inl hr), rfl⟩

structure PortStage.Confined (hostId : Uuid) (named : List Uuid)
    (start : EntityTable TrackedPortBase) (s : PortStage) : Prop where
  rows : ∀ r ∈ start, r ∈ s.rows
  refresh : ∀ u ∈ s.toRefresh, u.id ∈ named ∨
    ∃ e ∈ s.rows, e.id = u.id ∧ e.base.hostId = hostId

theorem PortStage.Confined.step {named : List Uuid} {start : EntityTable TrackedPortBase}
    (h : s.Confined host.id named start) (hport : port.id ∈ named)
    (hstep : PortStage.step env host s port = some s') : s'.Confined host.id named start := by
  rcases PortStage.step_cases hstep with
    ⟨existing, u, hmem, hid, howned, hrows, hrefresh⟩ | ⟨hrows, hrefresh⟩
  · refine ⟨by rw [hrows]; exact h.rows, ?_⟩
    rw [hrows, hrefresh]
    intro u' hu'
    rcases mem_append.mp hu' with hu' | hu'
    · exact h.refresh u' hu'
    · rw [mem_singleton.mp hu', hid]
      rcases howned with hnamed | hhost
      · rw [hnamed]
        exact .inl hport
      · exact .inr ⟨existing, hmem, rfl, hhost⟩
  · refine ⟨fun r hr => hrows r (h.rows r hr), ?_⟩
    rw [hrefresh]
    intro u hu
    refine (h.refresh u hu).imp_right ?_
    rintro ⟨e, he, howned⟩
    exact ⟨e, hrows e he, howned⟩

theorem mem_createPorts {ports created : List TrackedPort}
    (h : createPorts env host ports rows = some (after, created)) {r : TrackedPort} (hr : r ∈ rows)
    (hother : r.base.hostId ≠ host.id) (hnamed : r.id ∉ ports.map (·.id)) : r ∈ after := by
  obtain ⟨s, hrun, heq⟩ := map_eq_some_iff.mp h
  cases heq
  have hstart : PortStage.Confined host.id (ports.map (·.id)) rows { rows } :=
    ⟨fun _ hr => hr, fun _ hu => absurd hu not_mem_nil⟩
  have hconfined : s.Confined host.id (ports.map (·.id)) rows := by
    refine Lts.invariant_of_foldlM hstart (fun port hport t t' ht hstep => ?_) hrun
    exact ht.step (List.mem_map_of_mem hport) hstep
  exact mem_updateMany_of_other (fun r : TrackedPort => r.base.hostId)
    hconfined.refresh (hconfined.rows r hr) hother hnamed

end Ports

section Addresses
namespace AddressContext
variable {c : AddressContext} {rows after : RowTable IPAddressBase} {a : IPAddress}
  {s s' : AddressStage} {r : StoredRow IPAddressBase}

theorem hostId_of_findByMac (h : c.findByMac rows a = some r) :
    r.base.hostId = a.base.hostId := by
  rw [findByMac] at h
  split at h
  · cases h
  · split_ifs at h
    split at h
    next hfilter =>
      cases h
      have hmem := mem_singleton_self r
      rw [← hfilter, mem_filter, and_eq_true, and_eq_true] at hmem
      exact of_decide_eq_true hmem.2.1.2
    next => cases h

theorem of_findExisting (h : c.findExisting rows (c.place a) = some r) :
    r.id = a.id ∨ r.base.hostId = c.host.id := by
  rcases or_eq_some_iff.mp h with h | ⟨-, h⟩
  · have hid := find?_some h
    exact .inl (of_decide_eq_true hid)
  · rcases or_eq_some_iff.mp h with h | ⟨-, h⟩
    · have hmem := mem_of_find?_eq_some h
      rw [mem_filter, and_eq_true, and_eq_true] at hmem
      exact .inr (of_decide_eq_true hmem.2.1.2)
    · exact .inr (hostId_of_findByMac h)

variable (c) in
structure Confined (start : RowTable IPAddressBase) (s : AddressStage) : Prop where
  rows : ∀ r ∈ start, r ∈ s.rows
  refresh : ∀ u ∈ s.toRefresh, u.id ∈ c.incoming.map (·.id) ∨
    ∃ e ∈ s.rows, e.id = u.id ∧ e.base.hostId = c.host.id

theorem Confined.step {start : RowTable IPAddressBase} (h : c.Confined start s)
    (hupsert : c.conflictBehavior = .upsert) (ha : a ∈ c.incoming) (hstep : c.step s a = some s') :
    c.Confined start s' := by
  have hrows := rows_subset_of_step hupsert hstep
  refine ⟨fun r hr => hrows r (h.rows r hr), ?_⟩
  have hold : ∀ u ∈ s.toRefresh, u.id ∈ c.incoming.map (·.id) ∨
      ∃ e ∈ s'.rows, e.id = u.id ∧ e.base.hostId = c.host.id := by
    intro u hu
    refine (h.refresh u hu).imp_right ?_
    rintro ⟨e, he, howned⟩
    exact ⟨e, hrows e he, howned⟩
  rcases step_cases hupsert hstep with ⟨r, hr, hfind, -, hrefresh⟩ | ⟨-, hrefresh, -⟩
  · rw [hrefresh]
    intro u hu
    rcases mem_append.mp hu with hu | hu
    · exact hold u hu
    · rw [mem_singleton.mp hu]
      rcases of_findExisting hfind with hid | hhost
      · exact .inl (List.mem_map.mpr ⟨a, ha, hid.symm⟩)
      · exact .inr ⟨r, hrows r hr, rfl, hhost⟩
  · rw [hrefresh]
    exact hold

theorem mem_createIpAddresses {created : List IPAddress}
    (hupsert : c.conflictBehavior = .upsert)
    (h : c.createIpAddresses rows = some (after, created)) (hr : r ∈ rows)
    (hother : r.base.hostId ≠ c.host.id) (hnamed : r.id ∉ c.incoming.map (·.id)) :
    r ∈ after := by
  obtain ⟨s, hrun, heq⟩ := map_eq_some_iff.mp h
  cases heq
  have hstart : c.Confined rows { rows } := ⟨fun _ hr => hr, fun _ hu => absurd hu not_mem_nil⟩
  have hconfined : c.Confined rows s := by
    refine Lts.invariant_of_foldlM hstart (fun a ha t t' ht hstep => ?_) hrun
    exact ht.step hupsert ha hstep
  exact mem_updateMany_of_other (fun r : StoredRow IPAddressBase => r.base.hostId)
    hconfined.refresh (hconfined.rows r hr) hother hnamed

end AddressContext
end Addresses

section Interfaces
variable {env : ChildEnv} {host : Host} {collected : InterfaceDataComplete}
  {s s' : InterfaceStage} {t t' : InterfaceTable}

theorem ref_neighborReference_eq_some {i : SnmpInterface} {id : Uuid} :
    neighborReference.ref i = some id ↔ i.base.neighbor = some (.interface id) := by
  show (match i.base.neighbor with
    | some (.interface id) => some id
    | _ => none) = some id ↔ _
  generalize i.base.neighbor = neighbor
  rcases neighbor with _ | _ | _ <;> simp

theorem release_neighborReference (id : Uuid) :
    neighborReference.release id = SnmpInterface.releaseNeighbor id := by
  funext i
  unfold Reference.release SnmpInterface.releaseNeighbor
  by_cases h : i.base.neighbor = some (.interface id)
  · rw [if_pos h, if_pos (ref_neighborReference_eq_some.mpr h)]
    rfl
  · rw [if_neg h, if_neg (mt ref_neighborReference_eq_some.mp h)]

theorem deleteInterface_eq (t : InterfaceTable) (id : Uuid) :
    t.deleteInterface id = neighborReference.deleteSetNull t id := by
  apply Table.ext_rows
  unfold InterfaceTable.deleteInterface Reference.deleteSetNull
  rw [Table.rows_modify, Table.rows_modify, release_neighborReference]

theorem mergeReport_hostId (entry existing : SnmpInterface) (collected : InterfaceDataComplete) :
    (InterfaceTable.mergeReport entry existing collected).base.hostId = entry.base.hostId :=
  (SnmpInterface.preserveUncollectedData_frame _ existing collected).1

theorem newReport_hostId (env : IngestEnv) (entry : SnmpInterface) :
    (InterfaceTable.newReport env entry).base.hostId = entry.base.hostId := by
  unfold InterfaceTable.newReport
  split_ifs <;> rfl

theorem kept_createOrUpdateFromDiscovery {env : IngestEnv} {entry row : SnmpInterface}
    {claimed : List Uuid}
    (h : t.createOrUpdateFromDiscovery env entry claimed collected = some (t', row)) :
    Kept neighborReference entry.base.hostId t t' := by
  rcases InterfaceTable.createOrUpdateFromDiscovery_cases h with
    ⟨existing, hmatch, hrow, hrows⟩ | ⟨-, hrow, hrows, -⟩
  · obtain ⟨hmem, -, hhost⟩ := InterfaceTable.of_findMatchingExisting hmatch
    have hid : row.id = existing.id := by
      rw [hrow]
      rfl
    have hrowHost : row.base.hostId = entry.base.hostId := by
      rw [hrow]
      exact mergeReport_hostId _ existing collected
    have hset : t' = t.set row := by
      apply Table.ext_rows
      rw [hrows]
      exact map_congr_left fun j _ => if_congr eq_comm rfl rfl
    rw [hset]
    refine kept_set hrowHost fun r hr hkey => ?_
    rw [t.eq_of_key hr hmem (hkey.trans hid)]
    exact hhost
  · have hrowHost : row.base.hostId = entry.base.hostId := by
      rw [hrow]
      exact newReport_hostId env _
    refine kept_insert hrowHost fun r => ?_
    show r ∈ t'.rows ↔ _
    rw [hrows, mem_append, mem_singleton]
    rfl

theorem InterfaceStage.kept_step {entry : SnmpInterface}
    (h : InterfaceStage.step env host collected s entry = some s') :
    Kept neighborReference host.id s.table s'.table := by
  unfold InterfaceStage.step at h
  dsimp only at h
  split at h
  next hingest =>
    cases h
    exact kept_createOrUpdateFromDiscovery hingest
  next =>
    split at h
    · exact absurd h nofun
    · cases h
      exact Kept.refl _ _ _

theorem kept_pruneInterfaces (t : InterfaceTable) (hostId : Uuid) (kept : List Uuid) :
    Kept neighborReference hostId t (t.pruneInterfaces hostId kept) := by
  unfold InterfaceTable.pruneInterfaces
  refine List.foldlRecOn (t.getForHost hostId) _ (Kept.refl _ _ _) fun t' h i hi => ?_
  obtain ⟨hmem, -, hhost⟩ := InterfaceTable.mem_getForHost.mp hi
  split_ifs
  · exact h
  · have hbelongs : BelongsTo t (fun i : SnmpInterface => i.base.hostId) hostId i.id := by
      intro r hr hid
      rw [t.eq_of_key hr hmem hid]
      exact hhost
    rw [deleteInterface_eq]
    exact h.trans (kept_deleteSetNull (hbelongs.mono h))

theorem kept_createInterfaces {interfacesComplete : Bool} {interfaces created : List SnmpInterface}
    (h : createInterfaces env host collected interfacesComplete interfaces t =
      some (t', created)) : Kept neighborReference host.id t t' := by
  obtain ⟨s, hrun, heq⟩ := map_eq_some_iff.mp h
  have hloop : Kept neighborReference host.id t s.table := by
    refine Lts.invariant_of_foldlM (P := fun s : InterfaceStage =>
      Kept neighborReference host.id t s.table) (Kept.refl _ _ _) ?_ hrun
    exact fun entry _ s s' hs hstep => hs.trans (InterfaceStage.kept_step hstep)
  cases heq
  split_ifs
  · exact hloop.trans (kept_pruneInterfaces _ _ _)
  · exact hloop

end Interfaces

/-- The children of all hosts but one are as they were. Of the addresses and the ports this leaves
out those whose id the submission names; a service loses the service that it runs in, and an
interface its neighbour, if no other host but the one has a row of that id. -/
structure OthersKept (hostId : Uuid) (request : DiscoveryHostRequest)
    (before after : HostStore ChildStage) : Prop where
  ipAddresses : ∀ r ∈ before.ipAddresses, r.base.hostId ≠ hostId →
    r.id ∉ request.ipAddresses.map (·.id) → r ∈ after.ipAddresses
  ports : ∀ r ∈ before.rest.ports, r.base.hostId ≠ hostId → r.id ∉ request.ports.map (·.id) →
    r ∈ after.rest.ports
  services : Kept ownerReference hostId before.rest.services after.rest.services
  bindings : ∀ b ∈ before.rest.bindings, ∀ s ∈ before.rest.services, s.id = b.base.serviceId →
    s.base.hostId ≠ hostId → b ∈ after.rest.bindings
  interfaces : Kept neighborReference hostId before.rest.interfaces after.rest.interfaces

section Create
variable {R : Type} {env : CreateEnv} {others : OtherStages R} {limitCtx : Option HostLimitContext}
  {conflictBehavior : ConflictBehavior} {request : DiscoveryHostRequest}

end Create

section Discovery
variable {defs : ServiceDefinitions} {env : ChildEnv} {submission : HostSubmission} {host : Host}
  {request : DiscoveryHostRequest}
variable {s s' : ChildStage}

theorem ports_discoveryStages
    (h : (discoveryStages defs env submission).ports request host s = some s') :
    (∀ r ∈ s.ports, r.base.hostId ≠ host.id → r.id ∉ submission.request.ports.map (·.id) →
      r ∈ s'.ports) ∧ s'.services = s.services ∧ s'.bindings = s.bindings ∧
        s'.interfaces = s.interfaces := by
  obtain ⟨⟨ports, created⟩, hcreate, rfl⟩ := map_eq_some_iff.mp h
  refine ⟨fun r hr hother hnamed => ?_, rfl, rfl, rfl⟩
  refine mem_createPorts hcreate hr hother ?_
  rw [← submission.ports_eq, List.map_map] at hnamed
  exact hnamed

theorem owners_discoveryStages {owner : Option Uuid → Option Uuid}
    (h : (discoveryStages defs env submission).owners request host s = some (s', owner)) :
    ∃ stage : ServiceStage, stage.Confined host.id (s.serviceStore ⟨[], List.nodup_nil⟩) ∧
      s' = { s with
        services := stage.store.services
        bindings := stage.store.bindings
        memory := stage.toServiceMemory } := by
  cases h
  exact ⟨_, ServiceStage.confined_createOwners host submission.services request.subnets _, rfl⟩

theorem children_discoveryStages {pairs : List (IPAddress × IPAddress)}
    {store : HostStore ChildStage} {children : CreatedChildren}
    (hmemory : ∀ e ∈ store.rest.memory.existingServices,
      (store.rest.serviceStore store.ipAddresses.entities).OnHost host.id e)
    (h : (discoveryStages defs env submission).children request host pairs store =
      some (s', children)) :
    (∃ stage : ServiceStage,
      stage.Confined host.id (store.rest.serviceStore store.ipAddresses.entities) ∧
      s'.services = stage.store.services ∧ s'.bindings = stage.store.bindings) ∧
    s'.ports = store.rest.ports ∧
    Kept neighborReference host.id store.rest.interfaces s'.interfaces := by
  obtain ⟨stage, htransfer, h⟩ := bind_eq_some_iff.mp h
  obtain ⟨⟨interfaces, created⟩, hinterfaces, h⟩ := bind_eq_some_iff.mp h
  cases h
  have hstart : ServiceStage.Confined host.id (store.rest.serviceStore store.ipAddresses.entities)
      { store.rest.memory with store := store.rest.serviceStore store.ipAddresses.entities } :=
    ⟨.refl _ _, hmemory, fun e he => absurd he not_mem_nil⟩
  exact ⟨⟨stage, hstart.transferAll htransfer, rfl, rfl⟩, rfl, kept_createInterfaces hinterfaces⟩

/-- Whatever a discovery submits and however it is resolved: if it succeeds, the children of the
other hosts are kept. -/
theorem othersKept_createWithChildren (createEnv : CreateEnv) (defs : ServiceDefinitions)
    (env : ChildEnv) (limitCtx : Option HostLimitContext) (submission : HostSubmission)
    (store after : HostStore ChildStage) (response : HostResponse)
    (h : createWithChildren createEnv (discoveryStages defs env submission) limitCtx .upsert
      submission.request store = .ok (response, after)) :
    OthersKept response.id submission.request store after := by
  obtain ⟨p, children, hp, haddresses, hchildren, -, hid, -⟩ := createWithChildren_ok h
  obtain ⟨-, rest, owner, -, -, -, hports, howners, -, -, -, hincoming, hupsert⟩ :=
    prepareHost_ok hp
  obtain ⟨hportRows, hservices, hbindings, hinterfaces⟩ := ports_discoveryStages hports
  obtain ⟨owners, hconfined, hrest⟩ := owners_discoveryStages howners
  have hmemory : ∀ e ∈ p.rest.memory.existingServices,
      (p.rest.serviceStore after.ipAddresses.entities).OnHost p.context.host.id e := by
    rw [hrest]
    exact hconfined.existing
  obtain ⟨⟨stage, hstage, hstageServices, hstageBindings⟩, hstagePorts, hstageInterfaces⟩ :=
    children_discoveryStages hmemory hchildren
  have hkept : ServicesKept p.context.host.id (rest.serviceStore ⟨[], nodup_nil⟩)
      stage.store := by
    refine hconfined.kept.trans ?_
    have hkept := hstage.kept
    rw [hrest] at hkept
    exact ⟨hkept.services, hkept.bindings⟩
  rw [hid]
  constructor
  · intro r hr hother hnamed
    rw [← hincoming] at hnamed
    exact AddressContext.mem_createIpAddresses hupsert haddresses hr hother hnamed
  · intro r hr hother hnamed
    rw [hstagePorts, hrest]
    exact hportRows r hr hother hnamed
  · rw [hstageServices, ← hservices]
    exact hkept.services
  · intro b hb s hs hservice hother
    rw [hstageBindings]
    rw [← hbindings] at hb
    rw [← hservices] at hs
    exact hkept.bindings b hb fun hon => hother (hon s hs hservice)
  · rw [← hinterfaces]
    rw [hrest] at hstageInterfaces
    exact hstageInterfaces

end Discovery

section Switches

def switchDefinitions : ServiceDefinitions :=
  ⟨fun _ => false, fun _ => false, fun definition => definition = "Unclaimed Open Ports"⟩

def switchEnv : ChildEnv :=
  ⟨5, 5, fun _ => 93, fun _ => 94, fun _ _ => 95, fun _ => 96⟩

def switchPort (id hostId : Uuid) (number : BitVec 16) (seen : Timestamp) : TrackedPort :=
  ⟨id, 0, 0, none, none, ⟨⟨hostId, 9, number, .tcp⟩, seen⟩⟩

def switchService (id hostId : Uuid) (definition : String) (owner : Option Uuid)
    (bindings : List Binding) : TrackedService :=
  ⟨id, 0, 0, none, none, {
    hostId, networkId := 9, serviceDefinition := definition, name := definition, bindings
    virtualizationServiceId := owner, position := 0, source := .discovery }⟩

def switchBinding (id serviceId port : Uuid) : Binding :=
  ⟨id, 0, 0, none, none, ⟨serviceId, 9, .port port none⟩⟩

def switchInterface (id hostId : Uuid) (index : ℤ) (neighbor : Option Neighbor) : SnmpInterface :=
  ⟨id, 0, 0, none, none, {
    hostId, networkId := 9, ifIndex := index, ifDescr := "", macAddress := none
    ipAddressId := none, neighbor, nativeVlanId := none, vlanIds := none }⟩

def switchStore : HostStore ChildStage where
  hosts := ⟨[⟨⟨1, 0, 0, none, none, ⟨"core", 9, none, none, none, false, []⟩⟩, none⟩,
    ⟨⟨2, 0, 0, none, none, ⟨"access", 9, none, none, none, false, []⟩⟩, none⟩], by decide⟩
  subnets := laptopStore.subnets
  ipAddresses := ⟨[⟨laptopAddress 30 1 0x0A000005 0x3C22FB010203 0, none⟩,
    ⟨laptopAddress 33 2 0x0A000006 0x3C22FB010204 0, none⟩], by decide⟩
  rest := {
    ports := ⟨[switchPort 50 1 80 0, switchPort 51 2 22 0], by decide⟩
    services := ⟨[switchService 61 1 "Unclaimed Open Ports" none [],
      switchService 62 2 "nginx" (some 61) []], by decide⟩
    bindings := ⟨[switchBinding 65 61 50, switchBinding 66 62 51], by decide⟩
    interfaces := ⟨[switchInterface 71 1 1 none, switchInterface 72 1 2 none,
      switchInterface 81 2 1 (some (.interface 72))], by decide⟩ }

/-- The first switch is scanned again: a web server is found on its port, one of its interfaces is
gone, and one of the ports comes with an id that a port of the other switch has. -/
def switchSubmission : HostSubmission where
  request := {
    host := ⟨40, 5, 5, none, none, ⟨"core", 9, none, none, none, false, []⟩⟩
    ipAddresses := [laptopAddress 41 Uuid.nil 0x0A000005 0x3C22FB010203 5]
    ports := [⟨43, 0, 0, none, none, ⟨40, 9, 80, .tcp⟩⟩, ⟨51, 0, 0, none, none, ⟨40, 9, 22, .tcp⟩⟩]
    services := [Row.map (·.toServiceBase)
      (switchService 44 40 "nginx" none [switchBinding 46 44 43])]
    interfaces := [Row.map (·.toInterfaceBase) (switchInterface 45 40 1 none)]
    subnets := []
    interfacesComplete := true
    interfaceDataComplete := {} }
  ports := [switchPort 43 40 80 5, switchPort 51 40 22 5]
  services := [switchService 44 40 "nginx" none [switchBinding 46 44 43]]
  interfaces := [switchInterface 45 40 1 none]
  ports_eq := rfl
  services_eq := rfl
  interfaces_eq := rfl

theorem othersKept_createWithChildren_switches : ∃ response after,
    createWithChildren laptopEnv (discoveryStages switchDefinitions switchEnv switchSubmission)
        none .upsert switchSubmission.request switchStore = .ok (response, after) ∧
      OthersKept response.id switchSubmission.request switchStore after := by
  obtain ⟨response, after, hrun⟩ : ∃ response after, createWithChildren laptopEnv
      (discoveryStages switchDefinitions switchEnv switchSubmission) none .upsert
      switchSubmission.request switchStore = .ok (response, after) := ⟨_, _, rfl⟩
  exact ⟨response, after, hrun, othersKept_createWithChildren laptopEnv switchDefinitions switchEnv
    none switchSubmission switchStore after response hrun⟩

/-- The scan changes children of the other switch: the interface that is gone was the neighbour of
one of them, the service that gave up its port was the owner of another, and the port with the same
id has been seen. -/
theorem not_othersUnchanged_createWithChildren : ∃ response after,
    createWithChildren laptopEnv (discoveryStages switchDefinitions switchEnv switchSubmission)
        none .upsert switchSubmission.request switchStore = .ok (response, after) ∧
      (∃ i ∈ switchStore.rest.interfaces.rows, i.base.hostId ≠ response.id ∧
        i ∉ after.rest.interfaces.rows) ∧
      (∃ s ∈ switchStore.rest.services.rows, s.base.hostId ≠ response.id ∧
        s ∉ after.rest.services.rows) ∧
      ∃ p ∈ switchStore.rest.ports.rows, p.base.hostId ≠ response.id ∧
        p ∉ after.rest.ports.rows := by
  refine ⟨_, _, rfl, ?_, ?_, ?_⟩
  · decide +kernel
  · decide +kernel
  · decide +kernel

end Switches

end Scanopy
