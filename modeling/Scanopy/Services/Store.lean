import Scanopy.Services.Bindings
import Scanopy.Snapshots.Clone

/-! The services and their bindings, which are rows of a table of their own. A service is written
first and then its bindings, row by row and in no transaction: what stands when one is refused
stays. -/

namespace Scanopy
open List BindingType Table

abbrev EntityTable (B : Type) := Table fun r : Row B => r.id

structure ServiceStore where
  services : EntityTable TrackedServiceBase
  bindings : EntityTable BindingBase
  ports : EntityTable PortBase
  ipAddresses : EntityTable IPAddressBase

inductive ServiceError
  /-- Two bindings of the submitted list conflict. -/
  | bindingConflict (message : String)
  | ipAddressNotOnHost (ipAddressId : Uuid)
  | portNotOnHost (portId : Uuid)
  | portIpAddressNotOnHost (ipAddressId : Uuid)
  /-- The port is already bound to the service of this name. -/
  | portTaken (portId : Uuid) (owner : String)
  | notFound
  deriving DecidableEq

def BindingType.overlaps : BindingType → BindingType → Bool
  | port p ip, port q ip' => p = q && bindingsOverlap ip ip'
  | _, _ => false

namespace ServiceStore
variable (store : ServiceStore)

/-- `get_for_parent` of bindings, from the oldest. -/
def bindingsOf (serviceId : Uuid) : List Binding :=
  (store.bindings.rows.filter fun b => b.base.serviceId = serviceId).insertionSort fun a b =>
    a.createdAt ≤ b.createdAt

def hydrate (s : TrackedService) : TrackedService :=
  { s with base := { s.base with bindings := store.bindingsOf s.id } }

def getById (serviceId : Uuid) : Option TrackedService :=
  (store.services.find serviceId).map store.hydrate

def liveServices (hostId : Uuid) : List TrackedService :=
  ((store.services.rows.filter fun s => s.isLive && s.base.hostId = hostId).insertionSort
    fun a b => a.createdAt ≤ b.createdAt).map store.hydrate

def hostPortIds (hostId : Uuid) : List Uuid :=
  (store.ports.rows.filter fun p => p.base.hostId = hostId).map (·.id)

def hostIpAddressIds (hostId : Uuid) : List Uuid :=
  (store.ipAddresses.rows.filter fun i => i.isLive && i.base.hostId = hostId).map (·.id)

def foreignReference (hostId : Uuid) (b : Binding) : Option ServiceError :=
  match b.base.bindingType with
  | .ipAddress ip =>
    if ip ∈ store.hostIpAddressIds hostId then none else some (.ipAddressNotOnHost ip)
  | .port portId ip =>
    if portId ∉ store.hostPortIds hostId then some (.portNotOnHost portId)
    else match ip with
      | some ip =>
        if ip ∈ store.hostIpAddressIds hostId then none else some (.portIpAddressNotOnHost ip)
      | none => none

def validateBindingsBelongToHost (hostId : Uuid) (bindings : List Binding) : Option ServiceError :=
  bindings.findSome? (store.foreignReference hostId)

def validateBindingsAvailable (hostId serviceId : Uuid) (bindings : List Binding) :
    Option ServiceError :=
  let others := (store.liveServices hostId).filter (·.id ≠ serviceId)
  bindings.findSome? fun b => match b.base.bindingType with
    | .port portId _ =>
      (others.find? fun s => s.base.bindings.any fun e =>
        b.base.bindingType.overlaps e.base.bindingType).map fun s => .portTaken portId s.base.name
    | .ipAddress _ => none

/-- `partition_conflicting_bindings`: the bindings that are free, and those whose port another
service of the host or of the submission has. -/
def partitionConflictingBindings (hostId serviceId : Uuid) (bindings : List Binding)
    (batchClaimed : List (Uuid × Option Uuid)) : List Binding × List Binding :=
  let dbClaimed := ((store.liveServices hostId).filter (·.id ≠ serviceId)).flatMap fun s =>
    portClaims s.base.bindings
  bindings.partition fun b => !isClaimed (dbClaimed ++ batchClaimed) b

def canReference (b : Binding) : Bool :=
  (match b.base.bindingType.portId with
    | some portId => store.ports.rows.any (·.id = portId)
    | none => true) &&
  match b.base.bindingType.ipAddressId with
  | some ip => store.ipAddresses.rows.any (·.id = ip)
  | none => true

def insertBinding (b : Binding) : Option ServiceStore :=
  if store.canReference b then
    (store.bindings.insertMany [b]).map fun bindings => { store with bindings }
  else none

def updateBinding (b : Binding) : Option ServiceStore :=
  if store.canReference b then some { store with bindings := store.bindings.set b } else none

/-- One child in `save_for_parent`: a child without an id gets one, a child that the parent had
before keeps its `created_at`. -/
def saveChild (existing : List Binding) (newId : Uuid) (b : Binding) : Option ServiceStore :=
  if b.id = Uuid.nil then store.insertBinding { b with id := newId }
  else match existing.find? (·.id = b.id) with
    | some e => store.updateBinding { b with createdAt := e.createdAt }
    | none => store.insertBinding b

end ServiceStore

/-- The loop of `save_for_parent`, which stops at the first child that is refused. -/
def ServiceStore.saveChildren (existing : List Binding) :
    (draws : ℕ → Uuid) → ServiceStore → List Binding → ServiceStore × Bool
  | _, store, [] => (store, true)
  | draws, store, b :: bs =>
    match store.saveChild existing (draws 0) b with
    | none => (store, false)
    | some store => saveChildren existing (fun n => draws (n + 1)) store bs

/-- `save_for_parent`: the rows that are not submitted again are deleted, then every child is
written. -/
def ServiceStore.saveForParent (store : ServiceStore) (serviceId : Uuid) (draws : ℕ → Uuid)
    (children : List Binding) : ServiceStore × Bool :=
  let existing := store.bindingsOf serviceId
  let newIds := (children.filter fun c => c.id ≠ Uuid.nil).map (·.id)
  let kept := store.bindings.delete fun b => b.base.serviceId = serviceId && b.id ∉ newIds
  ServiceStore.saveChildren existing draws { store with bindings := kept } children

inductive RowWrite
  | insert
  | update
  | keep
  | delete
  deriving DecidableEq

structure ServiceWrite where
  mode : RowWrite
  service : TrackedService
  bindings : List Binding
  owned : ∀ b ∈ bindings, b.base.serviceId = service.id

def Binding.withService (s : TrackedService) (b : Binding) : Binding :=
  { b with base := { b.base with serviceId := s.id, networkId := s.base.networkId } }

def ServiceWrite.ofService (mode : RowWrite) (s : TrackedService) : ServiceWrite where
  mode := mode
  service := { s with base := { s.base with bindings := [] } }
  bindings := s.base.bindings.map (Binding.withService s)
  owned := by
    intro b hb
    obtain ⟨b, -, rfl⟩ := List.mem_map.mp hb
    rfl

/-- `ON DELETE SET NULL`: a service that names the deleted one as its owner has no owner. -/
def TrackedService.releaseOwner (serviceId : Uuid) (s : TrackedService) : TrackedService :=
  if s.base.virtualizationServiceId = some serviceId then
    { s with base := { s.base with virtualizationServiceId := none } }
  else s

@[simp] theorem TrackedService.releaseOwner_id (serviceId : Uuid) (s : TrackedService) :
    (s.releaseOwner serviceId).id = s.id := by
  unfold releaseOwner
  split_ifs <;> rfl

def ServiceWrite.release (w : ServiceWrite) (s : TrackedService) : TrackedService :=
  if w.mode = .delete then s.releaseOwner w.service.id else s

namespace ServiceStore
variable (store : ServiceStore)

def hasService (serviceId : Uuid) : Bool := store.services.rows.any (·.id = serviceId)

/-- The write of a request, and whether it went through. A service that is gone has taken its
bindings with it, so that the first child is refused by its foreign key. -/
def write (draws : ℕ → Uuid) (w : ServiceWrite) : ServiceStore × Bool :=
  match w.mode with
  | .insert =>
    match store.services.insertMany [w.service] with
    | none => (store, false)
    | some services => { store with services }.saveForParent w.service.id draws w.bindings
  | .update =>
    if store.hasService w.service.id then
      { store with services := store.services.set w.service }.saveForParent w.service.id draws
        w.bindings
    else (store, false)
  | .keep =>
    if store.hasService w.service.id then store.saveForParent w.service.id draws w.bindings
    else (store, false)
  | .delete =>
    ({ store with
      services := (store.services.delete (·.id = w.service.id)).modify
        (TrackedService.releaseOwner w.service.id) (TrackedService.releaseOwner_id w.service.id)
      bindings := store.bindings.delete (·.base.serviceId = w.service.id) }, true)

end ServiceStore

def assignIds : (draws : ℕ → Uuid) → List Binding → List Binding
  | _, [] => []
  | draws, b :: bs =>
    (if b.id = Uuid.nil then { b with id := draws 0 } else b) ::
      assignIds (fun n => draws (n + 1)) bs

def insertedIds (existingIds : List Uuid) : (draws : ℕ → Uuid) → List Binding → List Uuid
  | _, [] => []
  | draws, b :: bs =>
    let rest := insertedIds existingIds (fun n => draws (n + 1)) bs
    if b.id = Uuid.nil then draws 0 :: rest
    else if b.id ∈ existingIds then rest
    else b.id :: rest

structure ServiceStore.SaveFits (store : ServiceStore) (serviceId : Uuid) (draws : ℕ → Uuid)
    (children : List Binding) : Prop where
  references : ∀ c ∈ children, store.canReference c = true
  distinct : (insertedIds ((store.bindingsOf serviceId).map (·.id)) draws children).Nodup
  free : ∀ id ∈ insertedIds ((store.bindingsOf serviceId).map (·.id)) draws children,
    ∀ r ∈ store.bindings.rows, r.id ≠ id

theorem map_bindingType_assignIds (draws : ℕ → Uuid) (children : List Binding) :
    (assignIds draws children).map (·.base.bindingType) = children.map (·.base.bindingType) := by
  induction children generalizing draws with
  | nil => rfl
  | cons b bs ih =>
    rw [assignIds, map_cons, map_cons, ih]
    split_ifs <;> rfl

variable {children : List Binding} {draws : ℕ → Uuid}

theorem pairwise_assignIds
    (h : children.Pairwise BindingsCompatible) :
    (assignIds draws children).Pairwise BindingsCompatible := by
  rw [← pairwise_bindingType] at h ⊢
  rwa [map_bindingType_assignIds]

theorem exists_of_mem_assignIds {c : Binding}
    (hc : c ∈ assignIds draws children) :
    ∃ b ∈ children, (b.id = Uuid.nil ∨ b.id = c.id) ∧ b.base = c.base := by
  induction children generalizing draws with
  | nil => exact absurd hc not_mem_nil
  | cons b bs ih =>
    rw [assignIds] at hc
    rcases mem_cons.mp hc with rfl | hc
    · refine ⟨b, mem_cons_self, ?_⟩
      split_ifs with hid
      · exact ⟨.inl hid, rfl⟩
      · exact ⟨.inr rfl, rfl⟩
    · obtain ⟨b', hb', h⟩ := ih hc
      exact ⟨b', mem_cons_of_mem b hb', h⟩

theorem id_mem_of_mem_assignIds {b : Binding}
    (hb : b ∈ children) (hid : b.id ≠ Uuid.nil) : ∃ c ∈ assignIds draws children, c.id = b.id := by
  induction children generalizing draws with
  | nil => exact absurd hb not_mem_nil
  | cons b' bs ih =>
    rcases mem_cons.mp hb with rfl | hb
    · exact ⟨_, mem_cons_self, by rw [if_neg hid]⟩
    · obtain ⟨c, hc, hcid⟩ := ih hb
      exact ⟨c, mem_cons_of_mem _ hc, hcid⟩

namespace ServiceStore
variable {store store' : ServiceStore} {serviceId : Uuid} {existing children all todo : List Binding}
  {draws : ℕ → Uuid} {b c r : Binding}
variable {result : ServiceStore × Bool} {w : ServiceWrite}

theorem mem_bindingsOf : b ∈ store.bindingsOf serviceId ↔
    b ∈ store.bindings ∧ b.base.serviceId = serviceId := by
  unfold bindingsOf
  rw [mem_insertionSort, mem_filter, decide_eq_true_eq]
  rfl

theorem nodup_bindingsOf (store : ServiceStore) (serviceId : Uuid) :
    (store.bindingsOf serviceId).Nodup := by
  unfold bindingsOf
  rw [(perm_insertionSort _ _).nodup_iff]
  exact (List.Nodup.of_map _ store.bindings.nodup).filter _

theorem saveChild_cases {newId : Uuid} (h : store.saveChild existing newId b = some store') :
    (b.id ≠ Uuid.nil ∧ ∃ e ∈ existing, e.id = b.id ∧
      store' = { store with bindings := store.bindings.set { b with createdAt := e.createdAt } }) ∨
    ((b.id ≠ Uuid.nil → ∀ e ∈ existing, e.id ≠ b.id) ∧ ∃ bindings, store.bindings.insertMany
          [if b.id = Uuid.nil then { b with id := newId } else b] = some bindings ∧
        store' = { store with bindings }) := by
  have hinsert : ∀ b', store.insertBinding b' = some store' → ∃ bindings,
      store.bindings.insertMany [b'] = some bindings ∧ store' = { store with bindings } := by
    intro b' h
    unfold insertBinding at h
    split_ifs at h
    obtain ⟨bindings, hbindings, rfl⟩ := Option.map_eq_some_iff.mp h
    exact ⟨bindings, hbindings, rfl⟩
  unfold saveChild at h
  split_ifs at h with hid
  · rw [if_pos hid]
    exact .inr ⟨fun hne => absurd hid hne, hinsert _ h⟩
  · rw [if_neg hid]
    split at h
    next e he =>
      unfold updateBinding at h
      split_ifs at h
      cases h
      refine .inl ⟨hid, e, mem_of_find?_eq_some he, ?_, rfl⟩
      exact of_decide_eq_true (find?_some (p := fun e : Binding => decide (e.id = b.id)) he)
    next hnone =>
      refine .inr ⟨fun _ e he => ?_, hinsert _ h⟩
      have hne := find?_eq_none.mp hnone e he
      rwa [decide_eq_true_eq] at hne

/-- The table in the middle of a synchronisation that began with `before`, with the children
`todo` still to be written. -/
structure Saving (before : EntityTable BindingBase) (serviceId : Uuid)
    (existing all todo : List Binding) (bindings : EntityTable BindingBase) : Prop where
  own : ∀ r ∈ bindings, r.base.serviceId = serviceId →
    (∃ c ∈ all, c.id = r.id ∧ c.base.bindingType = r.base.bindingType) ∨ ∃ c ∈ todo, c.id = r.id
  kept : ∀ r ∈ bindings, ∀ e ∈ existing, e.id = r.id → r.base.serviceId = serviceId
  others : ∀ r, r.base.serviceId ≠ serviceId → (r ∈ bindings ↔ r ∈ before)

variable {before : EntityTable BindingBase} {newId : Uuid}

theorem Saving.set (h : Saving before serviceId existing all (c :: todo) store.bindings)
    (hc : c ∈ all) (howned : c.base.serviceId = serviceId) {e : Binding} (he : e ∈ existing)
    (hid : e.id = c.id) {row : Binding} (hrow : row.id = c.id) (hbase : row.base = c.base) :
    Saving before serviceId existing all todo (store.bindings.set row) := by
  have hmem_of_ne : ∀ r : Binding, r.id ≠ c.id →
      (r ∈ store.bindings.set row ↔ r ∈ store.bindings) := by
    intro r hne
    rw [← hrow] at hne
    exact mem_set_of_ne hne
  have heq_of_mem : ∀ r ∈ store.bindings.set row, r.id = c.id → r = row := by
    intro r hr hrc
    exact eq_of_mem_set hr (hrc.trans hrow.symm)
  constructor
  · intro r hr hservice
    by_cases hrc : r.id = c.id
    · refine .inl ⟨c, hc, hrc.symm, ?_⟩
      rw [heq_of_mem r hr hrc, hbase]
    · rcases h.own r ((hmem_of_ne r hrc).mp hr) hservice with hdone | ⟨c', hc', hid'⟩
      · exact .inl hdone
      · rcases mem_cons.mp hc' with rfl | hc'
        · exact absurd hid'.symm hrc
        · exact .inr ⟨c', hc', hid'⟩
  · intro r hr e' he' hid'
    by_cases hrc : r.id = c.id
    · rw [heq_of_mem r hr hrc, hbase]
      exact howned
    · exact h.kept r ((hmem_of_ne r hrc).mp hr) e' he' hid'
  · intro r hother
    rw [← h.others r hother]
    by_cases hrc : r.id = c.id
    · refine iff_of_false (fun hr => ?_) fun hr => ?_
      · rw [heq_of_mem r hr hrc, hbase] at hother
        exact hother howned
      · exact hother (h.kept r hr e he (hid.trans hrc.symm))
    · exact hmem_of_ne r hrc

theorem Saving.insert (h : Saving before serviceId existing all (c :: todo) store.bindings)
    (hc : c ∈ all) (howned : c.base.serviceId = serviceId)
    {bindings : EntityTable BindingBase} (hinsert : store.bindings.insertMany [c] = some bindings) :
    Saving before serviceId existing all todo bindings := by
  have hmem : ∀ r, r ∈ bindings ↔ r ∈ store.bindings ∨ r = c := by
    intro r
    rw [mem_insertMany hinsert, mem_singleton]
  have hfree : ∀ r ∈ store.bindings, r.id ≠ c.id := fun r hr =>
    (insertMany_eq_some hinsert).2.2 r hr c (mem_singleton_self c)
  constructor
  · intro r hr hservice
    rcases (hmem r).mp hr with hr | rfl
    · rcases h.own r hr hservice with hdone | ⟨c', hc', hid⟩
      · exact .inl hdone
      · rcases mem_cons.mp hc' with rfl | hc'
        · exact absurd hid.symm (hfree r hr)
        · exact .inr ⟨c', hc', hid⟩
    · exact .inl ⟨r, hc, rfl, rfl⟩
  · intro r hr e he hid
    rcases (hmem r).mp hr with hr | rfl
    · exact h.kept r hr e he hid
    · exact howned
  · intro r hother
    rw [hmem, ← h.others r hother]
    refine or_iff_left ?_
    rintro rfl
    exact hother howned

/-- The loop of a synchronisation, whether it ends or is refused: the rows of other services are as
they were, and if it ends, every row of the service is one of the children. -/
theorem saveChildren_spec (store : ServiceStore) (children : List Binding)
    (howned : ∀ c ∈ children, c.base.serviceId = serviceId)
    (hall : ∀ c ∈ assignIds draws children, c ∈ all)
    (h : Saving before serviceId existing all (assignIds draws children) store.bindings) :
    let result := ServiceStore.saveChildren existing draws store children
    result.1 = { store with bindings := result.1.bindings } ∧
      (∃ todo, Saving before serviceId existing all todo result.1.bindings) ∧
      (result.2 = true → Saving before serviceId existing all [] result.1.bindings) := by
  induction children generalizing draws store with
  | nil => exact ⟨rfl, ⟨_, h⟩, fun _ => h⟩
  | cons b bs ih =>
    rw [saveChildren]
    cases hsave : store.saveChild existing (draws 0) b with
    | none => exact ⟨rfl, ⟨_, h⟩, nofun⟩
    | some store' =>
      have hb := howned b mem_cons_self
      have hbs := fun c hc => howned c (mem_cons_of_mem b hc)
      have hall' := fun c hc => hall c (mem_cons_of_mem _ hc)
      have hmem := hall _ mem_cons_self
      rw [assignIds] at h
      rcases saveChild_cases hsave with ⟨hid, e, he, heid, rfl⟩ | ⟨-, bindings, hinsert, rfl⟩
      · rw [if_neg hid] at h hmem
        exact ih _ hbs hall' (h.set hmem hb he heid rfl rfl)
      · refine ih _ hbs hall' (h.insert hmem ?_ hinsert)
        split_ifs
        · exact hb
        · exact hb

structure Saved (store : ServiceStore) (serviceId : Uuid) (children : List Binding)
    (result : ServiceStore × Bool) : Prop where
  frame : result.1 = { store with bindings := result.1.bindings }
  others : ∀ r : Binding, r.base.serviceId ≠ serviceId →
    (r ∈ result.1.bindings ↔ r ∈ store.bindings)
  own : result.2 = true → ∀ r ∈ result.1.bindings, r.base.serviceId = serviceId →
    ∃ c ∈ children, c.id = r.id ∧ c.base.bindingType = r.base.bindingType

theorem saved_saveForParent (howned : ∀ c ∈ children, c.base.serviceId = serviceId) :
    Saved store serviceId (assignIds draws children)
      (store.saveForParent serviceId draws children) := by
  have hstart : Saving store.bindings serviceId (store.bindingsOf serviceId)
      (assignIds draws children) (assignIds draws children)
      (store.bindings.delete fun b => b.base.serviceId = serviceId &&
        b.id ∉ (children.filter fun c => c.id ≠ Uuid.nil).map (·.id)) := by
    constructor
    · intro r hr hservice
      have hkept := (mem_delete.mp hr).2
      rw [decide_eq_true hservice, Bool.true_and, decide_eq_false_iff_not, not_not,
        mem_map] at hkept
      obtain ⟨c, hc, hid⟩ := hkept
      obtain ⟨hc, hnil⟩ := mem_filter.mp hc
      obtain ⟨c', hc', hid'⟩ := id_mem_of_mem_assignIds hc (of_decide_eq_true hnil)
      exact .inr ⟨c', hc', hid'.trans hid⟩
    · intro r hr e he hid
      obtain ⟨he, hservice⟩ := mem_bindingsOf.mp he
      rwa [← store.bindings.eq_of_key he (mem_delete.mp hr).1 hid]
    · intro r hother
      rw [mem_delete]
      refine and_iff_left ?_
      rw [decide_eq_false hother, Bool.false_and]
  obtain ⟨hframe, ⟨todo, hrest⟩, hdone⟩ :=
    saveChildren_spec { store with bindings := _ } children howned (fun _ hc => hc) hstart
  refine ⟨hframe, hrest.others, fun hok r hr hservice => ?_⟩
  rcases (hdone hok).own r hr hservice with hchild | ⟨c, hc, -⟩
  · exact hchild
  · exact absurd hc not_mem_nil

theorem exists_insertBinding (href : store.canReference b = true)
    (hfree : ∀ r ∈ store.bindings, r.id ≠ b.id) : ∃ bindings,
      store.insertBinding b = some { store with bindings } ∧
        ∀ r, r ∈ bindings ↔ r ∈ store.bindings ∨ r = b := by
  have hfree' : ∀ r ∈ store.bindings, ∀ r' ∈ [b], r.id ≠ r'.id := by
    intro r hr r' hr'
    rw [mem_singleton.mp hr']
    exact hfree r hr
  have hnodup : ([b].map fun r : Binding => r.id).Nodup := nodup_singleton b.id
  obtain ⟨bindings, hinsert⟩ := exists_insertMany hnodup hfree'
  refine ⟨bindings, ?_, fun r => ?_⟩
  · unfold insertBinding
    rw [if_pos href, hinsert]
    rfl
  · rw [mem_insertMany hinsert, mem_singleton]

theorem saveChildren_ok (hrefs : ∀ c ∈ children, store.canReference c = true)
    (hdistinct : (insertedIds (existing.map (·.id)) draws children).Nodup)
    (hfree : ∀ id ∈ insertedIds (existing.map (·.id)) draws children,
      ∀ r ∈ store.bindings, r.id ≠ id) :
    (ServiceStore.saveChildren existing draws store children).2 = true := by
  induction children generalizing draws store with
  | nil => rfl
  | cons b bs ih =>
    have href := hrefs b mem_cons_self
    have hrefs' := fun c hc => hrefs c (mem_cons_of_mem b hc)
    rw [saveChildren, saveChild]
    rw [insertedIds] at hdistinct hfree
    have hinsert : ∀ b' : Binding, store.canReference b' = true →
        (b'.id :: insertedIds (existing.map (·.id)) (fun n => draws (n + 1)) bs).Nodup →
        (∀ id ∈ b'.id :: insertedIds (existing.map (·.id)) (fun n => draws (n + 1)) bs,
          ∀ r ∈ store.bindings, r.id ≠ id) →
        ∃ store', store.insertBinding b' = some store' ∧
          (ServiceStore.saveChildren existing (fun n => draws (n + 1)) store' bs).2 = true := by
      intro b' href' hdistinct' hfree'
      obtain ⟨hnew, hdistinct'⟩ := nodup_cons.mp hdistinct'
      obtain ⟨bindings, hsome, hmem⟩ := exists_insertBinding href' (hfree' b'.id mem_cons_self)
      refine ⟨_, hsome, ih hrefs' hdistinct' fun id hid r hr => ?_⟩
      rcases (hmem r).mp hr with hr | rfl
      · exact hfree' id (mem_cons_of_mem _ hid) r hr
      · rintro rfl
        exact hnew hid
    split_ifs at hdistinct hfree ⊢ with hnil hold
    · obtain ⟨store', hsome, hok⟩ := hinsert { b with id := draws 0 } href hdistinct hfree
      rw [hsome]
      exact hok
    · obtain ⟨e, he, heid⟩ := mem_map.mp hold
      cases hfind : existing.find? (·.id = b.id) with
      | none =>
        have hne := find?_eq_none.mp hfind e he
        exact absurd (decide_eq_true heid) hne
      | some e' =>
        dsimp only
        have href' : store.canReference { b with createdAt := e'.createdAt } = true := href
        rw [updateBinding, if_pos href']
        refine ih hrefs' hdistinct fun id hid r hr => ?_
        obtain ⟨r₀, hr₀, hkey⟩ := exists_key_of_mem_set hr
        rw [← hkey]
        exact hfree id hid r₀ hr₀
    · cases hfind : existing.find? (·.id = b.id) with
      | none =>
        obtain ⟨store', hsome, hok⟩ := hinsert b href hdistinct hfree
        dsimp only
        rw [hsome]
        exact hok
      | some e' =>
        have heid := find?_some (p := fun e : Binding => decide (e.id = b.id)) hfind
        refine absurd (mem_map.mpr ⟨e', mem_of_find?_eq_some hfind, ?_⟩) hold
        exact of_decide_eq_true heid

theorem saveForParent_ok (h : store.SaveFits serviceId draws children) :
    (store.saveForParent serviceId draws children).2 = true := by
  refine saveChildren_ok h.references h.distinct fun id hid r hr => ?_
  exact h.free id hid r (mem_delete.mp hr).1

theorem mem_of_saveChildren (h : saveChildren existing draws store children = (store', true))
    (hr : r ∈ store.bindings) (hid : ∀ c ∈ children, c.id ≠ r.id) : r ∈ store'.bindings := by
  induction children generalizing draws store with
  | nil =>
    cases h
    exact hr
  | cons b bs ih =>
    rw [forall_mem_cons] at hid
    rw [saveChildren] at h
    cases hsave : store.saveChild existing (draws 0) b with
    | none =>
      rw [hsave] at h
      cases h
    | some next =>
      rw [hsave] at h
      refine ih h ?_ hid.2
      rcases saveChild_cases hsave with ⟨-, e, -, -, rfl⟩ | ⟨-, bindings, hinsert, rfl⟩
      · refine (mem_set_of_ne ?_).mpr hr
        exact Ne.symm hid.1
      · exact (mem_insertMany hinsert).mpr (.inl hr)

theorem exists_of_saveChildren (h : saveChildren existing draws store children = (store', true))
    (hnodup : (children.map (·.id)).Nodup) (hc : c ∈ children) (hid : c.id ≠ Uuid.nil)
    (hexisting : ∀ e ∈ existing, e.id = c.id → ∃ r ∈ store.bindings, r.id = c.id) :
    ∃ r ∈ store'.bindings, r.id = c.id ∧ r.base = c.base := by
  induction children generalizing draws store with
  | nil => exact absurd hc not_mem_nil
  | cons b bs ih =>
    rw [map_cons, nodup_cons] at hnodup
    rw [saveChildren] at h
    cases hsave : store.saveChild existing (draws 0) b with
    | none =>
      rw [hsave] at h
      cases h
    | some next =>
      rw [hsave] at h
      rcases mem_cons.mp hc with rfl | hc
      · have hwritten : ∃ r ∈ next.bindings, r.id = c.id ∧ r.base = c.base := by
          rcases saveChild_cases hsave with ⟨-, e, he, hec, rfl⟩ | ⟨-, bindings, hinsert, rfl⟩
          · obtain ⟨r, hr, hrc⟩ := hexisting e he hec
            exact ⟨{ c with createdAt := e.createdAt }, mem_set_self hr hrc, rfl, rfl⟩
          · rw [if_neg hid] at hinsert
            exact ⟨c, (mem_insertMany hinsert).mpr (.inr (mem_singleton_self c)), rfl, rfl⟩
        obtain ⟨r, hr, hrid, hbase⟩ := hwritten
        refine ⟨r, mem_of_saveChildren h hr fun c' hc' hid' => ?_, hrid, hbase⟩
        exact hnodup.1 (mem_map.mpr ⟨c', hc', hid'.trans hrid⟩)
      · refine ih h hnodup.2 hc fun e he hec => ?_
        obtain ⟨r, hr, hrc⟩ := hexisting e he hec
        have hne : r.id ≠ b.id := fun heq =>
          hnodup.1 (mem_map.mpr ⟨c, hc, hrc.symm.trans heq⟩)
        rcases saveChild_cases hsave with ⟨-, e, -, -, rfl⟩ | ⟨-, bindings, hinsert, rfl⟩
        · refine ⟨r, (mem_set_of_ne ?_).mpr hr, hrc⟩
          exact hne
        · exact ⟨r, (mem_insertMany hinsert).mpr (.inl hr), hrc⟩

theorem exists_of_saveForParent (h : store.saveForParent serviceId draws children = (store', true))
    (hnodup : (children.map (·.id)).Nodup) (hc : c ∈ children) (hid : c.id ≠ Uuid.nil) :
    ∃ r ∈ store'.bindings, r.id = c.id ∧ r.base = c.base := by
  refine exists_of_saveChildren h hnodup hc hid fun e he hec => ?_
  obtain ⟨he, hservice⟩ := mem_bindingsOf.mp he
  refine ⟨e, mem_delete.mpr ⟨he, ?_⟩, hec⟩
  have hsubmitted : e.id ∈ (children.filter fun c => c.id ≠ Uuid.nil).map (·.id) :=
    mem_map.mpr ⟨c, mem_filter.mpr ⟨hc, decide_eq_true hid⟩, hec.symm⟩
  rw [decide_eq_false (not_not.mpr hsubmitted), Bool.and_false]

/-- What the write of a request leaves: only the service of the request and its bindings have
changed, and if the write went through, they are what the request asked for. -/
structure Written (store : ServiceStore) (draws : ℕ → Uuid) (w : ServiceWrite)
    (result : ServiceStore × Bool) : Prop where
  ports : result.1.ports = store.ports
  ipAddresses : result.1.ipAddresses = store.ipAddresses
  otherServices : ∀ s : TrackedService, s.id ≠ w.service.id →
    (s ∈ result.1.services ↔ ∃ s₀ ∈ store.services, w.release s₀ = s)
  otherBindings : ∀ b : Binding, b.base.serviceId ≠ w.service.id →
    (b ∈ result.1.bindings ↔ b ∈ store.bindings)
  /-- Also if the write is refused in the middle. -/
  row : ∀ s ∈ result.1.services, s.id = w.service.id → s = w.service ∨ s ∈ store.services
  service : result.2 = true → ∀ s ∈ result.1.services, s.id = w.service.id →
    (w.mode = .insert ∨ w.mode = .update) ∧ s = w.service ∨ w.mode = .keep ∧ s ∈ store.services
  bindings : result.2 = true → ∀ b ∈ result.1.bindings, b.base.serviceId = w.service.id →
    ∃ c ∈ assignIds draws w.bindings, c.id = b.id ∧ c.base.bindingType = b.base.bindingType

theorem release_of_ne (h : w.mode ≠ .delete) (s : TrackedService) :
    (∃ s₀ ∈ store.services, w.release s₀ = s) ↔ s ∈ store.services := by
  have hrelease : w.release = id := by
    funext s
    exact if_neg h
  rw [hrelease]
  exact exists_eq_right

theorem Written.of_saved
    {services : EntityTable TrackedServiceBase} (hmode : w.mode ≠ .delete)
    (hother : ∀ s : TrackedService, s.id ≠ w.service.id → (s ∈ services ↔ s ∈ store.services))
    (hservice : ∀ s ∈ services, s.id = w.service.id →
      (w.mode = .insert ∨ w.mode = .update) ∧ s = w.service ∨ w.mode = .keep ∧ s ∈ store.services)
    (h : Saved { store with services } w.service.id (assignIds draws w.bindings) result) :
    Written store draws w result := by
  have hservices : result.1.services = services := by rw [h.frame]
  refine ⟨by rw [h.frame], by rw [h.frame], ?_, h.others, ?_, fun _ => ?_, h.own⟩
  · intro s hne
    rw [hservices, release_of_ne hmode]
    exact hother s hne
  · rw [hservices]
    intro s hs hid
    exact (hservice s hs hid).imp And.right And.right
  · rw [hservices]
    exact hservice

theorem Written.of_refused (hmode : w.mode ≠ .delete) :
    Written store draws w (store, false) :=
  ⟨rfl, rfl, fun s _ => (release_of_ne hmode s).symm, fun _ _ => Iff.rfl, fun _ hs _ => .inr hs,
    nofun, nofun⟩

theorem written_write (w : ServiceWrite) : Written store draws w (store.write draws w) := by
  unfold write
  cases hmode : w.mode with
  | insert =>
    have hdelete : w.mode ≠ .delete := by rw [hmode]; nofun
    dsimp only
    cases hinsert : store.services.insertMany [w.service] with
    | none => exact .of_refused hdelete
    | some services =>
      have hmem : ∀ s, s ∈ services ↔ s ∈ store.services ∨ s = w.service := by
        intro s
        rw [mem_insertMany hinsert, mem_singleton]
      have hfree := (insertMany_eq_some hinsert).2.2
      refine Written.of_saved hdelete (fun s hne => ?_) (fun s hs hid => ?_)
        (saved_saveForParent w.owned)
      · rw [hmem]
        refine or_iff_left ?_
        rintro rfl
        exact hne rfl
      · rcases (hmem s).mp hs with hs | rfl
        · exact absurd hid (hfree s hs w.service (mem_singleton_self _))
        · exact .inl ⟨.inl hmode, rfl⟩
  | update =>
    have hdelete : w.mode ≠ .delete := by rw [hmode]; nofun
    dsimp only
    split_ifs
    · refine Written.of_saved hdelete (fun s hne => mem_set_of_ne hne) (fun s hs hid => ?_)
        (saved_saveForParent w.owned)
      exact .inl ⟨.inr hmode, eq_of_mem_set hs hid⟩
    · exact .of_refused hdelete
  | keep =>
    have hdelete : w.mode ≠ .delete := by rw [hmode]; nofun
    dsimp only
    split_ifs
    · exact Written.of_saved hdelete (fun s _ => Iff.rfl) (fun s hs _ => .inr ⟨hmode, hs⟩)
        (saved_saveForParent w.owned)
    · exact .of_refused hdelete
  | delete =>
    have hrelease : w.release = TrackedService.releaseOwner w.service.id := by
      funext s
      exact if_pos hmode
    have hgone : ∀ s ∈ (store.services.delete (·.id = w.service.id)).modify
        (TrackedService.releaseOwner w.service.id) (TrackedService.releaseOwner_id w.service.id),
        s.id ≠ w.service.id := by
      intro s hs hid
      obtain ⟨s₀, hs₀, rfl⟩ := mem_map.mp hs
      rw [TrackedService.releaseOwner_id] at hid
      exact absurd hid (of_decide_eq_false (mem_delete.mp hs₀).2)
    refine ⟨rfl, rfl, fun s hne => ?_, fun b hne => ?_, fun s hs hid => absurd hid (hgone s hs),
      fun _ s hs hid => absurd hid (hgone s hs), fun _ b hb hid => ?_⟩
    · rw [hrelease]
      constructor
      · intro hs
        obtain ⟨s₀, hs₀, rfl⟩ := mem_map.mp hs
        exact ⟨s₀, (mem_delete.mp hs₀).1, rfl⟩
      · rintro ⟨s₀, hs₀, rfl⟩
        rw [TrackedService.releaseOwner_id] at hne
        exact mem_map_of_mem (mem_delete.mpr ⟨hs₀, decide_eq_false hne⟩)
    · rw [mem_delete]
      exact and_iff_left (decide_eq_false hne)
    · exact absurd hid (of_decide_eq_false (mem_delete.mp hb).2)

theorem Written.exists_before
    (h : Written store draws w result) {s : TrackedService} (hs : s ∈ result.1.services)
    (hne : s.id ≠ w.service.id) :
    ∃ s₀ ∈ store.services, s₀.id = s.id ∧ s₀.base.hostId = s.base.hostId ∧
      s₀.isLive = s.isLive := by
  obtain ⟨s₀, hs₀, rfl⟩ := (h.otherServices s hne).mp hs
  refine ⟨s₀, hs₀, ?_⟩
  unfold ServiceWrite.release TrackedService.releaseOwner
  split_ifs <;> exact ⟨rfl, rfl, rfl⟩

theorem write_ok_or_eq
    (h : w.mode ≠ .delete → store.SaveFits w.service.id draws w.bindings) :
    (store.write draws w).2 = true ∨ (store.write draws w).1 = store := by
  have hsave : ∀ services : EntityTable TrackedServiceBase, w.mode ≠ .delete →
      ({ store with services }.saveForParent w.service.id draws w.bindings).2 = true := by
    intro services hmode
    have hfits := h hmode
    exact saveForParent_ok ⟨hfits.references, hfits.distinct, hfits.free⟩
  unfold write
  cases hmode : w.mode with
  | insert =>
    dsimp only
    cases store.services.insertMany [w.service] with
    | none => exact .inr rfl
    | some services => exact .inl (hsave services (by rw [hmode]; nofun))
  | update =>
    dsimp only
    split_ifs
    · exact .inl (hsave _ (by rw [hmode]; nofun))
    · exact .inr rfl
  | keep =>
    dsimp only
    split_ifs
    · exact .inl (hsave store.services (by rw [hmode]; nofun))
    · exact .inr rfl
  | delete => exact .inl rfl

end ServiceStore
end Scanopy
