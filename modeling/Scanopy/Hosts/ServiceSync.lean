import Scanopy.Hosts.UpdateFromRequest

/-! One service in `sync_services`: when it is written and what the write leaves. In the middle of
the loop the services that were written hold what was sent, the others what they held before. -/

namespace Scanopy
open List BindingType EntityTagTable ServiceStore

def TaggedServiceInput.rows (networkId : Uuid) (now : Timestamp) (input : TaggedServiceInput) :
    List Binding := input.bindings.map (BindingInput.intoBinding input.id networkId now)

def ownerOf (existing : List TrackedService) (input : TaggedServiceInput) : Option Uuid :=
  input.virtualizationServiceId.or
    ((existing.find? (·.id = input.id)).bind (·.base.virtualizationServiceId))

def targetWrite (ctx : EditContext) (hostId networkId : Uuid) (existing : List TrackedService)
    (store : ServiceStore) (input : TaggedServiceInput) : ServiceWrite :=
  let service := input.intoService hostId networkId ctx.now
  match existing.find? (·.id = input.id) with
  | some stored => .ofService .update (preserveService stored service)
  | none => .ofService .insert (store.originateService service)

section Target
variable (ctx : EditContext) (hostId networkId : Uuid) (existing : List TrackedService)
  (store : ServiceStore) (input : TaggedServiceInput)

@[simp] theorem bindings_targetWrite :
    (targetWrite ctx hostId networkId existing store input).bindings =
      input.rows networkId ctx.now := by
  have hrows : (input.rows networkId ctx.now).map (Binding.withService
      (input.intoService hostId networkId ctx.now)) = input.rows networkId ctx.now := by
    rw [TaggedServiceInput.rows, map_map]
    rfl
  unfold targetWrite
  dsimp only
  split
  · exact hrows
  · exact hrows

@[simp] theorem id_targetWrite :
    (targetWrite ctx hostId networkId existing store input).service.id = input.id := by
  unfold targetWrite
  dsimp only
  split <;> rfl

@[simp] theorem isLive_targetWrite :
    (targetWrite ctx hostId networkId existing store input).service.isLive = true := by
  unfold targetWrite
  dsimp only
  split <;> rfl

@[simp] theorem hostId_targetWrite :
    (targetWrite ctx hostId networkId existing store input).service.base.hostId = hostId := by
  unfold targetWrite
  dsimp only
  split <;> rfl

@[simp] theorem owner_targetWrite :
    (targetWrite ctx hostId networkId existing store input).service.base.virtualizationServiceId =
      ownerOf existing input := by
  unfold targetWrite ownerOf
  dsimp only
  cases existing.find? (·.id = input.id) with
  | some stored => rfl
  | none => exact Option.or_none.symm

theorem mode_targetWrite :
    ((∃ t ∈ existing, t.id = input.id) ∧
        (targetWrite ctx hostId networkId existing store input).mode = .update) ∨
      ((∀ t ∈ existing, t.id ≠ input.id) ∧
        (targetWrite ctx hostId networkId existing store input).mode = .insert) := by
  unfold targetWrite
  dsimp only
  split
  next stored hstored =>
    exact .inl ⟨⟨stored, mem_of_find?_eq_some hstored, by simpa using find?_some hstored⟩, rfl⟩
  next hnone => exact .inr ⟨fun t ht => by simpa using find?_eq_none.mp hnone t ht, rfl⟩

theorem mode_targetWrite_eq :
    (targetWrite ctx hostId networkId existing store input).mode = .insert ∨
      (targetWrite ctx hostId networkId existing store input).mode = .update :=
  (mode_targetWrite ctx hostId networkId existing store input).symm.imp And.right And.right

end Target

structure Placed (hostId : Uuid) (existing : List TrackedService) (store : ServiceStore)
    (input : TaggedServiceInput) : Prop where
  stored : (∃ t ∈ existing, t.id = input.id) → store.hasService input.id = true
  fresh : (∀ t ∈ existing, t.id ≠ input.id) → input.id ≠ Uuid.nil ∧
    ∀ t ∈ store.services, t.isLive = true → t.base.hostId = hostId → t.id ≠ input.id

namespace EditStore
variable {ctx : EditContext} {hostId networkId : Uuid} {existing : List TrackedService}
  {s : EditStore} {p : TaggedServiceInput × ℕ}

theorem check_serviceRequest (hplaced : Placed hostId existing s.children p.1)
    (hcompatible : (p.1.rows networkId ctx.now).Pairwise BindingsCompatible) :
    s.children.check ctx.defs (serviceRequest ctx hostId networkId existing p) =
      match (s.children.validateBindingsBelongToHost hostId (p.1.rows networkId ctx.now)).or
        (s.children.validateBindingsAvailable hostId p.1.id (p.1.rows networkId ctx.now)) with
      | some e => .error e
      | none => .ok (targetWrite ctx hostId networkId existing s.children p.1) := by
  have hdedup := deduplicateBindings_eq_self hcompatible
  have hnoConflicts := validateBindingsNoConflicts_eq_none hcompatible
  have hsubmitted : ∀ service : TrackedService, service.base.bindings = p.1.rows networkId ctx.now →
      service.withBindings (deduplicateBindings service.base.bindings) = service := by
    intro service hrows
    rw [hrows, hdedup, ← hrows]
    rfl
  have hcheck : ∀ service : TrackedService, service.base.bindings = p.1.rows networkId ctx.now →
      service.base.hostId = hostId → service.id = p.1.id → s.children.checkUpdate service =
        (s.children.validateBindingsBelongToHost hostId (p.1.rows networkId ctx.now)).or
          (s.children.validateBindingsAvailable hostId p.1.id (p.1.rows networkId ctx.now)) := by
    intro service hrows hhost hid
    unfold checkUpdate
    dsimp only
    rw [hrows, hhost, hid, hnoConflicts]
    rfl
  unfold serviceRequest targetWrite
  cases hfind : existing.find? (·.id = p.1.id) with
  | some stored =>
    have hstored := hplaced.stored ⟨stored, mem_of_find?_eq_some hfind,
      by simpa using find?_some hfind⟩
    obtain ⟨t, ht, htid⟩ := hasService_eq_true.mp hstored
    have hget : s.children.getById
        (preserveService stored (p.1.intoService hostId networkId ctx.now)).id =
          some (s.children.hydrate t) :=
      congrArg (Option.map s.children.hydrate) (Table.find_eq_some.mpr ⟨ht, htid⟩)
    unfold check
    dsimp only
    rw [hsubmitted _ rfl, hget]
    show (match s.children.checkUpdate _ with | some e => _ | none => _) = _
    rw [hcheck _ rfl rfl rfl]
  | none =>
    obtain ⟨hid, hother⟩ := hplaced.fresh fun t ht => by
      simpa using find?_eq_none.mp hfind t ht
    have hcreated : submittedService (p.1.intoService hostId networkId ctx.now)
        (ctx.draw (.child .service p.2)) ctx.now = p.1.intoService hostId networkId ctx.now := by
      have hnil : (p.1.intoService hostId networkId ctx.now).id ≠ Uuid.nil := hid
      unfold submittedService
      dsimp only
      rw [if_neg hnil]
      exact hsubmitted _ rfl
    have htarget : s.children.upsertTarget ctx.defs (p.1.intoService hostId networkId ctx.now) =
        none := by
      rw [upsertTarget, Option.filter_eq_none_iff]
      intro t ht
      obtain ⟨r, hr, hlive, hhost, rfl⟩ :=
        mem_liveServices.mp (mem_of_find?_eq_some ht)
      have hne : p.1.id ≠ r.id := fun heq => hother r hr hlive hhost heq.symm
      -- the service comes from no discovery
      show ¬(false && _ || decide (p.1.id = r.id)) = true
      rw [decide_eq_false hne]
      exact Bool.false_ne_true
    unfold check checkCreate
    dsimp only
    rw [hcreated, htarget]
    show (match s.children.checkUpdate (p.1.intoService hostId networkId ctx.now) with
      | some e => Except.error e | none => _) = _
    rw [hcheck _ rfl rfl rfl]

theorem merged_eq_false :
    ((existing.find? (·.id = p.1.id)).isNone &&
      (targetWrite ctx hostId networkId existing s.children p.1).mode = .update) = false := by
  unfold targetWrite
  dsimp only
  cases existing.find? (·.id = p.1.id) <;> rfl

section Put
variable (ctx hostId networkId existing s p)

def written : ServiceStore × Bool :=
  s.children.write (fun k => ctx.draw (.binding p.2 k))
    (targetWrite ctx hostId networkId existing s.children p.1)

end Put

theorem putService_cases (hplaced : Placed hostId existing s.children p.1)
    (hcompatible : (p.1.rows networkId ctx.now).Pairwise BindingsCompatible) :
    ((s.putService ctx hostId networkId existing p).2 = none ↔
      s.children.validateBindingsBelongToHost hostId (p.1.rows networkId ctx.now) = none ∧
      s.children.NoClash hostId p.1.id (p.1.rows networkId ctx.now) ∧
      (∀ owner ∈ ownerOf existing p.1, owner = p.1.id ∨ s.children.hasService owner = true) ∧
      (s.written ctx hostId networkId existing p).2 = true ∧
      ({ s with children := (s.written ctx hostId networkId existing p).1 }.setTags ctx (some p.2)
        (p.1.id, .service) p.1.tags).2 = none) ∧
    ((s.putService ctx hostId networkId existing p).2 = none →
      (s.putService ctx hostId networkId existing p).1 =
        ({ s with children := (s.written ctx hostId networkId existing p).1 }.setTags ctx (some p.2)
          (p.1.id, .service) p.1.tags).1) := by
  have howner : s.children.ownerStored
      (targetWrite ctx hostId networkId existing s.children p.1).service = true ↔
        ∀ owner ∈ ownerOf existing p.1, owner = p.1.id ∨ s.children.hasService owner = true := by
    simp [ownerStored, Option.all_eq_true]
  unfold putService written
  rw [check_serviceRequest hplaced hcompatible, ← validateBindingsAvailable_eq_none]
  cases hbelong : s.children.validateBindingsBelongToHost hostId (p.1.rows networkId ctx.now) with
  | some e => exact ⟨iff_of_false nofun fun h => absurd h.1 nofun, nofun⟩
  | none =>
    cases havailable : s.children.validateBindingsAvailable hostId p.1.id
        (p.1.rows networkId ctx.now) with
    | some e => exact ⟨iff_of_false nofun fun h => absurd h.2.1 nofun, nofun⟩
    | none =>
      rw [Option.or_none]
      dsimp only
      by_cases hstored : s.children.ownerStored
          (targetWrite ctx hostId networkId existing s.children p.1).service = true
      · rw [if_pos hstored, merged_eq_false, id_targetWrite]
        cases hwrite : s.children.write (fun k => ctx.draw (.binding p.2 k))
            (targetWrite ctx hostId networkId existing s.children p.1) with
        | mk children ok =>
          cases ok with
          | false => exact ⟨iff_of_false nofun fun h => absurd h.2.2.2.1 nofun, nofun⟩
          | true =>
            refine ⟨⟨fun h => ⟨rfl, rfl, howner.mp hstored, rfl, h⟩, fun h => h.2.2.2.2⟩, fun _ => rfl⟩
      · rw [if_neg hstored]
        exact ⟨iff_of_false nofun fun h => hstored (howner.mpr h.2.2.1), nofun⟩

end EditStore

open Commits BindingType

namespace ServiceStore

def Has (store : ServiceStore) (id host : Uuid) (live : Bool) : Prop :=
  ∃ t ∈ store.services, t.id = id ∧ t.base.hostId = host ∧ t.isLive = live

variable {store store' : ServiceStore} {id host host' : Uuid} {live live' : Bool}

theorem Has.unique (h : store.Has id host live) (h' : store.Has id host' live') :
    host = host' ∧ live = live' := by
  obtain ⟨t, ht, hid, rfl, rfl⟩ := h
  obtain ⟨t', ht', hid', rfl, rfl⟩ := h'
  rw [store.services.eq_of_key ht ht' (hid.trans hid'.symm)]
  exact ⟨rfl, rfl⟩

theorem hasService_iff : store.hasService id = true ↔ ∃ host live, store.Has id host live := by
  rw [hasService_eq_true]
  constructor
  · rintro ⟨t, ht, hid⟩
    exact ⟨t.base.hostId, t.isLive, t, ht, hid, rfl, rfl⟩
  · rintro ⟨host, live, t, ht, hid, -⟩
    exact ⟨t, ht, hid⟩

theorem validateBindingsBelongToHost_congr (hports : store'.ports = store.ports)
    (hips : store'.ipAddresses = store.ipAddresses) (hostId : Uuid) (bindings : List Binding) :
    store'.validateBindingsBelongToHost hostId bindings =
      store.validateBindingsBelongToHost hostId bindings := by
  unfold validateBindingsBelongToHost foreignReference hostPortIds hostIpAddressIds
  rw [hports, hips]

theorem exists_servicesOf :
    (∃ t ∈ store.servicesOf host, t.id = id) ↔ ∃ live, store.Has id host live := by
  unfold servicesOf
  constructor
  · rintro ⟨t, ht, hid⟩
    obtain ⟨r, hr, rfl⟩ := mem_map.mp ht
    obtain ⟨hr, hhost⟩ := mem_filter.mp hr
    exact ⟨r.isLive, r, hr, hid, of_decide_eq_true hhost, rfl⟩
  · rintro ⟨live, r, hr, hid, hhost, -⟩
    exact ⟨store.hydrate r, mem_map_of_mem (mem_filter.mpr ⟨hr, decide_eq_true hhost⟩), hid⟩

theorem foreignReference_eq_none {b : Binding} : store.foreignReference host b = none ↔
    (∀ portId ∈ b.base.bindingType.portId, portId ∈ store.hostPortIds host) ∧
      ∀ ip ∈ b.base.bindingType.ipAddressId, ip ∈ store.hostIpAddressIds host := by
  unfold foreignReference
  rcases b.base.bindingType with ip | ⟨portId, _ | ip⟩ <;>
    simp [BindingType.portId, BindingType.ipAddressId]
  split_ifs <;> simp_all

theorem perm_bindingsOf {serviceId : Uuid} (h : ∀ b : Binding, b.base.serviceId = serviceId →
    (b ∈ store'.bindings ↔ b ∈ store.bindings)) :
    (store'.bindingsOf serviceId).Perm (store.bindingsOf serviceId) := by
  refine (perm_ext_iff_of_nodup (nodup_bindingsOf _ _) (nodup_bindingsOf _ _)).mpr fun b => ?_
  rw [mem_bindingsOf, mem_bindingsOf]
  exact and_congr_left fun hb => h b hb

end ServiceStore

def TaggedServiceInput.givenIds (input : TaggedServiceInput) : List Uuid :=
  (input.bindings.filter fun b => b.id ≠ Uuid.nil).map (·.id)

@[simp] theorem givenIds_rows (input : TaggedServiceInput) (networkId : Uuid) (now : Timestamp) :
    Scanopy.givenIds (input.rows networkId now) = input.givenIds := by
  unfold TaggedServiceInput.rows TaggedServiceInput.givenIds Scanopy.givenIds
  rw [filter_map, map_map]
  rfl

def TaggedServiceInput.unplaced (input : TaggedServiceInput) : TaggedServiceInput :=
  { input with position := none }

def DrawKey.UsedFor (inputs : List TaggedServiceInput) : DrawKey → Prop
  | .child kind n => kind = .service ∧ n < inputs.length
  | .binding n k => n < inputs.length ∧ ∃ i ∈ inputs, k < i.bindings.length
  | .tag (some n) tagId => n < inputs.length ∧ ∃ i ∈ inputs, tagId ∈ i.tags
  | .tag none _ => False

structure DrawsFree (ctx : EditContext) (s : EditStore) (inputs : List TaggedServiceInput) :
    Prop where
  injective : Set.InjOn ctx.draw {k | k.UsedFor inputs}
  ne_nil : ∀ k, k.UsedFor inputs → ctx.draw k ≠ Uuid.nil
  bindings : ∀ k, k.UsedFor inputs → ∀ r ∈ s.children.bindings, r.id ≠ ctx.draw k
  entityTags : ∀ k, k.UsedFor inputs → ∀ r ∈ s.entityTags, r.id ≠ ctx.draw k
  inputs : ∀ k, k.UsedFor inputs → ∀ i ∈ inputs, ∀ b ∈ i.bindings, b.id ≠ ctx.draw k

structure Sent (inputs : List TaggedServiceInput) (p : TaggedServiceInput × ℕ) : Prop where
  number : p.2 < inputs.length
  input : ∃ i ∈ inputs, i.unplaced = p.1.unplaced

variable {inputs : List TaggedServiceInput} {p : TaggedServiceInput × ℕ}

theorem Sent.binding
    (h : Sent inputs p) {k : ℕ} (hk : k < p.1.bindings.length) :
    (DrawKey.binding p.2 k).UsedFor inputs := by
  obtain ⟨i, hi, hsame⟩ := h.input
  have hbindings : i.bindings = p.1.bindings :=
    (congrArg (fun u : TaggedServiceInput => u.bindings) hsame :)
  exact ⟨h.number, i, hi, hbindings ▸ hk⟩

theorem Sent.tag
    (h : Sent inputs p) {tagId : Uuid} (htag : tagId ∈ p.1.tags) :
    (DrawKey.tag (some p.2) tagId).UsedFor inputs := by
  obtain ⟨i, hi, hsame⟩ := h.input
  have htags : i.tags = p.1.tags := (congrArg (fun u : TaggedServiceInput => u.tags) hsame :)
  exact ⟨h.number, i, hi, htags ▸ htag⟩

/-- What the next service needs, when the services `done` are written and those of `removed` are
gone. -/
structure StepFits (ctx : EditContext) (hostId : Uuid) (s : EditStore) (removed done : List Uuid)
    (input : TaggedServiceInput) : Prop where
  references : ∀ b ∈ input.bindings, (∀ portId ∈ b.bindingType.portId,
    portId ∈ s.children.hostPortIds hostId) ∧
      ∀ ip ∈ b.bindingType.ipAddressId, ip ∈ s.children.hostIpAddressIds hostId
  /-- No service that is still to be written has one of the ports. -/
  free : ∀ t ∈ s.children.services, t.isLive = true → t.base.hostId = hostId → t.id ≠ input.id →
    t.id ∉ removed → t.id ∉ done → ∀ b ∈ input.bindings, ∀ c ∈ s.children.bindingsOf t.id,
      b.bindingType.overlaps c.base.bindingType = false
  owner : ∀ owner ∈ ownerOf (s.children.servicesOf hostId) input, owner = input.id ∨ owner ∈ done ∨
    owner ∉ removed ∧ s.children.hasService owner = true
  host : ∀ t ∈ s.children.services, t.id = input.id → t.base.hostId = hostId
  bindingIds : ∀ id ∈ input.givenIds, ∀ r ∈ s.children.bindings, r.id = id →
    r.base.serviceId = input.id ∨ r.base.serviceId ∈ removed ∨ r.base.serviceId ∈ done
  tags : ∀ organizationId ∈ ctx.organizationId,
    TagsAccepted ctx.tags s.entityTags (input.id, .service) input.tags organizationId

def doneIds (done : List (TaggedServiceInput × ℕ)) : List Uuid := done.map (·.1.id)

structure Progress (ctx : EditContext) (hostId networkId : Uuid) (s₀ : EditStore)
    (removed : List Uuid) (done : List (TaggedServiceInput × ℕ)) (s : EditStore) : Prop where
  ports : s.children.ports = s₀.children.ports
  ipAddresses : s.children.ipAddresses = s₀.children.ipAddresses
  services : ∀ id ∉ doneIds done, ∀ host live,
    s.children.Has id host live ↔ id ∉ removed ∧ s₀.children.Has id host live
  written : ∀ p ∈ done, s.children.Has p.1.id hostId true
  bindings : ∀ b : Binding, b.base.serviceId ∉ doneIds done →
    (b ∈ s.children.bindings ↔ b ∈ s₀.children.bindings ∧ b.base.serviceId ∉ removed)
  entries : ∀ p ∈ done, ((s.children.bindingsOf p.1.id).map ServiceStore.entry).Perm
    ((assignIds (fun k => ctx.draw (.binding p.2 k)) (p.1.rows networkId ctx.now)).map
      ServiceStore.entry)
  tags : ∀ id ∉ doneIds done, id ∉ removed → s.entityTags.getForEntity (id, .service) =
    s₀.entityTags.getForEntity (id, .service)
  drawn : ∀ r ∈ s.entityTags, (∃ r₀ ∈ s₀.entityTags, r₀.id = r.id) ∨
    ∃ p ∈ done, ∃ tagId ∈ p.1.tags, r.id = ctx.draw (.tag (some p.2) tagId)

namespace EditStore
variable {ctx : EditContext} {hostId networkId : Uuid} {s₀ s : EditStore} {removed : List Uuid}
  {done todo : List (TaggedServiceInput × ℕ)} {p : TaggedServiceInput × ℕ}
  {inputs : List TaggedServiceInput}
variable {tagIds : List Uuid} {n : Option ℕ} {entity : TaggedEntity} {id : Uuid}

theorem progress_deleteServices (s₀ : EditStore) (removed : List Uuid) :
    Progress ctx hostId networkId s₀ removed [] (s₀.deleteServices ctx.now removed) := by
  refine ⟨rfl, rfl, fun id _ host live => ?_, nofun, fun b _ => ?_, nofun, fun id _ hid => ?_,
    fun r hr => .inl ?_⟩
  · constructor
    · rintro ⟨t, ht, rfl, hhost, hlive⟩
      obtain ⟨t₀, ht₀, rfl⟩ := mem_map.mp ht
      obtain ⟨ht₀, hremoved⟩ := Table.mem_delete.mp ht₀
      exact ⟨of_decide_eq_false hremoved, t₀, ht₀, rfl, hhost, hlive⟩
    · rintro ⟨hremoved, t, ht, rfl, hhost, hlive⟩
      refine ⟨TrackedService.releaseOwners removed t, mem_map_of_mem ?_, rfl, hhost, hlive⟩
      exact Table.mem_delete.mpr ⟨ht, decide_eq_false hremoved⟩
  · show b ∈ s₀.children.bindings.delete _ ↔ _
    rw [Table.mem_delete, decide_eq_false_iff_not]
  · rw [getForEntity_eq, getForEntity_eq]
    show ((s₀.entityTags.update (EntityTagTable.closed ctx.now
      (s₀.entityTags.liveRows removed .service none))).rows.filter _).map _ = _
    rw [rows_update_closed]
    refine tagIds_closeRows fun r hr hentity => ?_
    rw [Bool.and_eq_true, Bool.and_eq_true, decide_eq_true_iff] at hr
    have hsame : r.base.entityId = id := congrArg Prod.fst hentity
    rw [hsame] at hr
    exact hid hr.1.2
  · have hmem : r ∈ (s₀.entityTags.update (EntityTagTable.closed ctx.now
      (s₀.entityTags.liveRows removed .service none))).rows := hr
    rw [rows_update_closed] at hmem
    obtain ⟨r₀, hr₀, rfl⟩ := mem_map.mp hmem
    refine ⟨r₀, hr₀, ?_⟩
    split_ifs <;> rfl

theorem pairwise_rows {input : TaggedServiceInput}
    (h : (input.bindings.map (·.bindingType)).Pairwise Compatible) :
    (input.rows networkId ctx.now).Pairwise BindingsCompatible := by
  rw [← pairwise_bindingType, TaggedServiceInput.rows, map_map]
  exact h

/-- What tells the next input from those that were written. -/
structure Apart (ctx : EditContext) (inputs : List TaggedServiceInput)
    (existing : List TrackedService) (removed : List Uuid)
    (done : List (TaggedServiceInput × ℕ)) (p : TaggedServiceInput × ℕ) : Prop where
  sent : Sent inputs p
  sentBefore : ∀ q ∈ done, Sent inputs q
  id : p.1.id ∉ doneIds done
  kept : p.1.id ∉ removed
  named : (∀ t ∈ existing, t.id ≠ p.1.id) → p.1.id ≠ Uuid.nil
  number : ∀ q ∈ done, q.2 ≠ p.2
  givenIds : p.1.givenIds.Nodup
  otherIds : ∀ q ∈ done, ∀ id ∈ p.1.givenIds, id ∉ q.1.givenIds
  compatible : (p.1.bindings.map (·.bindingType)).Pairwise Compatible
  exclusive : ∀ q ∈ done, ∀ b ∈ p.1.bindings, ∀ c ∈ q.1.bindings,
    b.bindingType.overlaps c.bindingType = false
  draws : ∀ k, k.UsedFor inputs → ctx.draw k ∉ p.1.givenIds ∧
    ∀ q ∈ done, ctx.draw k ∉ q.1.givenIds

theorem mem_doneIds : id ∈ doneIds done ↔ ∃ q ∈ done, q.1.id = id := by
  unfold doneIds
  exact mem_map

theorem not_mem_doneIds_append :
    id ∉ doneIds (done ++ [p]) ↔ id ∉ doneIds done ∧ id ≠ p.1.id := by
  unfold doneIds
  rw [map_append, mem_append, not_or, map_singleton, mem_singleton]

theorem getForEntity_entityTags_setTags_of_ne {other : TaggedEntity} (hne : other ≠ entity) :
    (s.setTags ctx n entity tagIds).1.entityTags.getForEntity other =
      s.entityTags.getForEntity other := by
  unfold setTags
  split
  · rfl
  · split
    next hset => exact getForEntity_setTags_of_ne hne hset
    · rfl

theorem exists_id_of_entityTags_setTags {r : StoredRow EntityTagBase}
    (hr : r ∈ (s.setTags ctx n entity tagIds).1.entityTags) :
    (∃ r₀ ∈ s.entityTags, r₀.id = r.id) ∨ ∃ tagId ∈ tagIds, r.id = ctx.draw (.tag n tagId) := by
  unfold setTags at hr
  split at hr
  · exact .inl ⟨r, hr, rfl⟩
  · split at hr
    next hset => exact exists_id_of_setTags hset hr
    · exact .inl ⟨r, hr, rfl⟩

section Step
variable (hprogress : Progress ctx hostId networkId s₀ removed done s)
include hprogress

theorem exists_of_mem_written {q : TaggedServiceInput × ℕ} (hq : q ∈ done) {c : Binding}
    (hc : c ∈ s.children.bindingsOf q.1.id) :
    (∃ b ∈ q.1.bindings, b.bindingType = c.base.bindingType) ∧
      ((∃ k < q.1.bindings.length, c.id = ctx.draw (.binding q.2 k)) ∨ c.id ∈ q.1.givenIds) := by
  have hmem := (hprogress.entries q hq).mem_iff.mp (mem_map_of_mem hc)
  obtain ⟨a, ha, hentry⟩ := mem_map.mp hmem
  have hid : a.id = c.id := congrArg Prod.fst hentry
  have htype : a.base.bindingType = c.base.bindingType := congrArg Prod.snd hentry
  constructor
  · obtain ⟨b, hb, -, hbase⟩ := exists_of_mem_assignIds ha
    obtain ⟨i, hi, rfl⟩ := mem_map.mp hb
    refine ⟨i, hi, ?_⟩
    rw [← htype, ← hbase]
    rfl
  · rw [← hid]
    rcases mem_assignIds ha with ⟨k, hk, hdrawn⟩ | ⟨hgiven, hnil⟩
    · exact .inl ⟨k, by simpa [TaggedServiceInput.rows] using hk, hdrawn⟩
    · refine .inr ?_
      rw [← givenIds_rows q.1 networkId ctx.now]
      exact mem_givenIds.mpr ⟨a, hgiven, hnil, rfl⟩

theorem owner_iff (owner : Uuid) : s.children.hasService owner = true ↔
    owner ∈ doneIds done ∨ owner ∉ removed ∧ s₀.children.hasService owner = true := by
  by_cases hdone : owner ∈ doneIds done
  · obtain ⟨q, hq, rfl⟩ := mem_doneIds.mp hdone
    exact iff_of_true (hasService_iff.mpr ⟨hostId, true, hprogress.written q hq⟩)
      (.inl hdone)
  · rw [or_iff_right hdone, hasService_iff, hasService_iff]
    simp only [hprogress.services owner hdone, exists_and_left]

theorem references_iff :
    s.children.validateBindingsBelongToHost hostId (p.1.rows networkId ctx.now) = none ↔
      ∀ b ∈ p.1.bindings,
        (∀ portId ∈ b.bindingType.portId, portId ∈ s₀.children.hostPortIds hostId) ∧
          ∀ ip ∈ b.bindingType.ipAddressId, ip ∈ s₀.children.hostIpAddressIds hostId := by
  rw [validateBindingsBelongToHost_congr hprogress.ports hprogress.ipAddresses,
    validateBindingsBelongToHost, findSome?_eq_none_iff]
  unfold TaggedServiceInput.rows
  rw [forall_mem_map]
  exact forall₂_congr fun b _ => foreignReference_eq_none

variable (hdraws : DrawsFree ctx s₀ inputs)
  (hapart : Apart ctx inputs (s₀.children.servicesOf hostId) removed done p)
include hapart

theorem placed :
    Placed hostId (s₀.children.servicesOf hostId) s.children p.1 := by
  constructor
  · intro hexisting
    obtain ⟨live, hstored⟩ := exists_servicesOf.mp hexisting
    exact hasService_iff.mpr
      ⟨hostId, live, (hprogress.services _ hapart.id _ _).mpr ⟨hapart.kept, hstored⟩⟩
  · intro hnew
    refine ⟨hapart.named hnew, fun t ht hlive hhost hid => ?_⟩
    obtain ⟨-, hstored⟩ := (hprogress.services _ hapart.id _ _).mp ⟨t, ht, hid, hhost, hlive⟩
    obtain ⟨t₀, ht₀, hid₀⟩ := exists_servicesOf.mpr ⟨true, hstored⟩
    exact hnew t₀ ht₀ hid₀

theorem noClash_iff :
    s.children.NoClash hostId p.1.id (p.1.rows networkId ctx.now) ↔
      ∀ t ∈ s₀.children.services, t.isLive = true → t.base.hostId = hostId → t.id ≠ p.1.id →
        t.id ∉ removed → t.id ∉ doneIds done → ∀ b ∈ p.1.bindings,
          ∀ c ∈ s₀.children.bindingsOf t.id, b.bindingType.overlaps c.base.bindingType = false := by
  constructor
  · intro h t ht hlive hhost hne hkept hdone b hb c hc
    obtain ⟨t', ht', hid, hhost', hlive'⟩ :=
      (hprogress.services _ hdone _ _).mpr ⟨hkept, t, ht, rfl, hhost, hlive⟩
    obtain ⟨hc, hservice⟩ := mem_bindingsOf.mp hc
    have hdone' : c.base.serviceId ∉ doneIds done := by rwa [hservice]
    have hkept' : c.base.serviceId ∉ removed := by rwa [hservice]
    rw [← hid] at hne
    refine h t' ht' hlive' hhost' hne _ (mem_map_of_mem hb) c ?_
    exact mem_bindingsOf.mpr
      ⟨(hprogress.bindings c hdone').mpr ⟨hc, hkept'⟩, hservice.trans hid.symm⟩
  · intro h t ht hlive hhost hne b' hb' c hc
    obtain ⟨b, hb, rfl⟩ := mem_map.mp hb'
    by_cases hdone : t.id ∈ doneIds done
    · obtain ⟨q, hq, hid⟩ := mem_doneIds.mp hdone
      rw [← hid] at hc
      obtain ⟨⟨i, hi, htype⟩, -⟩ := exists_of_mem_written hprogress hq hc
      rw [← htype]
      exact hapart.exclusive q hq b hb i hi
    · obtain ⟨hkept, t₀, ht₀, hid, hhost₀, hlive₀⟩ :=
        (hprogress.services _ hdone _ _).mp ⟨t, ht, rfl, hhost, hlive⟩
      obtain ⟨hc, hservice⟩ := mem_bindingsOf.mp hc
      have hdone' : c.base.serviceId ∉ doneIds done := by rwa [hservice]
      rw [← hid] at hne hkept hdone hservice
      refine h t₀ ht₀ hlive₀ hhost₀ hne hkept hdone b hb c ?_
      exact mem_bindingsOf.mpr ⟨((hprogress.bindings c hdone').mp hc).1, hservice⟩

theorem bindingIds_iff :
    (∀ id ∈ p.1.givenIds, ∀ r ∈ s.children.bindings, r.id = id → r.base.serviceId = p.1.id) ↔
      ∀ id ∈ p.1.givenIds, ∀ r ∈ s₀.children.bindings, r.id = id → r.base.serviceId = p.1.id ∨
        r.base.serviceId ∈ removed ∨ r.base.serviceId ∈ doneIds done := by
  constructor
  · intro h id hid r hr hrid
    by_cases hdone : r.base.serviceId ∈ doneIds done
    · exact .inr (.inr hdone)
    · by_cases hremoved : r.base.serviceId ∈ removed
      · exact .inr (.inl hremoved)
      · exact .inl (h id hid r ((hprogress.bindings r hdone).mpr ⟨hr, hremoved⟩) hrid)
  · intro h id hid r hr hrid
    by_cases hdone : r.base.serviceId ∈ doneIds done
    · obtain ⟨q, hq, hservice⟩ := mem_doneIds.mp hdone
      have hmem : r ∈ s.children.bindingsOf q.1.id :=
        mem_bindingsOf.mpr ⟨hr, hservice.symm⟩
      rw [← hrid] at hid
      rcases (exists_of_mem_written hprogress hq hmem).2 with ⟨k, hk, hdrawn⟩ | hgiven
      · rw [hdrawn] at hid
        exact absurd hid (hapart.draws _ ((hapart.sentBefore q hq).binding hk)).1
      · exact absurd hgiven (hapart.otherIds q hq _ hid)
    · obtain ⟨hr, hkept⟩ := (hprogress.bindings r hdone).mp hr
      rcases h id hid r hr hrid with hown | hremoved | hwritten
      · exact hown
      · exact absurd hremoved hkept
      · exact absurd hwritten hdone

theorem row_iff :
    (((targetWrite ctx hostId networkId (s₀.children.servicesOf hostId) s.children p.1).mode =
        .insert → ∀ t ∈ s.children.services, t.id ≠ p.1.id) ∧
      ((targetWrite ctx hostId networkId (s₀.children.servicesOf hostId) s.children p.1).mode =
        .update → s.children.hasService p.1.id = true)) ↔
      ∀ t ∈ s₀.children.services, t.id = p.1.id → t.base.hostId = hostId := by
  rcases mode_targetWrite ctx hostId networkId (s₀.children.servicesOf hostId) s.children p.1 with
    ⟨hexisting, hmode⟩ | ⟨hnew, hmode⟩
  · rw [hmode]
    obtain ⟨live, hstored⟩ := exists_servicesOf.mp hexisting
    refine iff_of_true ⟨nofun, fun _ => (placed hprogress hapart).stored hexisting⟩ fun t ht hid => ?_
    exact (ServiceStore.Has.unique ⟨t, ht, hid, rfl, rfl⟩ hstored).1
  · rw [hmode]
    have hservices := hprogress.services _ hapart.id
    constructor
    · rintro ⟨hfree, -⟩ t ht hid
      obtain ⟨t', ht', hid', -⟩ :=
        (hservices t.base.hostId t.isLive).mpr ⟨hapart.kept, t, ht, hid, rfl, rfl⟩
      exact absurd hid' (hfree rfl t' ht')
    · refine fun hhost => ⟨fun _ t ht hid => ?_, nofun⟩
      obtain ⟨-, t₀, ht₀, hid₀, -⟩ := (hservices _ _).mp ⟨t, ht, hid, rfl, rfl⟩
      obtain ⟨t₁, ht₁, hid₁⟩ := exists_servicesOf.mpr
        ⟨t₀.isLive, t₀, ht₀, hid₀, hhost t₀ ht₀ hid₀, rfl⟩
      exact hnew t₁ ht₁ hid₁

include hdraws

theorem drawsNew_rows :
    s.children.DrawsNew (fun k => ctx.draw (.binding p.2 k)) (p.1.rows networkId ctx.now) := by
  have hlength : (p.1.rows networkId ctx.now).length = p.1.bindings.length := by
    rw [TaggedServiceInput.rows, length_map]
  have hused : ∀ k < (p.1.rows networkId ctx.now).length, (DrawKey.binding p.2 k).UsedFor inputs :=
    fun k hk => hapart.sent.binding (hlength ▸ hk)
  refine ⟨fun k hk => hdraws.ne_nil _ (hused k hk), fun k hk l hl hkl => ?_,
    fun k hk r hr hrk => ?_, fun k hk c hc hck => ?_⟩
  · exact (DrawKey.binding.inj (hdraws.injective (hused k hk) (hused l hl) hkl)).2
  · by_cases hdone : r.base.serviceId ∈ doneIds done
    · obtain ⟨q, hq, hid⟩ := mem_doneIds.mp hdone
      have hmem : r ∈ s.children.bindingsOf q.1.id := mem_bindingsOf.mpr ⟨hr, hid.symm⟩
      rcases (exists_of_mem_written hprogress hq hmem).2 with ⟨l, hl, hdrawn⟩ | hgiven
      · have hkeys := DrawKey.binding.inj (hdraws.injective
          ((hapart.sentBefore q hq).binding hl) (hused k hk) (hdrawn.symm.trans hrk))
        exact hapart.number q hq hkeys.1
      · rw [hrk] at hgiven
        exact (hapart.draws _ (hused k hk)).2 q hq hgiven
    · exact hdraws.bindings _ (hused k hk) r ((hprogress.bindings r hdone).mp hr).1 hrk
  · have hnil : c.id ≠ Uuid.nil := by
      rw [hck]
      exact hdraws.ne_nil _ (hused k hk)
    refine (hapart.draws (.binding p.2 k) (hused k hk)).1 ?_
    rw [← givenIds_rows p.1 networkId ctx.now]
    exact mem_givenIds.mpr ⟨c, hc, hnil, hck⟩

theorem drawsNew_targetWrite :
    s.children.DrawsNew (fun k => ctx.draw (.binding p.2 k))
      (targetWrite ctx hostId networkId (s₀.children.servicesOf hostId) s.children p.1).bindings := by
  rw [bindings_targetWrite]
  exact drawsNew_rows hprogress hdraws hapart

theorem drawsFresh_tags :
    s.entityTags.DrawsFresh (fun tagId => ctx.draw (.tag (some p.2) tagId)) p.1.tags := by
  constructor
  · intro tagId htag r hr hid
    have hused := hapart.sent.tag htag
    rcases hprogress.drawn r hr with ⟨r₀, hr₀, hid₀⟩ | ⟨q, hq, tagId', htag', hid'⟩
    · exact hdraws.entityTags _ hused r₀ hr₀ (hid₀.trans hid)
    · have hkeys := hdraws.injective ((hapart.sentBefore q hq).tag htag') hused
        (hid'.symm.trans hid)
      exact hapart.number q hq (Option.some.inj (DrawKey.tag.inj hkeys).1)
  · intro tagId htag tagId' htag' heq
    have hkeys := hdraws.injective (hapart.sent.tag htag) (hapart.sent.tag htag') heq
    exact (DrawKey.tag.inj hkeys).2

theorem tags_iff (children : ServiceStore) :
    ({ s with children }.setTags ctx (some p.2) (p.1.id, .service) p.1.tags).2 = none ↔
      ∀ organizationId ∈ ctx.organizationId,
        TagsAccepted ctx.tags s₀.entityTags (p.1.id, .service) p.1.tags organizationId := by
  have hfresh := drawsFresh_tags hprogress hdraws hapart
  have haccepted : (({ s with children } : EditStore).setTags ctx (some p.2) (p.1.id, .service)
      p.1.tags).2 = none ↔ ∀ organizationId ∈ ctx.organizationId,
        TagsAccepted ctx.tags s.entityTags (p.1.id, .service) p.1.tags organizationId :=
    setTags_ok_iff hfresh
  refine haccepted.trans (forall₂_congr fun organizationId _ => ?_)
  unfold TagsAccepted EntityTagTable.added
  rw [hprogress.tags _ hapart.id hapart.kept]

theorem written_ok_iff
    (hbelong : s.children.validateBindingsBelongToHost hostId (p.1.rows networkId ctx.now) = none) :
    (s.written ctx hostId networkId (s₀.children.servicesOf hostId) p).2 = true ↔
      (∀ t ∈ s₀.children.services, t.id = p.1.id → t.base.hostId = hostId) ∧
      ∀ id ∈ p.1.givenIds, ∀ r ∈ s₀.children.bindings, r.id = id → r.base.serviceId = p.1.id ∨
        r.base.serviceId ∈ removed ∨ r.base.serviceId ∈ doneIds done := by
  rw [← row_iff hprogress hapart, ← bindingIds_iff hprogress hapart, and_assoc]
  have hiff := write_ok_iff
    (mode_targetWrite_eq ctx hostId networkId (s₀.children.servicesOf hostId) s.children p.1)
    (drawsNew_targetWrite hprogress hdraws hapart)
    (by rw [bindings_targetWrite, givenIds_rows]; exact hapart.givenIds)
    (by rw [bindings_targetWrite]; exact canReference_of_belong hbelong)
  rwa [bindings_targetWrite, id_targetWrite, givenIds_rows] at hiff

theorem putService_ok_iff :
    (s.putService ctx hostId networkId (s₀.children.servicesOf hostId) p).2 = none ↔
      StepFits ctx hostId s₀ removed (doneIds done) p.1 := by
  rw [(putService_cases (placed hprogress hapart) (pairwise_rows hapart.compatible)).1]
  constructor
  · rintro ⟨hbelong, hclash, howner, hwritten, htags⟩
    obtain ⟨hhost, hids⟩ := (written_ok_iff hprogress hdraws hapart hbelong).mp hwritten
    refine ⟨(references_iff hprogress).mp hbelong, (noClash_iff hprogress hapart).mp hclash,
      fun owner h => ?_, hhost, hids, (tags_iff hprogress hdraws hapart _).mp htags⟩
    exact (howner owner h).imp_right (owner_iff hprogress owner).mp
  · intro hfits
    have hbelong := (references_iff hprogress).mpr hfits.references
    refine ⟨hbelong, (noClash_iff hprogress hapart).mpr hfits.free, fun owner h => ?_,
      (written_ok_iff hprogress hdraws hapart hbelong).mpr ⟨hfits.host, hfits.bindingIds⟩,
      (tags_iff hprogress hdraws hapart _).mpr hfits.tags⟩
    exact (hfits.owner owner h).imp_right (owner_iff hprogress owner).mpr

theorem progress_putService
    (hok : (s.putService ctx hostId networkId (s₀.children.servicesOf hostId) p).2 = none) :
    Progress ctx hostId networkId s₀ removed (done ++ [p])
      (s.putService ctx hostId networkId (s₀.children.servicesOf hostId) p).1 := by
  obtain ⟨hiff, hresult⟩ :=
    putService_cases (placed hprogress hapart) (pairwise_rows hapart.compatible)
  obtain ⟨-, -, -, hwrite, htags⟩ := hiff.mp hok
  rw [hresult hok]
  have hmode :=
    mode_targetWrite_eq ctx hostId networkId (s₀.children.servicesOf hostId) s.children p.1
  have hw : ServiceStore.Written s.children (fun k => ctx.draw (.binding p.2 k))
      (targetWrite ctx hostId networkId (s₀.children.servicesOf hostId) s.children p.1)
      (s.written ctx hostId networkId (s₀.children.servicesOf hostId) p) :=
    written_write _
  have hservices := hw.otherServices
  have hbindings := hw.otherBindings
  have hdelete : (targetWrite ctx hostId networkId (s₀.children.servicesOf hostId) s.children
      p.1).mode ≠ .delete := by
    rcases hmode with hmode | hmode <;> rw [hmode] <;> nofun
  rw [id_targetWrite] at hservices hbindings
  simp only [release_of_ne hdelete] at hservices
  have hrow : (s.written ctx hostId networkId (s₀.children.servicesOf hostId) p).1.Has p.1.id hostId
      true := by
    exact ⟨_, service_mem_write hmode hwrite, id_targetWrite .., hostId_targetWrite ..,
      isLive_targetWrite ..⟩
  have hentries := perm_bindingsOf_write hmode
    (drawsNew_targetWrite hprogress hdraws hapart)
    (by rw [bindings_targetWrite, givenIds_rows]; exact hapart.givenIds) hwrite
  rw [id_targetWrite, bindings_targetWrite] at hentries
  have hother : ∀ q ∈ done, q.1.id ≠ p.1.id :=
    fun q hq heq => hapart.id (mem_doneIds.mpr ⟨q, hq, heq⟩)
  have hhas : ∀ id ≠ p.1.id, ∀ host live,
      (s.written ctx hostId networkId (s₀.children.servicesOf hostId) p).1.Has id host live ↔
        s.children.Has id host live := by
    intro id hne host live
    refine exists_congr fun t => ?_
    constructor
    · rintro ⟨ht, rfl, h⟩
      exact ⟨(hservices t hne).mp ht, rfl, h⟩
    · rintro ⟨ht, rfl, h⟩
      exact ⟨(hservices t hne).mpr ht, rfl, h⟩
  refine ⟨?_, ?_, fun id hid host live => ?_, fun q hq => ?_, fun b hb => ?_, fun q hq => ?_,
    fun id hid hkept => ?_, fun r hr => ?_⟩
  · rw [children_setTags]
    exact hw.ports.trans hprogress.ports
  · rw [children_setTags]
    exact hw.ipAddresses.trans hprogress.ipAddresses
  · obtain ⟨hid, hne⟩ := not_mem_doneIds_append.mp hid
    rw [children_setTags]
    exact (hhas id hne host live).trans (hprogress.services id hid host live)
  · rw [children_setTags]
    rcases mem_append.mp hq with hq | hq
    · exact (hhas _ (hother q hq) _ _).mpr (hprogress.written q hq)
    · rw [mem_singleton.mp hq]
      exact hrow
  · obtain ⟨hdone, hne⟩ := not_mem_doneIds_append.mp hb
    rw [children_setTags]
    exact (hbindings b hne).trans (hprogress.bindings b hdone)
  · rw [children_setTags]
    rcases mem_append.mp hq with hq | hq
    · refine (Perm.map _ (perm_bindingsOf fun b hb => ?_)).trans
        (hprogress.entries q hq)
      refine hbindings b ?_
      rw [hb]
      exact hother q hq
    · rw [mem_singleton.mp hq]
      exact hentries
  · obtain ⟨hid, hne⟩ := not_mem_doneIds_append.mp hid
    rw [getForEntity_entityTags_setTags_of_ne fun heq => hne (congrArg Prod.fst heq)]
    exact hprogress.tags id hid hkept
  · rcases exists_id_of_entityTags_setTags hr with ⟨r', hr', hid⟩ | ⟨tagId, htag, hid⟩
    · rcases hprogress.drawn r' hr' with ⟨r₀, hr₀, hid₀⟩ | ⟨q, hq, tagId, htag, hid₀⟩
      · exact .inl ⟨r₀, hr₀, hid₀.trans hid⟩
      · exact .inr ⟨q, mem_append_left _ hq, tagId, htag, hid.symm.trans hid₀⟩
    · exact .inr ⟨p, mem_append_right _ (mem_singleton_self p), tagId, htag, hid⟩

end Step

theorem each_putService_ok_iff {inputs : List TaggedServiceInput}
    {batch : List (TaggedServiceInput × ℕ)} (hdraws : DrawsFree ctx s₀ inputs)
    (hapart : ∀ before p after, batch = before ++ p :: after →
      Apart ctx inputs (s₀.children.servicesOf hostId) removed before p)
    (hs : Progress ctx hostId networkId s₀ removed [] s) :
    ((each (putService ctx hostId networkId (s₀.children.servicesOf hostId)) batch s).2 = none ↔
      ∀ before p after, batch = before ++ p :: after →
        StepFits ctx hostId s₀ removed (doneIds before) p.1) ∧
    ((each (putService ctx hostId networkId (s₀.children.servicesOf hostId)) batch s).2 = none →
      Progress ctx hostId networkId s₀ removed batch
        (each (putService ctx hostId networkId (s₀.children.servicesOf hostId)) batch s).1) :=
  each_ok_iff (fun before p after hbatch _ hprogress =>
    ⟨putService_ok_iff hprogress hdraws (hapart before p after hbatch),
      progress_putService hprogress hdraws (hapart before p after hbatch)⟩) hs

end EditStore
end Scanopy
