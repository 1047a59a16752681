import Scanopy.Services.Requests

/-! The binding lists of all services stay well-formed in every interleaving of the requests, as
long as no write is refused in the middle of its bindings. -/

namespace Scanopy
open List BindingType

def ServiceStore.WellFormed (store : ServiceStore) : Prop :=
  ∀ s ∈ store.services, Scanopy.WellFormed (store.bindingsOf s.id)

def SavesFit (s : ServiceSystem) : ServiceEvent → Prop
  | .finish i draws => ∀ p, s.pending[i]? = some p → p.write.mode ≠ .delete →
    s.store.SaveFits p.write.service.id draws p.write.bindings
  | _ => True

instance (bindings : List Binding) : Decidable (WellFormed bindings) :=
  decidable_of_iff ((bindings.map (·.base.bindingType)).Nodup ∧
      (∀ b ∈ bindings, isBindingCoveredByExisting b bindings = false) ∧
      ∀ b ∈ bindings, validateBindingNoConflict b.base.bindingType bindings = none)
    ⟨fun h => ⟨h.1, h.2.1, h.2.2⟩, fun h => ⟨h.nodup, h.uncovered, h.noConflict⟩⟩

instance (store : ServiceStore) : Decidable store.WellFormed :=
  inferInstanceAs (Decidable (∀ s ∈ store.services.rows, WellFormed (store.bindingsOf s.id)))

instance (store : ServiceStore) (serviceId : Uuid) (draws : ℕ → Uuid) (children : List Binding) :
    Decidable (store.SaveFits serviceId draws children) :=
  let ids := insertedIds ((store.bindingsOf serviceId).map fun b : Binding => b.id) draws children
  decidable_of_iff ((∀ c ∈ children, store.canReference c = true) ∧ ids.Nodup ∧
      ∀ id ∈ ids, ∀ r ∈ store.bindings.rows, r.id ≠ id)
    ⟨fun h => ⟨h.1, h.2.1, h.2.2⟩, fun h => ⟨h.references, h.distinct, h.free⟩⟩

instance (s : ServiceSystem) : (e : ServiceEvent) → Decidable (SavesFit s e)
  | .finish i draws => inferInstanceAs (Decidable (∀ p, s.pending[i]? = some p →
      p.write.mode ≠ .delete → s.store.SaveFits p.write.service.id draws p.write.bindings))
  | .start _ | .discover _ | .next _ => isTrue trivial

theorem WellFormed.nil : WellFormed [] := ⟨nodup_nil, by simp, by simp⟩

theorem WellFormed.withService {bindings : List Binding} (h : WellFormed bindings)
    (s : TrackedService) : WellFormed (bindings.map (Binding.withService s)) := by
  rw [wellFormed_iff_pairwise, ← pairwise_bindingType] at h ⊢
  rw [map_map]
  exact h

namespace ServiceStore
variable {defs : ServiceDefinitions} {store : ServiceStore} {r : ServiceRequest} {w : ServiceWrite}
  {serviceId : Uuid} {draws : ℕ → Uuid}

theorem wellFormed_bindingsOf_iff : Scanopy.WellFormed (store.bindingsOf serviceId) ↔
    ∀ b ∈ store.bindings, b.base.serviceId = serviceId → ∀ b' ∈ store.bindings,
      b'.base.serviceId = serviceId → b ≠ b' → BindingsCompatible b b' := by
  rw [wellFormed_iff_pairwise]
  constructor
  · intro h b hb hservice b' hb' hservice' hne
    exact h.forall (mem_bindingsOf.mpr ⟨hb, hservice⟩) (mem_bindingsOf.mpr ⟨hb', hservice'⟩) hne
  · intro h
    refine (store.nodup_bindingsOf serviceId).pairwise_of_forall_ne fun b hb b' hb' hne => ?_
    obtain ⟨hb, hservice⟩ := mem_bindingsOf.mp hb
    obtain ⟨hb', hservice'⟩ := mem_bindingsOf.mp hb'
    exact h b hb hservice b' hb' hservice' hne

theorem wellFormed_bindingsOf_of_children {children : List Binding}
    (hchildren : Scanopy.WellFormed children)
    (h : ∀ b ∈ store.bindings, b.base.serviceId = serviceId →
      ∃ c ∈ assignIds draws children, c.id = b.id ∧ c.base.bindingType = b.base.bindingType) :
    Scanopy.WellFormed (store.bindingsOf serviceId) := by
  have hpairwise : (assignIds draws children).Pairwise BindingsCompatible :=
    pairwise_assignIds (wellFormed_iff_pairwise.mp hchildren)
  rw [wellFormed_bindingsOf_iff]
  intro b hb hservice b' hb' hservice' hne
  obtain ⟨c, hc, hid, htype⟩ := h b hb hservice
  obtain ⟨c', hc', hid', htype'⟩ := h b' hb' hservice'
  have hne' : c ≠ c' := by
    rintro rfl
    exact hne (store.bindings.eq_of_key hb hb' (hid.symm.trans hid'))
  have hcompatible := hpairwise.forall hc hc' hne'
  unfold BindingsCompatible at hcompatible ⊢
  rwa [← htype, ← htype']

theorem noConflicts_of_or {bindings : List Binding} {rest : Option ServiceError}
    (h : ((validateBindingsNoConflicts bindings).map ServiceError.bindingConflict).or rest = none) :
    validateBindingsNoConflicts bindings = none :=
  Option.map_eq_none_iff.mp (Option.or_eq_none_iff.mp h).1

theorem wellFormed_of_check (hstore : store.WellFormed) (h : store.check defs r = .ok w) :
    Scanopy.WellFormed w.bindings := by
  cases r with
  | create service newId now =>
    rcases checkCreate_cases h with ⟨existing, htarget, rfl⟩ | ⟨-, hcheck, rfl⟩
    · obtain ⟨row, hrow, -, -, rfl⟩ := upsertTarget_eq_some htarget
      exact ((hstore row hrow).upsertBindings _).withService _
    · have hvalid := wellFormed_deduplicateBindings (noConflicts_of_or hcheck)
      exact hvalid.withService _
  | update service =>
    obtain ⟨hcheck, rfl⟩ := check_update h
    have hvalid := wellFormed_deduplicateBindings (noConflicts_of_or hcheck)
    exact hvalid.withService _
  | removePortBindings serviceId claims =>
    obtain ⟨row, hrow, -, -, -, hbindings⟩ := check_removePortBindings h
    rw [hbindings]
    exact (hstore row hrow).filter _
  | delete serviceId =>
    obtain ⟨-, -, -, -, -, hbindings⟩ := check_delete h
    rw [hbindings]
    exact .nil

theorem WellFormed.write (hstore : store.WellFormed) (hw : Scanopy.WellFormed w.bindings)
    (hok : (store.write draws w).2 = true) : (store.write draws w).1.WellFormed := by
  have hwritten : Written store draws w (store.write draws w) := written_write w
  intro s hs
  by_cases hid : s.id = w.service.id
  · rw [hid]
    exact wellFormed_bindingsOf_of_children hw (hwritten.bindings hok)
  · obtain ⟨s₀, hs₀, hs₀_id, -⟩ := hwritten.exists_before hs hid
    have hbefore := hstore s₀ hs₀
    rw [hs₀_id] at hbefore
    rw [wellFormed_bindingsOf_iff] at hbefore ⊢
    intro b hb hservice b' hb' hservice' hne
    have hother : b.base.serviceId ≠ w.service.id := by rwa [hservice]
    have hother' : b'.base.serviceId ≠ w.service.id := by rwa [hservice']
    exact hbefore b ((hwritten.otherBindings b hother).mp hb) hservice b'
      ((hwritten.otherBindings b' hother').mp hb') hservice' hne

end ServiceStore

structure ServiceSystem.WellFormed (s : ServiceSystem) : Prop where
  store : s.store.WellFormed
  pending : ∀ p ∈ s.pending, Scanopy.WellFormed p.write.bindings

theorem ServiceSystem.WellFormed.step {defs : ServiceDefinitions} {s s' : ServiceSystem}
    {e : ServiceEvent} (hs : s.WellFormed) (hfit : SavesFit s e) (h : s.step defs e = some s') :
    s'.WellFormed := by
  rcases step_cases h with ⟨hstore, hpending⟩ | ⟨r, w, -, hw, hstore, hpending⟩ |
    ⟨i, draws, p, rfl, hp, hstore, hpending⟩
  · exact ⟨by rw [hstore]; exact hs.store, by rw [hpending]; exact hs.pending⟩
  · refine ⟨by rw [hstore]; exact hs.store, fun p hp => ?_⟩
    rw [hpending] at hp
    rcases mem_append.mp hp with hp | hp
    · exact hs.pending p hp
    · rw [mem_singleton.mp hp]
      exact ServiceStore.wellFormed_of_check hs.store hw
  · constructor
    · rw [hstore]
      rcases ServiceStore.write_ok_or_eq (hfit p hp) with hok | hsame
      · exact hs.store.write (hs.pending p (mem_of_getElem? hp)) hok
      · rw [hsame]
        exact hs.store
    · intro p' hp'
      rw [hpending] at hp'
      obtain ⟨q, hq, rfl⟩ := mem_map.mp hp'
      have hbindings : (PendingWrite.overtake p.write q).write = q.write := by
        unfold PendingWrite.overtake
        split_ifs <;> rfl
      rw [hbindings]
      exact hs.pending q (mem_of_mem_eraseIdx hq)

/-- From a store whose lists are well-formed, every interleaving of requests whose writes are not
refused in the middle keeps them so. -/
theorem wellFormed_of_savesFit {defs : ServiceDefinitions} {store : ServiceStore}
    (hstore : store.WellFormed) {s : ServiceSystem}
    (hs : (serviceLts defs store).ReachableVia SavesFit s) : s.store.WellFormed := by
  have hinit : ServiceSystem.WellFormed { store } := ⟨hstore, fun p hp => absurd hp not_mem_nil⟩
  have hinv : s.WellFormed := hs.invariant hinit fun _ _ _ _ hinv hfit hstep => hinv.step hfit hstep
  exact hinv.store

private def webService : TrackedService :=
  ⟨1, 0, 0, none, none, {
    hostId := 10, networkId := 9, serviceDefinition := "Nginx", name := "web", bindings := []
    virtualizationServiceId := none, position := 0 }⟩

private def dnsService : TrackedService :=
  ⟨2, 1, 1, none, none, {
    hostId := 10, networkId := 9, serviceDefinition := "Unbound", name := "dns", bindings := []
    virtualizationServiceId := none, position := 1 }⟩

private def boundTo (id serviceId : Uuid) (t : BindingType) : Binding :=
  ⟨id, 0, 0, none, none, ⟨serviceId, 9, t⟩⟩

private def addressOf (id : Uuid) (address : BitVec 32) : IPAddress :=
  ⟨id, 0, 0, none, none, ⟨9, 10, 8, .v4 address, none, none, 0, 0⟩⟩

private def twoServices : ServiceStore where
  services := ⟨[webService, dnsService], by decide⟩
  bindings := ⟨[boundTo 21 1 (.port 31 (some 41)), boundTo 22 1 (.port 32 none),
    boundTo 29 2 (.ipAddress 44)], by decide⟩
  ports := ⟨[⟨31, 0, 0, none, none, ⟨10, 9, 443, .tcp⟩⟩,
    ⟨32, 0, 0, none, none, ⟨10, 9, 80, .tcp⟩⟩], by decide⟩
  ipAddresses := ⟨[addressOf 41 0x0A000001#32, addressOf 42 0x0A000002#32,
    addressOf 43 0x0A000003#32, addressOf 44 0x0A000004#32], by decide⟩

private def noDefinitions : ServiceDefinitions := ⟨fun _ => false, fun _ => false, fun _ => false⟩

/-- The web service, bound to addresses instead of ports, with `ids` as the ids of its bindings. -/
private def rebind (ids : List Uuid) : List ServiceEvent :=
  [.start (.update (webService.withBindings
      ((ids.zip [41, 43, 42]).map fun (id, ip) => boundTo id 1 (.ipAddress ip)))),
    .finish 0 fun n => BitVec.ofNat 128 (100 + n)]

theorem wellFormed_of_savesFit_rebound :
    ∃ s, (serviceLts noDefinitions twoServices).run { store := twoServices }
        (rebind [21, 0, 22]) = some s ∧
      (s.store.bindingsOf 1).map (·.base.bindingType) =
        [.ipAddress 41, .ipAddress 42, .ipAddress 43] ∧
      s.store.WellFormed := by
  obtain ⟨s, hrun⟩ : ∃ s, (serviceLts noDefinitions twoServices).run { store := twoServices }
      (rebind [21, 0, 22]) = some s := ⟨_, rfl⟩
  have hguarded : (serviceLts noDefinitions twoServices).Guarded SavesFit { store := twoServices }
      (rebind [21, 0, 22]) := by decide
  have hs := wellFormed_of_savesFit (by decide) (Lts.reachableVia_of_run .init hguarded hrun)
  cases hrun
  exact ⟨_, rfl, by decide, hs⟩

/-- A list of bindings in which the second one has the id of a binding of another service: the
write stops there, with the first binding new and the last one still the old one. -/
theorem not_wellFormed_of_refused : twoServices.WellFormed ∧
    ∃ s, (serviceLts noDefinitions twoServices).Reachable s ∧ ¬s.store.WellFormed := by
  obtain ⟨s, hrun⟩ : ∃ s, (serviceLts noDefinitions twoServices).run { store := twoServices }
      (rebind [21, 29, 22]) = some s := ⟨_, rfl⟩
  refine ⟨by decide, s, Lts.reachable_of_run hrun, ?_⟩
  cases hrun
  decide

end Scanopy
