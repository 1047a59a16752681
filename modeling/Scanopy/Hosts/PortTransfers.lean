import Scanopy.Hosts.ServiceSync
import Scanopy.Shared.InputPositions

/-! A rearrangement of the ports of a host. The services that lose a port are written first, but
each is still checked against those that are written after it. -/

namespace Scanopy
open List Commits BindingType EditStore ServiceStore

def losingFirst (existing : List TrackedService) (inputs : List TaggedServiceInput) :
    List TaggedServiceInput :=
  inputs.filter (losesBindings existing) ++ inputs.filter fun i => !losesBindings existing i

def EditStore.removedServices (s : EditStore) (hostId : Uuid) (inputs : List TaggedServiceInput) :
    List Uuid :=
  ((s.children.servicesOf hostId).map (·.id)).filter fun id => id ∉ inputs.map (·.id)

structure FreeOfConflicts (s : EditStore) (hostId : Uuid) (inputs : List TaggedServiceInput) :
    Prop where
  stored : ∀ t ∈ s.children.services, ∀ t' ∈ s.children.services, t.isLive = true →
    t'.isLive = true → t.base.hostId = hostId → t'.base.hostId = hostId → t.id ≠ t'.id →
      ∀ b ∈ s.children.bindingsOf t.id, ∀ c ∈ s.children.bindingsOf t'.id,
        b.base.bindingType.overlaps c.base.bindingType = false
  compatible : ∀ i ∈ inputs, (i.bindings.map (·.bindingType)).Pairwise Compatible
  exclusive : inputs.Pairwise fun i j => ∀ b ∈ i.bindings, ∀ c ∈ j.bindings,
    b.bindingType.overlaps c.bindingType = false
  ports : ∀ i ∈ inputs, ∀ b ∈ i.bindings, ∀ portId ∈ b.bindingType.portId,
    portId ∈ s.children.hostPortIds hostId

structure Rearranged (hostId : Uuid) (inputs : List TaggedServiceInput)
    (result : EditStore × Option HostEditError) : Prop where
  ok : result.2 = none
  services : ((result.1.children.servicesOf hostId).map (·.id)).Perm (inputs.map (·.id))
  types : ∀ i ∈ inputs, ((result.1.children.bindingsOf i.id).map (·.base.bindingType)).Perm
    (i.bindings.map (·.bindingType))
  given : ∀ i ∈ inputs, ∀ b ∈ i.bindings, b.id ≠ Uuid.nil →
    (b.id, b.bindingType) ∈ (result.1.children.bindingsOf i.id).map ServiceStore.entry

/-- The condition under which a rearrangement goes through. -/
structure TransferFits (ctx : EditContext) (s : EditStore) (hostId : Uuid)
    (inputs : List TaggedServiceInput) : Prop where
  positions : (∀ i ∈ inputs, i.position = none) ∨
    (inputs.filterMap (·.position)).Perm (listPositions inputs.length)
  ids : (inputs.map (·.id)).Nodup
  named : ∀ i ∈ inputs, (∀ t ∈ s.children.servicesOf hostId, t.id ≠ i.id) → i.id ≠ Uuid.nil
  givenIds : (inputs.flatMap (·.givenIds)).Nodup
  /-- In the order in which they are written, each service finds what it needs: above all, its ports
  are held by no service that is written later. -/
  steps : ∀ before i after,
    losingFirst (s.children.servicesOf hostId) inputs = before ++ i :: after →
      StepFits ctx hostId s (s.removedServices hostId inputs) (before.map (·.id)) i

structure Batch (ctx : EditContext) (existing : List TrackedService)
    (sent inputs : List TaggedServiceInput) : Prop where
  reordered : (inputs.map (·.unplaced)).Perm (sent.map (·.unplaced))
  ids : (inputs.map (·.id)).Nodup
  named : ∀ i ∈ inputs, (∀ t ∈ existing, t.id ≠ i.id) → i.id ≠ Uuid.nil
  givenIds : (inputs.flatMap (·.givenIds)).Nodup
  compatible : ∀ i ∈ inputs, (i.bindings.map (·.bindingType)).Pairwise Compatible
  exclusive : inputs.Pairwise fun i j => ∀ b ∈ i.bindings, ∀ c ∈ j.bindings,
    b.bindingType.overlaps c.bindingType = false
  draws : ∀ k, k.UsedFor sent → ∀ i ∈ inputs, ctx.draw k ∉ i.givenIds

section Order
variable {existing : List TrackedService} {inputs ordered : List TaggedServiceInput}
  {positions : List ℤ}

theorem map_unplaced_zipWith (h : positions.length = inputs.length) :
    (List.zipWith (fun position (i : TaggedServiceInput) =>
      { i with position := some position }) positions inputs).map (·.unplaced) =
        inputs.map (·.unplaced) := by
  induction inputs generalizing positions with
  | nil => rw [zipWith_nil_right, map_nil]
  | cons i inputs ih =>
    obtain ⟨p, positions, rfl⟩ := exists_cons_of_length_eq_add_one h
    rw [zipWith_cons_cons, map_cons, map_cons, ih (Nat.succ.inj h)]
    rfl

theorem map_unplaced_losingFirst (existing : List TrackedService)
    (inputs : List TaggedServiceInput) :
    (losingFirst existing inputs).map (·.unplaced) =
      losingFirst existing (inputs.map (·.unplaced)) := by
  unfold losingFirst
  rw [map_append, filter_map, filter_map]
  rfl

theorem losingFirst_perm (existing : List TrackedService) (inputs : List TaggedServiceInput) :
    (losingFirst existing inputs).Perm inputs :=
  filter_append_perm _ inputs

theorem orderServices_ok_iff : (∃ ordered, orderServices existing inputs = .ok ordered) ↔
    (∀ i ∈ inputs, i.position = none) ∨
      (inputs.filterMap (·.position)).Perm (listPositions inputs.length) := by
  have hpositions := @exists_resolveAndValidateInputPositions_iff
    (inputs.map fun i => (i.id, i.position)) (existing.map fun s => (s.id, s.base.position))
  rw [forall_mem_map, filterMap_map, length_map] at hpositions
  refine Iff.trans ?_ hpositions
  unfold orderServices
  cases resolveAndValidateInputPositions (inputs.map fun i => (i.id, i.position))
    (existing.map fun s => (s.id, s.base.position)) with
  | error e => exact iff_of_false (fun ⟨_, h⟩ => nomatch h) fun ⟨_, h⟩ => nomatch h
  | ok positions => exact iff_of_true ⟨_, rfl⟩ ⟨positions, rfl⟩

theorem map_unplaced_orderServices (h : orderServices existing inputs = .ok ordered) :
    ordered.map (·.unplaced) = (losingFirst existing inputs).map (·.unplaced) := by
  unfold orderServices at h
  cases hresolve : resolveAndValidateInputPositions (inputs.map fun i => (i.id, i.position))
    (existing.map fun s => (s.id, s.base.position)) with
  | error e =>
    rw [hresolve] at h
    cases h
  | ok positions =>
    rw [hresolve] at h
    cases h
    have hlength := length_resolveAndValidateInputPositions hresolve
    rw [length_map] at hlength
    have hunplaced := map_unplaced_losingFirst existing (List.zipWith
      (fun position (i : TaggedServiceInput) => { i with position := some position })
      positions inputs)
    rw [map_unplaced_zipWith hlength, ← map_unplaced_losingFirst] at hunplaced
    exact hunplaced

end Order
section Batch
variable {ctx : EditContext} {existing : List TrackedService}
  {sent inputs ordered : List TaggedServiceInput} {removed : List Uuid}

theorem Batch.of_perm (hperm : (ordered.map (·.unplaced)).Perm (inputs.map (·.unplaced)))
    (h : Batch ctx existing sent inputs) : Batch ctx existing sent ordered := by
  have hmem : ∀ i ∈ ordered, ∃ j ∈ inputs, j.unplaced = i.unplaced := fun i hi =>
    mem_map.mp (hperm.mem_iff.mp (mem_map_of_mem hi))
  constructor
  · exact hperm.trans h.reordered
  · have hids := hperm.map (·.id)
    rw [map_map, map_map] at hids
    exact hids.nodup_iff.mpr h.ids
  · intro i hi hnew
    obtain ⟨j, hj, hsame⟩ := hmem i hi
    have hid : j.id = i.id := (congrArg (fun u : TaggedServiceInput => u.id) hsame :)
    rw [← hid] at hnew ⊢
    exact h.named j hj hnew
  · have hids := hperm.flatMap_right (·.givenIds)
    rw [flatMap_map, flatMap_map] at hids
    exact hids.nodup_iff.mpr h.givenIds
  · intro i hi
    obtain ⟨j, hj, hsame⟩ := hmem i hi
    have hbindings : j.bindings = i.bindings :=
      (congrArg (fun u : TaggedServiceInput => u.bindings) hsame :)
    rw [← hbindings]
    exact h.compatible j hj
  · have hexclusive : (inputs.map (·.unplaced)).Pairwise fun i j => ∀ b ∈ i.bindings,
        ∀ c ∈ j.bindings, b.bindingType.overlaps c.bindingType = false :=
      pairwise_map.mpr h.exclusive
    refine pairwise_map.mp ((hperm.symm.pairwise_iff fun hxy b hb c hc => ?_).mp hexclusive)
    rw [overlaps_comm]
    exact hxy c hc b hb
  · intro k hk i hi
    obtain ⟨j, hj, hsame⟩ := hmem i hi
    have hids : j.givenIds = i.givenIds :=
      (congrArg (fun u : TaggedServiceInput => u.givenIds) hsame :)
    rw [← hids]
    exact h.draws k hk j hj

theorem Batch.apart (h : Batch ctx existing sent inputs) (hkept : ∀ i ∈ inputs, i.id ∉ removed)
    {before after : List (TaggedServiceInput × ℕ)} {p : TaggedServiceInput × ℕ}
    (hsplit : inputs.zipIdx = before ++ p :: after) :
    EditStore.Apart ctx sent existing removed before p := by
  have hinputs := congrArg (List.map Prod.fst) hsplit
  rw [zipIdx_map_fst, map_append, map_cons] at hinputs
  have hp : p.1 ∈ inputs := by
    rw [hinputs]
    exact mem_append_right _ mem_cons_self
  have hbefore : ∀ q ∈ before, q.1 ∈ inputs := by
    intro q hq
    rw [hinputs]
    exact mem_append_left _ (mem_map_of_mem hq)
  have hsent : ∀ q ∈ inputs.zipIdx, Sent sent q := by
    intro q hq
    have hnumber := snd_lt_of_mem_zipIdx hq
    have hlength := h.reordered.length_eq
    rw [length_map, length_map] at hlength
    have hinput : q.1 ∈ inputs := fst_mem_of_mem_zipIdx hq
    exact ⟨by omega, mem_map.mp (h.reordered.mem_iff.mp (mem_map_of_mem hinput))⟩
  rw [hsplit] at hsent
  have hids := h.ids
  have hgiven := h.givenIds
  have hexclusive := h.exclusive
  rw [hinputs] at hids hgiven hexclusive
  rw [map_append, map_cons, map_map] at hids
  rw [flatMap_append, flatMap_cons] at hgiven
  rw [pairwise_append] at hexclusive
  constructor
  · exact hsent p (mem_append_right _ mem_cons_self)
  · exact fun q hq => hsent q (mem_append_left _ hq)
  · exact fun hmem => disjoint_of_nodup_append hids hmem mem_cons_self
  · exact hkept p.1 hp
  · exact h.named p.1 hp
  · have hnumbers : (inputs.zipIdx.map Prod.snd).Nodup := by
      rw [zipIdx_map_snd]
      exact nodup_range'
    rw [hsplit, map_append, map_cons] at hnumbers
    intro q hq heq
    refine disjoint_of_nodup_append hnumbers (mem_map_of_mem hq) ?_
    rw [heq]
    exact mem_cons_self
  · exact hgiven.of_append_right.of_append_left
  · intro q hq id hid hid'
    refine disjoint_of_nodup_append hgiven ?_ (mem_append_left _ hid)
    exact mem_flatMap.mpr ⟨q.1, mem_map_of_mem hq, hid'⟩
  · exact h.compatible p.1 hp
  · intro q hq b hb c hc
    rw [overlaps_comm]
    exact hexclusive.2.2 q.1 (mem_map_of_mem hq) p.1 mem_cons_self c hc b hb
  · exact fun k hk => ⟨h.draws k hk p.1 hp, fun q hq => h.draws k hk q.1 (hbefore q hq)⟩

end Batch
section Run
variable {ctx : EditContext} {hostId networkId : Uuid} {s : EditStore}
  {inputs ordered : List TaggedServiceInput} {removed : List Uuid}
variable {i : TaggedServiceInput}

theorem stepFits_unplaced {done : List Uuid} :
    StepFits ctx hostId s removed done i.unplaced ↔ StepFits ctx hostId s removed done i :=
  ⟨fun h => ⟨h.references, h.free, h.owner, h.host, h.bindingIds, h.tags⟩,
    fun h => ⟨h.references, h.free, h.owner, h.host, h.bindingIds, h.tags⟩⟩

theorem forall_stepFits_iff (h : ordered.map (·.unplaced) = inputs.map (·.unplaced)) :
    (∀ before p after, ordered.zipIdx = before ++ p :: after →
      StepFits ctx hostId s removed (doneIds before) p.1) ↔
    ∀ before i after, inputs = before ++ i :: after →
      StepFits ctx hostId s removed (before.map (·.id)) i := by
  have hunplaced : ∀ list : List TaggedServiceInput,
      (∀ before i after, list.map (·.unplaced) = before ++ i :: after →
        StepFits ctx hostId s removed (before.map (·.id)) i) ↔
      ∀ before i after, list = before ++ i :: after →
        StepFits ctx hostId s removed (before.map (·.id)) i := by
    intro list
    rw [forall_split_map]
    refine forall₄_congr fun before i after _ => ?_
    rw [stepFits_unplaced, map_map]
    rfl
  have hnumbered : (∀ before p after, ordered.zipIdx = before ++ p :: after →
      StepFits ctx hostId s removed (doneIds before) p.1) ↔
      ∀ before i after, ordered = before ++ i :: after →
        StepFits ctx hostId s removed (before.map (·.id)) i := by
    nth_rewrite 2 [← zipIdx_map_fst 0 ordered]
    rw [forall_split_map]
    refine forall₄_congr fun before p after _ => ?_
    rw [map_map]
    rfl
  rw [hnumbered, ← hunplaced ordered, h, hunplaced]

theorem syncServices_ok_iff (hdraws : DrawsFree ctx s inputs)
    (hbatch : Batch ctx (s.children.servicesOf hostId) inputs inputs) :
    ((s.syncServices ctx hostId networkId inputs).2 = none ↔ ((∀ i ∈ inputs, i.position = none) ∨
        (inputs.filterMap (·.position)).Perm (listPositions inputs.length)) ∧
      ∀ before i after, losingFirst (s.children.servicesOf hostId) inputs = before ++ i :: after →
        StepFits ctx hostId s (s.removedServices hostId inputs) (before.map (·.id)) i) ∧
    ((s.syncServices ctx hostId networkId inputs).2 = none → ∃ ordered : List TaggedServiceInput,
        (ordered.map (·.unplaced)).Perm (inputs.map (·.unplaced)) ∧
        Progress ctx hostId networkId s (s.removedServices hostId inputs) ordered.zipIdx
          (s.syncServices ctx hostId networkId inputs).1) := by
  rw [← @orderServices_ok_iff (s.children.servicesOf hostId)]
  unfold syncServices
  dsimp only
  cases horder : orderServices (s.children.servicesOf hostId) inputs with
  | error e =>
    exact ⟨iff_of_false nofun (fun h => nomatch h.1), nofun⟩
  | ok ordered =>
    have hunplaced := map_unplaced_orderServices horder
    have hperm : (ordered.map (·.unplaced)).Perm (inputs.map (·.unplaced)) := by
      rw [hunplaced]
      exact (losingFirst_perm _ inputs).map _
    have hids := hperm.map (·.id)
    rw [map_map, map_map] at hids
    have hremoved : ((s.children.servicesOf hostId).map (·.id)).filter
        (fun id => id ∉ ordered.map (·.id)) = s.removedServices hostId inputs := by
      refine filter_congr fun id _ => ?_
      exact decide_eq_decide.mpr (not_congr hids.mem_iff)
    have hapart : ∀ before p after, ordered.zipIdx = before ++ p :: after →
        EditStore.Apart ctx inputs (s.children.servicesOf hostId) (s.removedServices hostId inputs) before p := by
      intro before p after hsplit
      refine (hbatch.of_perm hperm).apart (fun i hi hremoved => ?_) hsplit
      have hnew := of_decide_eq_true (mem_filter.mp hremoved).2
      exact hnew (hids.mem_iff.mp (mem_map_of_mem hi))
    have hbegin : Progress ctx hostId networkId s (s.removedServices hostId inputs) []
        (s.deleteServices ctx.now (s.removedServices hostId inputs)) :=
      progress_deleteServices s _
    obtain ⟨hiff, hkeep⟩ := each_putService_ok_iff hdraws hapart hbegin
    unfold syncRows
    dsimp only
    rw [hremoved]
    refine ⟨?_, fun hok => ⟨ordered, hperm, hkeep hok⟩⟩
    rw [hiff, forall_stepFits_iff hunplaced]
    exact ⟨fun h => ⟨⟨ordered, rfl⟩, h⟩, fun h => h.2⟩

theorem exists_mem_zipIdx (hperm : (ordered.map (·.unplaced)).Perm (inputs.map (·.unplaced)))
    (hi : i ∈ inputs) :
    ∃ q ∈ ordered.zipIdx, q.1.unplaced = i.unplaced := by
  obtain ⟨j, hj, hsame⟩ := mem_map.mp (hperm.mem_iff.mpr (mem_map_of_mem hi))
  rw [← zipIdx_map_fst 0 ordered] at hj
  obtain ⟨q, hq, rfl⟩ := mem_map.mp hj
  exact ⟨q, hq, hsame⟩

theorem rearranged_of_progress {result : EditStore × Option HostEditError}
    (hids : (inputs.map (·.id)).Nodup)
    (hperm : (ordered.map (·.unplaced)).Perm (inputs.map (·.unplaced)))
    (hprogress : Progress ctx hostId networkId s (s.removedServices hostId inputs) ordered.zipIdx
      result.1)
    (hok : result.2 = none) : Rearranged hostId inputs result := by
  have hdone : ∀ id, id ∈ doneIds ordered.zipIdx ↔ id ∈ inputs.map (·.id) := by
    intro id
    have hordered := hperm.map (·.id)
    rw [map_map, map_map] at hordered
    refine Iff.trans ?_ hordered.mem_iff
    nth_rewrite 2 [← zipIdx_map_fst 0 ordered]
    rw [map_map]
    rfl
  constructor
  · exact hok
  · have hleft : ((result.1.children.servicesOf hostId).map (·.id)).Nodup := by
      unfold servicesOf
      rw [map_map]
      exact (filter_sublist.map _).nodup result.1.children.services.nodup
    refine (perm_ext_iff_of_nodup hleft hids).mpr fun id => ?_
    rw [mem_map, exists_servicesOf]
    constructor
    · rintro ⟨live, hhas⟩
      by_contra hnew
      obtain ⟨hkept, hstored⟩ := (hprogress.services id (mt (hdone id).mp hnew) hostId live).mp hhas
      refine hkept (mem_filter.mpr ⟨?_, decide_eq_true hnew⟩)
      exact mem_map.mpr (exists_servicesOf.mpr ⟨live, hstored⟩)
    · intro hid
      obtain ⟨q, hq, rfl⟩ := mem_doneIds.mp ((hdone id).mpr hid)
      exact ⟨true, hprogress.written q hq⟩
  · intro i hi
    obtain ⟨q, hq, hsame⟩ := exists_mem_zipIdx hperm hi
    have hid : q.1.id = i.id := (congrArg (fun u : TaggedServiceInput => u.id) hsame :)
    have hbindings : q.1.bindings = i.bindings :=
      (congrArg (fun u : TaggedServiceInput => u.bindings) hsame :)
    have htypes := (hprogress.entries q hq).map Prod.snd
    rw [map_map, map_map, hid] at htypes
    refine htypes.trans (Perm.of_eq ?_)
    refine (map_bindingType_assignIds _ _).trans ?_
    rw [TaggedServiceInput.rows, map_map, hbindings]
    rfl
  · intro i hi b hb hnil
    obtain ⟨q, hq, hsame⟩ := exists_mem_zipIdx hperm hi
    have hid : q.1.id = i.id := (congrArg (fun u : TaggedServiceInput => u.id) hsame :)
    have hbindings : q.1.bindings = i.bindings :=
      (congrArg (fun u : TaggedServiceInput => u.bindings) hsame :)
    rw [← hid, (hprogress.entries q hq).mem_iff]
    have hrow : b.intoBinding q.1.id networkId ctx.now ∈ q.1.rows networkId ctx.now :=
      mem_map_of_mem (hbindings ▸ hb)
    exact mem_map_of_mem (f := ServiceStore.entry) (mem_assignIds_of_mem hrow hnil)

end Run
def EditStore.NoNil (hostId : Uuid) (s : EditStore) : Prop :=
  ∀ t ∈ s.children.services, t.base.hostId = hostId → t.id ≠ Uuid.nil

section NoNil
variable {ctx : EditContext} {hostId networkId : Uuid} {existing : List TrackedService}
  {s : EditStore} {p : TaggedServiceInput × ℕ}
variable {w : ServiceWrite}

theorem id_ne_nil_of_check (hdraw : ctx.draw (.child .service p.2) ≠ Uuid.nil)
    (hexisting : ∀ t ∈ existing, t.id ≠ Uuid.nil) (hs : s.NoNil hostId)
    (h : s.children.check ctx.defs (serviceRequest ctx hostId networkId existing p) = .ok w) :
    w.mode ≠ .delete ∧ w.service.id ≠ Uuid.nil := by
  unfold serviceRequest at h
  dsimp only at h
  cases hfind : existing.find? (·.id = p.1.id) with
  | some stored =>
    rw [hfind] at h
    obtain ⟨-, rfl⟩ := check_update h
    have hid : stored.id = p.1.id := by simpa using find?_some hfind
    refine ⟨nofun, ?_⟩
    show p.1.id ≠ Uuid.nil
    rw [← hid]
    exact hexisting stored (mem_of_find?_eq_some hfind)
  | none =>
    rw [hfind] at h
    rcases checkCreate_cases h with ⟨target, htarget, rfl⟩ | ⟨-, -, rfl⟩
    · obtain ⟨r, hr, -, hhost, rfl⟩ := upsertTarget_eq_some htarget
      refine ⟨nofun, hs r hr (hhost.trans ?_)⟩
      unfold submittedService
      dsimp only
      split_ifs <;> rfl
    · refine ⟨nofun, ?_⟩
      show (submittedService _ _ _).id ≠ Uuid.nil
      unfold submittedService
      dsimp only
      split_ifs with hnil
      · exact hdraw
      · exact hnil

theorem noNil_write (draws : ℕ → Uuid) (hdelete : w.mode ≠ .delete)
    (hid : w.service.id ≠ Uuid.nil) (hs : s.NoNil hostId) :
    ∀ t ∈ (s.children.write draws w).1.services, t.base.hostId = hostId → t.id ≠ Uuid.nil := by
  have hw : ServiceStore.Written s.children draws w (s.children.write draws w) :=
    written_write w
  intro t ht hhost
  by_cases hown : t.id = w.service.id
  · rw [hown]
    exact hid
  · exact hs t ((release_of_ne hdelete t).mp ((hw.otherServices t hown).mp ht)) hhost

theorem noNil_putService (hdraw : ctx.draw (.child .service p.2) ≠ Uuid.nil)
    (hexisting : ∀ t ∈ existing, t.id ≠ Uuid.nil) (hs : s.NoNil hostId) :
    (s.putService ctx hostId networkId existing p).1.NoNil hostId := by
  unfold putService
  cases hcheck : s.children.check ctx.defs (serviceRequest ctx hostId networkId existing p) with
  | error e => exact hs
  | ok w =>
    obtain ⟨hdelete, hid⟩ := id_ne_nil_of_check hdraw hexisting hs hcheck
    have hwrite := noNil_write (fun k => ctx.draw (.binding p.2 k)) hdelete hid hs
    dsimp only
    by_cases hstored : s.children.ownerStored w.service = true
    · rw [if_pos hstored]
      cases hresult : s.children.write (fun k => ctx.draw (.binding p.2 k)) w with
      | mk children ok =>
        rw [hresult] at hwrite
        cases ok with
        | false => exact hwrite
        | true =>
          dsimp only
          split_ifs
          · exact hwrite
          · unfold NoNil
            rw [children_setTags]
            exact hwrite
    · rw [if_neg hstored]
      exact hs

theorem noNil_syncServices {inputs : List TaggedServiceInput}
    (hdraws : ∀ n < inputs.length, ctx.draw (.child .service n) ≠ Uuid.nil)
    (hexisting : ∀ t ∈ s.children.servicesOf hostId, t.id ≠ Uuid.nil) :
    (s.syncServices ctx hostId networkId inputs).1.NoNil hostId := by
  have hs : s.NoNil hostId := fun t ht hhost =>
    hexisting (s.children.hydrate t)
      (mem_map_of_mem (mem_filter.mpr ⟨ht, decide_eq_true hhost⟩))
  unfold syncServices
  dsimp only
  cases horder : orderServices (s.children.servicesOf hostId) inputs with
  | error e => exact hs
  | ok ordered =>
    have hlength := congrArg List.length (map_unplaced_orderServices horder)
    rw [length_map, length_map, (losingFirst_perm _ inputs).length_eq] at hlength
    refine invariant_of_each (fun p hp s' hs' => ?_) ?_
    · have hnumber := snd_lt_of_mem_zipIdx hp
      exact noNil_putService (hdraws p.2 (by omega)) hexisting hs'
    · -- what the deletion leaves was there before
      rintro t ht hhost
      obtain ⟨t₀, ht₀, rfl⟩ := mem_map.mp ht
      exact hs t₀ (Table.mem_delete.mp ht₀).1 hhost

end NoNil

section Sent
variable {ctx : EditContext} {hostId networkId : Uuid} {s : EditStore}
  {inputs : List TaggedServiceInput} {result : EditStore × Option HostEditError}

theorem nodup_ids_of_rearranged (h : Rearranged hostId inputs result) :
    (inputs.map (·.id)).Nodup := by
  refine h.services.nodup_iff.mp ?_
  unfold servicesOf
  rw [map_map]
  exact (filter_sublist.map _).nodup result.1.children.services.nodup

theorem nodup_givenIds_of_rearranged (h : Rearranged hostId inputs result)
    (hcompatible : ∀ i ∈ inputs, (i.bindings.map (·.bindingType)).Pairwise Compatible) :
    (inputs.flatMap (·.givenIds)).Nodup := by
  have hstored : ∀ i ∈ inputs, ∀ b ∈ i.bindings, b.id ≠ Uuid.nil →
      ∃ r ∈ result.1.children.bindings, r.id = b.id ∧ r.base.serviceId = i.id ∧
        r.base.bindingType = b.bindingType := by
    intro i hi b hb hnil
    obtain ⟨r, hr, hentry⟩ := mem_map.mp (h.given i hi b hb hnil)
    obtain ⟨hr, hservice⟩ := mem_bindingsOf.mp hr
    exact ⟨r, hr, congrArg Prod.fst hentry, hservice, congrArg Prod.snd hentry⟩
  refine nodup_flatMap.mpr ⟨fun i hi => ?_, ?_⟩
  · unfold TaggedServiceInput.givenIds
    refine pairwise_map.mpr (pairwise_filter.mpr ?_)
    refine (pairwise_map.mp (hcompatible i hi)).imp_of_mem ?_
    intro b c hb hc hbc hbnil hcnil hsame
    obtain ⟨r, hr, hrid, -, hrtype⟩ := hstored i hi b hb (of_decide_eq_true hbnil)
    obtain ⟨r', hr', hrid', -, hrtype'⟩ := hstored i hi c hc (of_decide_eq_true hcnil)
    rw [Table.eq_of_key hr hr' (hrid.trans (hsame.trans hrid'.symm)), hrtype'] at hrtype
    exact hbc.ne hrtype.symm
  · refine (pairwise_map.mp (nodup_ids_of_rearranged h)).imp_of_mem ?_
    intro i j hi hj hne id hid hid'
    obtain ⟨b, hb, rfl⟩ := mem_map.mp hid
    obtain ⟨hb, hbnil⟩ := mem_filter.mp hb
    obtain ⟨c, hc, hsame⟩ := mem_map.mp hid'
    obtain ⟨hc, hcnil⟩ := mem_filter.mp hc
    obtain ⟨r, hr, hrid, hservice, -⟩ := hstored i hi b hb (of_decide_eq_true hbnil)
    obtain ⟨r', hr', hrid', hservice', -⟩ := hstored j hj c hc (of_decide_eq_true hcnil)
    rw [Table.eq_of_key hr hr' (hrid.trans (hsame.symm.trans hrid'.symm)), hservice'] at hservice
    exact hne hservice.symm

end Sent
namespace EditStore
variable {ctx : EditContext} {hostId networkId : Uuid} {s : EditStore}
  {inputs : List TaggedServiceInput}

/-- A rearrangement that is free of conflicts goes through if each service, in the order in which
they are written, finds what it needs, its ports free among others; and in no other case. -/
theorem syncServices_rearranged_iff (hdraws : DrawsFree ctx s inputs)
    (hfree : FreeOfConflicts s hostId inputs) :
    Rearranged hostId inputs (s.syncServices ctx hostId networkId inputs) ↔
      TransferFits ctx s hostId inputs := by
  have hunused : ∀ k, k.UsedFor inputs → ∀ i ∈ inputs, ctx.draw k ∉ i.givenIds := by
    intro k hk i hi hdrawn
    obtain ⟨b, hb, hid⟩ := mem_map.mp hdrawn
    exact hdraws.inputs k hk i hi b (mem_filter.mp hb).1 hid
  constructor
  · intro h
    have hnamed : ∀ i ∈ inputs, (∀ t ∈ s.children.servicesOf hostId, t.id ≠ i.id) →
        i.id ≠ Uuid.nil := by
      intro i hi hnew hnil
      rw [hnil] at hnew
      obtain ⟨t, ht, hid⟩ := mem_map.mp (h.services.mem_iff.mpr (mem_map_of_mem hi))
      obtain ⟨r, hr, rfl⟩ := mem_map.mp ht
      obtain ⟨hr, hhost⟩ := mem_filter.mp hr
      have hnoNil := @noNil_syncServices ctx hostId networkId s inputs
        (fun n hn => hdraws.ne_nil (.child .service n) ⟨rfl, hn⟩) hnew
      exact hnoNil r hr (of_decide_eq_true hhost) (hid.trans hnil)
    have hids := nodup_ids_of_rearranged h
    have hgiven := nodup_givenIds_of_rearranged h hfree.compatible
    have hbatch : Batch ctx (s.children.servicesOf hostId) inputs inputs :=
      ⟨.refl _, hids, hnamed, hgiven, hfree.compatible, hfree.exclusive, hunused⟩
    obtain ⟨hpositions, hsteps⟩ := (syncServices_ok_iff hdraws hbatch).1.mp h.ok
    exact ⟨hpositions, hids, hnamed, hgiven, hsteps⟩
  · intro hfits
    have hbatch : Batch ctx (s.children.servicesOf hostId) inputs inputs :=
      ⟨.refl _, hfits.ids, hfits.named, hfits.givenIds, hfree.compatible, hfree.exclusive, hunused⟩
    obtain ⟨hiff, hkeep⟩ := @syncServices_ok_iff ctx hostId networkId s inputs hdraws hbatch
    have hok := hiff.mpr ⟨hfits.positions, hfits.steps⟩
    obtain ⟨ordered, hperm, hprogress⟩ := hkeep hok
    exact rearranged_of_progress hfits.ids hperm hprogress hok

section Office

def officePort (id : Uuid) (number : BitVec 16) : Port :=
  ⟨id, 0, 0, none, none, { hostId := 10, networkId := 1, number, protocol := .tcp }⟩

def officeService (id : Uuid) (name : String) : TrackedService :=
  ⟨id, 0, 0, none, none, {
    hostId := 10, networkId := 1, serviceDefinition := "Web", name, bindings := []
    virtualizationServiceId := none, position := 0 }⟩

def officeBinding (id serviceId portId : Uuid) : Binding :=
  ⟨id, 0, 0, none, none, ⟨serviceId, 1, .port portId none⟩⟩

def officeStore : EditStore where
  hosts := .empty
  entityTags := .empty
  hostCredentials := .empty
  children := {
    services := ⟨[officeService 21 "wiki", officeService 22 "forum"], by decide⟩
    bindings := ⟨[officeBinding 41 21 31, officeBinding 42 22 32], by decide⟩
    ports := ⟨[officePort 31 80, officePort 32 8080], by decide⟩
    ipAddresses := .empty }

def officeContext : EditContext where
  now := 5
  organizationId := none
  defs := ⟨fun _ => false, fun _ => false, fun _ => false⟩
  tags := fun _ => none
  subnets := []
  draw
    | .child _ n => BitVec.ofNat 128 (100 + n)
    | .binding n k => BitVec.ofNat 128 (200 + 10 * n + k)
    | .tag _ _ => 300

def officeInput (id : Uuid) (name : String) (bindings : List BindingInput) : TaggedServiceInput :=
  ⟨⟨id, "Web", name, bindings, none, none, none⟩, []⟩

def movedPort : List TaggedServiceInput :=
  [officeInput 22 "forum" [⟨42, .port 32 none⟩, ⟨Uuid.nil, .port 31 none⟩], officeInput 21 "wiki" []]

def swappedPorts : List TaggedServiceInput :=
  [officeInput 21 "wiki" [⟨Uuid.nil, .port 32 none⟩],
    officeInput 22 "forum" [⟨Uuid.nil, .port 31 none⟩]]

def officeKeys : List DrawKey :=
  [.child .service 0, .child .service 1, .binding 0 0, .binding 0 1, .binding 1 0, .binding 1 1]

theorem mem_officeKeys {k : DrawKey} (hlength : inputs.length = 2)
    (hbindings : ∀ i ∈ inputs, i.bindings.length ≤ 2) (htags : ∀ i ∈ inputs, i.tags = [])
    (hk : k.UsedFor inputs) : k ∈ officeKeys := by
  cases k with
  | child kind n =>
    obtain ⟨rfl, hn⟩ := hk
    rw [hlength] at hn
    obtain rfl | rfl : n = 0 ∨ n = 1 := by omega
    all_goals decide
  | binding n k =>
    obtain ⟨hn, i, hi, hlt⟩ := hk
    have hk := hlt.trans_le (hbindings i hi)
    rw [hlength] at hn
    obtain rfl | rfl : n = 0 ∨ n = 1 := by omega
    all_goals obtain rfl | rfl : k = 0 ∨ k = 1 := by omega
    all_goals decide
  | tag n tagId =>
    cases n with
    | none => exact hk.elim
    | some n =>
      obtain ⟨-, i, hi, htag⟩ := hk
      rw [htags i hi] at htag
      exact absurd htag not_mem_nil

theorem drawsFree_office (hlength : inputs.length = 2)
    (hbindings : ∀ i ∈ inputs, i.bindings.length ≤ 2) (htags : ∀ i ∈ inputs, i.tags = [])
    (hids : ∀ i ∈ inputs, ∀ b ∈ i.bindings, b.id ∈ [0, 42]) :
    DrawsFree officeContext officeStore inputs := by
  have hkeys : ∀ k : DrawKey, k.UsedFor inputs → k ∈ officeKeys :=
    fun k => mem_officeKeys hlength hbindings htags
  refine ⟨fun k hk l hl => ?_, fun k hk => ?_, fun k hk r hr => ?_,
    fun _ _ _ hr => absurd hr not_mem_nil, fun k hk i hi b hb => ?_⟩
  · exact (by decide +kernel : ∀ k ∈ officeKeys, ∀ l ∈ officeKeys,
      officeContext.draw k = officeContext.draw l → k = l) k (hkeys k hk) l (hkeys l hl)
  · exact (by decide +kernel : ∀ k ∈ officeKeys, officeContext.draw k ≠ Uuid.nil) k (hkeys k hk)
  · exact (by decide +kernel : ∀ k ∈ officeKeys, ∀ r ∈ officeStore.children.bindings.rows,
      r.id ≠ officeContext.draw k) k (hkeys k hk) r hr
  · exact (by decide +kernel : ∀ k ∈ officeKeys, ∀ id ∈ [(0 : Uuid), 42], id ≠ officeContext.draw k) k
      (hkeys k hk) _ (hids i hi b hb)

theorem stored_office : ∀ t ∈ officeStore.children.services, ∀ t' ∈ officeStore.children.services,
    t.isLive = true → t'.isLive = true → t.base.hostId = 10 → t'.base.hostId = 10 → t.id ≠ t'.id →
      ∀ b ∈ officeStore.children.bindingsOf t.id, ∀ c ∈ officeStore.children.bindingsOf t'.id,
        b.base.bindingType.overlaps c.base.bindingType = false := by
  have hrows : ∀ t ∈ officeStore.children.services.rows, ∀ t' ∈ officeStore.children.services.rows,
      t.id ≠ t'.id → ∀ b ∈ officeStore.children.bindingsOf t.id,
        ∀ c ∈ officeStore.children.bindingsOf t'.id,
          b.base.bindingType.overlaps c.base.bindingType = false := by decide
  exact fun t ht t' ht' _ _ _ _ => hrows t ht t' ht'

theorem conflictFree_movedPort : FreeOfConflicts officeStore 10 movedPort :=
  ⟨stored_office, by decide, by decide, by decide⟩

theorem conflictFree_swappedPorts : FreeOfConflicts officeStore 10 swappedPorts :=
  ⟨stored_office, by decide, by decide, by decide⟩

theorem transferFits_movedPort : TransferFits officeContext officeStore 10 movedPort := by
  have hrows : ∀ t ∈ officeStore.children.services.rows, t.id = 21 ∨ t.id = 22 := by decide
  have hhost : ∀ t ∈ officeStore.children.services.rows, t.base.hostId = 10 := by decide
  have hgiven : ∀ id ∈ [(42 : Uuid)], ∀ r ∈ officeStore.children.bindings.rows, r.id = id →
      r.base.serviceId = 22 := by decide
  have horder : losingFirst (officeStore.children.servicesOf 10) movedPort =
      [officeInput 21 "wiki" [],
        officeInput 22 "forum" [⟨42, .port 32 none⟩, ⟨Uuid.nil, .port 31 none⟩]] := by decide
  refine ⟨.inl (by decide), by decide, by decide, by decide, ?_⟩
  rw [horder, forall_split_cons, forall_split_cons]
  refine ⟨?_, ?_, fun before b after h => ?_⟩
  · exact ⟨by decide, fun _ _ _ _ _ _ _ _ hb => absurd hb not_mem_nil, by decide,
      fun t ht _ => hhost t ht, fun _ hid => absurd hid not_mem_nil, nofun⟩
  · refine ⟨by decide, fun t ht _ _ hne _ hdone => ?_, by decide, fun t ht _ => hhost t ht,
      fun id hid r hr hrid => .inl (hgiven id hid r hr hrid), nofun⟩
    -- the wiki is written, and there is no third service
    exact absurd ((hrows t ht).resolve_right hne) fun h => hdone (mem_singleton.mpr h)
  · exact absurd h.symm (append_ne_nil_of_right_ne_nil before (cons_ne_nil b after))

/-- A port moves on from a service that is written before the one that gets it. -/
theorem syncServices_rearranged_movedPort :
    Rearranged 10 movedPort (officeStore.syncServices officeContext 10 1 movedPort) :=
  (syncServices_rearranged_iff
    (drawsFree_office rfl (by decide) (by decide) (by decide)) conflictFree_movedPort).mpr
      transferFits_movedPort

/-- Of two services that exchange their ports, the first asks for a port that the second has. -/
theorem not_syncServices_rearranged : ¬∀ (ctx : EditContext) (s : EditStore) (hostId networkId : Uuid)
    (inputs : List TaggedServiceInput), DrawsFree ctx s inputs → FreeOfConflicts s hostId inputs →
      Rearranged hostId inputs (s.syncServices ctx hostId networkId inputs) := by
  intro h
  have hok := (h officeContext officeStore 10 1 swappedPorts
    (drawsFree_office rfl (by decide) (by decide) (by decide)) conflictFree_swappedPorts).ok
  exact absurd hok (by decide)

end Office

end EditStore
end Scanopy
