import Scanopy.Services.PortClaims

/-! When a synchronisation of bindings goes through, and what it leaves exactly. The children keep
their ids; those without one get ids that nothing else has. -/

namespace Scanopy

open List Nat

structure ServiceStore.DrawsNew (store : ServiceStore) (draws : ℕ → Uuid)
    (children : List Binding) : Prop where
  ne_nil : ∀ n < children.length, draws n ≠ Uuid.nil
  injective : Set.InjOn draws (Set.Iio children.length)
  free : ∀ n < children.length, ∀ r ∈ store.bindings, r.id ≠ draws n
  other : ∀ n < children.length, ∀ c ∈ children, c.id ≠ draws n

def givenIds (children : List Binding) : List Uuid :=
  (children.filter fun c => c.id ≠ Uuid.nil).map (·.id)

theorem mem_givenIds {children : List Binding} {id : Uuid} :
    id ∈ givenIds children ↔ ∃ c ∈ children, c.id ≠ Uuid.nil ∧ c.id = id := by
  unfold givenIds
  rw [mem_map]
  refine exists_congr fun c => ?_
  rw [mem_filter, decide_eq_true_iff, and_assoc]

section Ids
variable {draws : ℕ → Uuid} {children : List Binding} {c b : Binding} {id : Uuid}

theorem mem_assignIds (hc : c ∈ assignIds draws children) :
    (∃ n < children.length, c.id = draws n) ∨ (c ∈ children ∧ c.id ≠ Uuid.nil) := by
  induction children generalizing draws with
  | nil => exact absurd hc not_mem_nil
  | cons b bs ih =>
    rw [assignIds] at hc
    rcases mem_cons.mp hc with rfl | hc
    · split_ifs with hnil
      · exact .inl ⟨0, zero_lt_succ _, rfl⟩
      · exact .inr ⟨mem_cons_self, hnil⟩
    · rcases ih hc with ⟨n, hlt, hn⟩ | ⟨hmem, hnil⟩
      · exact .inl ⟨n + 1, succ_lt_succ hlt, hn⟩
      · exact .inr ⟨mem_cons_of_mem b hmem, hnil⟩

theorem mem_assignIds_of_mem (hb : b ∈ children) (hid : b.id ≠ Uuid.nil) :
    b ∈ assignIds draws children := by
  induction children generalizing draws with
  | nil => exact absurd hb not_mem_nil
  | cons b' bs ih =>
    rw [assignIds]
    rcases mem_cons.mp hb with rfl | hb
    · rw [if_neg hid]
      exact mem_cons_self
    · exact mem_cons_of_mem _ (ih hb)

theorem nodup_assignIds (hinjective : Set.InjOn draws (Set.Iio children.length))
    (hother : ∀ n < children.length, ∀ c ∈ children, c.id ≠ draws n) (hnodup : (givenIds children).Nodup) :
    ((assignIds draws children).map (·.id)).Nodup := by
  induction children generalizing draws with
  | nil => exact nodup_nil
  | cons b bs ih =>
    have hshift : Set.InjOn (fun n => draws (n + 1)) (Set.Iio bs.length) := fun m hm n hn h =>
      Nat.succ.inj (hinjective (succ_lt_succ hm) (succ_lt_succ hn) h)
    have hother' : ∀ n < bs.length, ∀ c ∈ bs, c.id ≠ draws (n + 1) :=
      fun n hn c hc => hother (n + 1) (succ_lt_succ hn) c (mem_cons_of_mem b hc)
    rw [assignIds, map_cons, nodup_cons]
    unfold givenIds at hnodup
    by_cases hnil : b.id = Uuid.nil
    · rw [filter_cons_of_neg (by simpa using hnil)] at hnodup
      refine ⟨?_, ih hshift hother' hnodup⟩
      rw [if_pos hnil, mem_map]
      rintro ⟨c, hc, hid⟩
      rcases mem_assignIds hc with ⟨n, hlt, hn⟩ | ⟨hmem, -⟩
      · exact absurd (hinjective (succ_lt_succ hlt) (zero_lt_succ _) (hn.symm.trans hid))
          (succ_ne_zero n)
      · exact hother 0 (zero_lt_succ _) c (mem_cons_of_mem b hmem) hid
    · rw [filter_cons_of_pos (by simpa using hnil), map_cons, nodup_cons] at hnodup
      refine ⟨?_, ih hshift hother' hnodup.2⟩
      rw [if_neg hnil, mem_map]
      rintro ⟨c, hc, hid⟩
      rcases mem_assignIds hc with ⟨n, hlt, hn⟩ | ⟨hmem, hcnil⟩
      · exact hother (n + 1) (succ_lt_succ hlt) b mem_cons_self (hid.symm.trans hn)
      · exact hnodup.1 (mem_givenIds.mpr ⟨c, hmem, hcnil, hid⟩)

theorem insertedIds_sublist (existingIds : List Uuid) (draws : ℕ → Uuid)
    (children : List Binding) :
    (insertedIds existingIds draws children).Sublist ((assignIds draws children).map (·.id)) := by
  induction children generalizing draws with
  | nil => exact Sublist.refl []
  | cons b bs ih =>
    rw [insertedIds, assignIds, map_cons]
    split_ifs
    · exact (ih _).cons_cons _
    · exact (ih _).cons _
    · exact (ih _).cons_cons _

theorem mem_insertedIds {existingIds : List Uuid}
    (h : id ∈ insertedIds existingIds draws children) :
    (∃ n < children.length, id = draws n) ∨ (id ∉ existingIds ∧ id ∈ givenIds children) := by
  induction children generalizing draws with
  | nil => exact absurd h not_mem_nil
  | cons b bs ih =>
    have hrest : id ∈ insertedIds existingIds (fun n => draws (n + 1)) bs →
        (∃ n < (b :: bs).length, id = draws n) ∨ (id ∉ existingIds ∧ id ∈ givenIds (b :: bs)) := by
      intro h
      rcases ih h with ⟨n, hlt, hn⟩ | ⟨hnew, hgiven⟩
      · exact .inl ⟨n + 1, succ_lt_succ hlt, hn⟩
      · obtain ⟨c, hc, hgiven⟩ := mem_givenIds.mp hgiven
        exact .inr ⟨hnew, mem_givenIds.mpr ⟨c, mem_cons_of_mem b hc, hgiven⟩⟩
    rw [insertedIds] at h
    split_ifs at h with hnil hold
    · rcases mem_cons.mp h with rfl | h
      · exact .inl ⟨0, zero_lt_succ _, rfl⟩
      · exact hrest h
    · exact hrest h
    · rcases mem_cons.mp h with rfl | h
      · exact .inr ⟨hold, mem_givenIds.mpr ⟨b, mem_cons_self, hnil, rfl⟩⟩
      · exact hrest h

end Ids

namespace ServiceStore
variable {store store' : ServiceStore} {serviceId : Uuid} {existing children : List Binding}
  {draws : ℕ → Uuid} {c : Binding}

theorem exists_of_saveChildren_assigned (hdraws : ∀ n < children.length, draws n ≠ Uuid.nil)
    (h : saveChildren existing draws store children = (store', true))
    (hnodup : ((assignIds draws children).map (·.id)).Nodup)
    (hc : c ∈ assignIds draws children)
    (hexisting : ∀ e ∈ existing, e.id = c.id → ∃ r ∈ store.bindings, r.id = c.id) :
    ∃ r ∈ store'.bindings, r.id = c.id ∧ r.base = c.base := by
  induction children generalizing draws store with
  | nil => exact absurd hc not_mem_nil
  | cons b bs ih =>
    rw [assignIds] at hnodup hc
    rw [map_cons, nodup_cons] at hnodup
    rw [saveChildren] at h
    cases hsave : store.saveChild existing (draws 0) b with
    | none =>
      rw [hsave] at h
      cases h
    | some next =>
      rw [hsave] at h
      rcases mem_cons.mp hc with rfl | hc
      · have hcnil : (if b.id = Uuid.nil then { b with id := draws 0 } else b).id ≠ Uuid.nil := by
          split_ifs with hnil
          · exact hdraws 0 (zero_lt_succ _)
          · exact hnil
        have hwritten : ∃ r ∈ next.bindings,
            r.id = (if b.id = Uuid.nil then { b with id := draws 0 } else b).id ∧
              r.base = (if b.id = Uuid.nil then { b with id := draws 0 } else b).base := by
          rcases saveChild_cases hsave with ⟨hnil, e, he, heb, rfl⟩ | ⟨-, bindings, hinsert, rfl⟩
          · rw [if_neg hnil] at hexisting ⊢
            obtain ⟨r, hr, hrb⟩ := hexisting e he heb
            exact ⟨{ b with createdAt := e.createdAt }, Table.mem_set_self hr hrb, rfl, rfl⟩
          · exact ⟨_, (Table.mem_insertMany hinsert).mpr (.inr (mem_singleton_self _)), rfl, rfl⟩
        obtain ⟨r, hr, hrid, hbase⟩ := hwritten
        refine ⟨r, mem_of_saveChildren h hr fun c' hc' hid' => ?_, hrid, hbase⟩
        -- a later child with this id would stand in the list twice
        have hc'nil : c'.id ≠ Uuid.nil := by
          rw [hid', hrid]
          exact hcnil
        exact hnodup.1 (mem_map.mpr ⟨c', mem_assignIds_of_mem hc' hc'nil, hid'.trans hrid⟩)
      · refine ih (fun n hn => hdraws (n + 1) (succ_lt_succ hn)) h hnodup.2 hc fun e he hec => ?_
        obtain ⟨r, hr, hrc⟩ := hexisting e he hec
        rcases saveChild_cases hsave with ⟨hnil, e', -, -, rfl⟩ | ⟨-, bindings, hinsert, rfl⟩
        · rw [if_neg hnil] at hnodup
          refine ⟨r, (Table.mem_set_of_ne fun heq => ?_).mpr hr, hrc⟩
          exact hnodup.1 (mem_map.mpr ⟨c, hc, hrc.symm.trans heq⟩)
        · exact ⟨r, (Table.mem_insertMany hinsert).mpr (.inl hr), hrc⟩

theorem exists_of_saveForParent_assigned (hdraws : store.DrawsNew draws children)
    (h : (store.saveForParent serviceId draws children).2 = true)
    (hnodup : (givenIds children).Nodup) (hc : c ∈ assignIds draws children) :
    ∃ r ∈ (store.saveForParent serviceId draws children).1.bindings, r.id = c.id ∧
      r.base = c.base := by
  refine exists_of_saveChildren_assigned hdraws.ne_nil (Prod.ext rfl h)
    (nodup_assignIds hdraws.injective hdraws.other hnodup) hc fun e he hec => ?_
  obtain ⟨he, hservice⟩ := mem_bindingsOf.mp he
  rcases mem_assignIds hc with ⟨n, hlt, hn⟩ | ⟨hmem, hnil⟩
  · exact absurd (hec.trans hn) (hdraws.free n hlt e he)
  · refine ⟨e, Table.mem_delete.mpr ⟨he, ?_⟩, hec⟩
    have hsubmitted : e.id ∈ (children.filter fun c => c.id ≠ Uuid.nil).map (·.id) :=
      mem_givenIds.mpr ⟨c, hmem, hnil, hec.symm⟩
    rw [decide_eq_false (not_not.mpr hsubmitted), Bool.and_false]

/-- A synchronisation goes through if the ids that are given are free, or those of bindings that the
service has. -/
theorem saveForParent_ok_iff (hdraws : store.DrawsNew draws children)
    (hnodup : (givenIds children).Nodup)
    (hrefs : ∀ c ∈ children, store.canReference c = true)
    (howned : ∀ c ∈ children, c.base.serviceId = serviceId) :
    (store.saveForParent serviceId draws children).2 = true ↔
      ∀ id ∈ givenIds children, ∀ r ∈ store.bindings, r.id = id → r.base.serviceId = serviceId := by
  constructor
  · intro hok id hid r hr hrid
    by_contra hother
    obtain ⟨c, hc, hnil, rfl⟩ := mem_givenIds.mp hid
    obtain ⟨r', hr', hr'id, hbase⟩ :=
      exists_of_saveForParent_assigned hdraws hok hnodup (mem_assignIds_of_mem hc hnil)
    have hsaved : Saved store serviceId (assignIds draws children)
        (store.saveForParent serviceId draws children) := saved_saveForParent howned
    have hkept := (hsaved.others r hother).mpr hr
    have hsame := Table.eq_of_key hkept hr' (hrid.trans hr'id.symm)
    rw [hsame, hbase] at hother
    exact hother (howned c hc)
  · intro hfree
    refine saveForParent_ok ⟨hrefs, ?_, fun id hid r hr hrid => ?_⟩
    · exact (nodup_assignIds hdraws.injective hdraws.other hnodup).sublist
        (insertedIds_sublist _ _ _)
    · rcases mem_insertedIds hid with ⟨n, hlt, hn⟩ | ⟨hnew, hgiven⟩
      · exact hdraws.free n hlt r hr (hrid.trans hn)
      · refine hnew (mem_map.mpr ⟨r, mem_bindingsOf.mpr ⟨hr, ?_⟩, hrid⟩)
        exact hfree id hgiven r hr hrid

theorem hasService_eq_true {id : Uuid} :
    store.hasService id = true ↔ ∃ t ∈ store.services, t.id = id := by
  unfold hasService
  rw [List.any_eq_true]
  exact exists_congr fun t => and_congr_right fun _ => decide_eq_true_iff

theorem canReference_of_belong {hostId : Uuid} {bindings : List Binding}
    (h : store.validateBindingsBelongToHost hostId bindings = none) :
    ∀ b ∈ bindings, store.canReference b = true := by
  have hport : ∀ portId ∈ store.hostPortIds hostId, store.ports.rows.any (·.id = portId) = true := by
    intro portId hmem
    obtain ⟨p, hp, rfl⟩ := mem_map.mp hmem
    exact List.any_eq_true.mpr ⟨p, (mem_filter.mp hp).1, decide_eq_true rfl⟩
  have hip : ∀ ip ∈ store.hostIpAddressIds hostId,
      store.ipAddresses.rows.any (·.id = ip) = true := by
    intro ip hmem
    obtain ⟨i, hi, rfl⟩ := mem_map.mp hmem
    exact List.any_eq_true.mpr ⟨i, (mem_filter.mp hi).1, decide_eq_true rfl⟩
  intro b hb
  have hnone := findSome?_eq_none_iff.mp h b hb
  unfold foreignReference at hnone
  unfold canReference
  cases htype : b.base.bindingType with
  | ipAddress ip =>
    rw [htype] at hnone
    dsimp only at hnone
    split_ifs at hnone with hmem
    exact hip ip hmem
  | port portId ip =>
    rw [htype] at hnone
    dsimp only at hnone
    split_ifs at hnone with hmem
    rw [Bool.and_eq_true]
    refine ⟨hport portId hmem, ?_⟩
    cases ip with
    | none => rfl
    | some ip =>
      dsimp only at hnone
      split_ifs at hnone with hmem'
      exact hip ip hmem'

def entry (b : Binding) : Uuid × BindingType := (b.id, b.base.bindingType)

theorem perm_bindingsOf_saveForParent (hdraws : store.DrawsNew draws children)
    (hnodup : (givenIds children).Nodup)
    (howned : ∀ c ∈ children, c.base.serviceId = serviceId)
    (h : (store.saveForParent serviceId draws children).2 = true) :
    (((store.saveForParent serviceId draws children).1.bindingsOf serviceId).map entry).Perm
      ((assignIds draws children).map entry) := by
  have hsaved : Saved store serviceId (assignIds draws children)
      (store.saveForParent serviceId draws children) := saved_saveForParent howned
  have hleft : (((store.saveForParent serviceId draws children).1.bindingsOf serviceId).map
      entry).Nodup := by
    refine (nodup_bindingsOf _ _).map_on fun b hb b' hb' heq => ?_
    exact Table.eq_of_key (mem_bindingsOf.mp hb).1 (mem_bindingsOf.mp hb').1
      (congrArg Prod.fst heq)
  have hright : ((assignIds draws children).map entry).Nodup := by
    refine List.Nodup.of_map Prod.fst ?_
    rw [map_map]
    exact nodup_assignIds hdraws.injective hdraws.other hnodup
  refine (perm_ext_iff_of_nodup hleft hright).mpr fun e => ?_
  rw [mem_map, mem_map]
  constructor
  · rintro ⟨b, hb, rfl⟩
    obtain ⟨hb, hservice⟩ := mem_bindingsOf.mp hb
    obtain ⟨c, hc, hid, htype⟩ := hsaved.own h b hb hservice
    exact ⟨c, hc, Prod.ext hid htype⟩
  · rintro ⟨c, hc, rfl⟩
    obtain ⟨r, hr, hid, hbase⟩ := exists_of_saveForParent_assigned hdraws h hnodup hc
    obtain ⟨b, hb, -, hbbase⟩ := exists_of_mem_assignIds hc
    refine ⟨r, mem_bindingsOf.mpr ⟨hr, ?_⟩, Prod.ext hid (by rw [entry, hbase]; rfl)⟩
    rw [hbase, ← hbbase]
    exact howned b hb

section Write
variable {w : ServiceWrite}

theorem write_cases (hmode : w.mode = .insert ∨ w.mode = .update)
    (h : (store.write draws w).2 = true) :
    ∃ services : EntityTable TrackedServiceBase, w.service ∈ services ∧
      store.write draws w = { store with services }.saveForParent w.service.id draws w.bindings ∧
      (w.mode = .insert → ∀ t ∈ store.services, t.id ≠ w.service.id) ∧
      (w.mode = .update → store.hasService w.service.id = true) := by
  unfold write at h ⊢
  rcases hmode with hmode | hmode <;> rw [hmode] at h ⊢ <;> dsimp only at h ⊢
  · cases hinsert : store.services.insertMany [w.service] with
    | none =>
      rw [hinsert] at h
      cases h
    | some services =>
      refine ⟨services, ?_, rfl, fun _ t ht => ?_, nofun⟩
      · exact (Table.mem_insertMany hinsert).mpr (.inr (mem_singleton_self _))
      · exact (Table.insertMany_eq_some hinsert).2.2 t ht _ (mem_singleton_self _)
  · split_ifs at h ⊢ with hstored
    obtain ⟨t, ht, htid⟩ := List.any_eq_true.mp hstored
    exact ⟨_, Table.mem_set_self ht (of_decide_eq_true htid), rfl, nofun, fun _ => hstored⟩

theorem write_ok_iff (hmode : w.mode = .insert ∨ w.mode = .update)
    (hdraws : store.DrawsNew draws w.bindings) (hnodup : (givenIds w.bindings).Nodup)
    (hrefs : ∀ c ∈ w.bindings, store.canReference c = true) :
    (store.write draws w).2 = true ↔
      (w.mode = .insert → ∀ t ∈ store.services, t.id ≠ w.service.id) ∧
      (w.mode = .update → store.hasService w.service.id = true) ∧
      ∀ id ∈ givenIds w.bindings, ∀ r ∈ store.bindings, r.id = id →
        r.base.serviceId = w.service.id := by
  have hsave : ∀ services : EntityTable TrackedServiceBase,
      ({ store with services }.saveForParent w.service.id draws w.bindings).2 = true ↔
        ∀ id ∈ givenIds w.bindings, ∀ r ∈ store.bindings, r.id = id →
          r.base.serviceId = w.service.id := fun services =>
    saveForParent_ok_iff ⟨hdraws.ne_nil, hdraws.injective, hdraws.free, hdraws.other⟩ hnodup hrefs w.owned
  constructor
  · intro h
    obtain ⟨services, -, hwrite, hinsert, hupdate⟩ := write_cases hmode h
    rw [hwrite] at h
    exact ⟨hinsert, hupdate, (hsave services).mp h⟩
  · rintro ⟨hinsert, hupdate, hfree⟩
    unfold write
    rcases hmode with hmode | hmode <;> rw [hmode] <;> dsimp only
    · obtain ⟨services, hservices⟩ : ∃ services, store.services.insertMany [w.service] = some services := by
        refine Table.exists_insertMany (nodup_singleton _) fun t ht t' ht' => ?_
        rw [mem_singleton.mp ht']
        exact hinsert hmode t ht
      rw [hservices]
      exact (hsave services).mpr hfree
    · rw [if_pos (hupdate hmode)]
      exact (hsave _).mpr hfree

theorem perm_bindingsOf_write (hmode : w.mode = .insert ∨ w.mode = .update)
    (hdraws : store.DrawsNew draws w.bindings) (hnodup : (givenIds w.bindings).Nodup)
    (h : (store.write draws w).2 = true) :
    (((store.write draws w).1.bindingsOf w.service.id).map entry).Perm
      ((assignIds draws w.bindings).map entry) := by
  obtain ⟨services, -, hwrite, -⟩ := write_cases hmode h
  rw [hwrite] at h ⊢
  exact perm_bindingsOf_saveForParent
    ⟨hdraws.ne_nil, hdraws.injective, hdraws.free, hdraws.other⟩ hnodup w.owned h

theorem service_mem_write (hmode : w.mode = .insert ∨ w.mode = .update)
    (h : (store.write draws w).2 = true) : w.service ∈ (store.write draws w).1.services := by
  obtain ⟨services, hmem, hwrite, -⟩ := write_cases hmode h
  rw [hwrite, (saved_saveForParent w.owned).frame]
  exact hmem

end Write
end ServiceStore
end Scanopy
