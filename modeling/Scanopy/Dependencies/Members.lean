import Mathlib.Data.Prod.Lex
import Scanopy.Graph.Types
import Scanopy.Lib.Once
import Scanopy.Lib.UniqueIndex
import Scanopy.Snapshots.Clone

/-! The members of the dependencies. One table has the services and the bindings of all of them, in
rows with a position; whether a dependency has services or bindings stands in its own row. -/

namespace Scanopy

open List Option

open Graph (DependencyMembers)

namespace Graph.DependencyMembers

def SameKind : DependencyMembers → DependencyMembers → Prop
  | services _, services _ => True
  | bindings _, bindings _ => True
  | _, _ => False

def kept : DependencyMembers → DependencyMembers
  | services serviceIds => services serviceIds.eraseDups
  | bindings bindingIds => bindings bindingIds

def IsEmpty : DependencyMembers → Prop
  | services serviceIds => serviceIds = []
  | bindings bindingIds => bindingIds = []

end Graph.DependencyMembers

abbrev MemberRow := StoredRow DependencyMemberRecordBase

abbrev MemberTable := RowTable DependencyMemberRecordBase

/-- `idx_dependency_members_unique_live`. -/
def liveMembers : UniqueIndex MemberRow (Uuid × Uuid) :=
  ⟨fun r => r.isLive, fun r => (r.base.dependencyId, r.base.serviceId)⟩

/-- A call of `save_for_dependency`, with what it reads of other tables. -/
structure MemberSave where
  dependencyId : Uuid
  members : DependencyMembers
  /-- The service of a binding that is stored. -/
  serviceOf : Uuid → Option Uuid
  /-- Whether the foreign keys let a row in. -/
  admits : DependencyMemberRecordBase → Bool
  newId : ℕ → Uuid
  now : Timestamp

namespace MemberSave
variable (save : MemberSave)

def slots : List (Option Uuid × Option Uuid) :=
  match save.members with
  | .services serviceIds => serviceIds.eraseDups.map fun serviceId => (some serviceId, none)
  | .bindings bindingIds =>
    bindingIds.map fun bindingId => (save.serviceOf bindingId, some bindingId)

/-- `position as i32`; no list is that long. -/
def record (serviceId : Uuid) (bindingId : Option Uuid) (position : ℕ) : MemberRow :=
  ⟨⟨save.newId position, save.now, save.now, none, none,
    ⟨save.dependencyId, serviceId, bindingId, position⟩⟩, none⟩

def create (t : MemberTable) (r : MemberRow) : Option MemberTable :=
  if save.admits r.base then liveMembers.insert t r else none

/-- `none` if a step fails and the transaction rolls back. -/
def apply (t : MemberTable) : Option MemberTable :=
  save.slots.zipIdx.foldlM (fun t slot => do
      -- a binding that is not found ends the loop
      let serviceId ← slot.1.1
      save.create t (save.record serviceId slot.1.2 slot.2))
    (t.delete fun r => r.base.dependencyId = save.dependencyId)

def records : List MemberRow :=
  save.slots.zipIdx.filterMap fun slot => slot.1.1.map fun serviceId =>
    save.record serviceId slot.1.2 slot.2

def again (newId : ℕ → Uuid) (now : Timestamp) : MemberSave :=
  { save with members := save.members.kept, newId, now }

end MemberSave

namespace MemberTable
variable (t : MemberTable)

def place (r : MemberRow) : ℕ ×ₗ ℤ := toLex (r.base.dependencyId.toNat, r.base.position)

def orderedRecords (dependencyIds : List Uuid) : List MemberRow :=
  (t.rows.filter fun r => r.base.dependencyId ∈ dependencyIds).insertionSort fun a b =>
    place a ≤ place b

/-- Members of the kind of `variant`, out of their rows. -/
def fill (records : List MemberRow) : DependencyMembers → DependencyMembers
  | .services _ => .services (records.map (·.base.serviceId))
  | .bindings _ => .bindings (records.filterMap (·.base.bindingId))

def hydrateMembers (dependencyId : Uuid) (members : DependencyMembers) : DependencyMembers :=
  fill (t.orderedRecords [dependencyId]) members

def recordsByDep (dependencyIds : List Uuid) : HashMap Uuid (List MemberRow) :=
  (t.orderedRecords dependencyIds).foldl
    (fun m r => m.alter r.base.dependencyId [] (· ++ [r])) HashMap.empty

/-- `order` is the order in which the loop comes by the dependencies with rows. -/
def hydrateMembersBatch (order : List Uuid) (dependencies : List (Uuid × DependencyMembers)) :
    HashMap Uuid DependencyMembers :=
  if dependencies.isEmpty then HashMap.empty
  else
    let variantMap := dependencies.foldl (fun m p => m.insert p.1 p.2) HashMap.empty
    ((t.recordsByDep (dependencies.map Prod.fst)).iterate order).foldl (fun result e =>
      result.insert e.1 (fill e.2 ((variantMap.get e.1).getD (.services [])))) HashMap.empty

/-- The columns of a row but its id and the times at which it was written. -/
def content (r : MemberRow) :
    DependencyMemberRecordBase × Option Timestamp × Option Uuid × Option Uuid :=
  (r.base, r.validTo, r.lineageId, r.snapshotId)

structure DrawsNew (newId : ℕ → Uuid) : Prop where
  injective : Function.Injective newId
  free : ∀ n, ∀ r ∈ t, r.id ≠ newId n

/-- The table gives back what was saved last for the dependency. -/
structure KeepsMembers (save : MemberSave) : Prop where
  single : ∀ variant, variant.SameKind save.members →
    t.hydrateMembers save.dependencyId variant = save.members.kept
  again : ∀ newId now, t.DrawsNew newId → ∃ t', (save.again newId now).apply t = some t' ∧
    (t'.rows.map content).Perm (t.rows.map content)
  batch : ∀ (variant : Uuid → DependencyMembers) (dependencyIds order : List Uuid),
    (variant save.dependencyId).SameKind save.members → save.dependencyId ∈ dependencyIds →
    (t.recordsByDep dependencyIds).Enumerates order →
    ¬(t.hydrateMembers save.dependencyId (variant save.dependencyId)).IsEmpty →
      (t.hydrateMembersBatch order (dependencyIds.map fun id => (id, variant id))).get
          save.dependencyId =
        some (t.hydrateMembers save.dependencyId (variant save.dependencyId))

end MemberTable

def lastSave (saves : List MemberSave) (dependencyId : Uuid) : Option MemberSave :=
  (saves.filter (·.dependencyId = dependencyId)).getLast?

namespace MemberSave
variable {save : MemberSave} {t t' : MemberTable}
variable {r : MemberRow} {now : Timestamp} {newId : ℕ → Uuid}

theorem dependencyId_of_mem_records (hr : r ∈ save.records) :
    r.base.dependencyId = save.dependencyId := by
  obtain ⟨slot, -, hslot⟩ := mem_filterMap.mp hr
  obtain ⟨serviceId, -, rfl⟩ := map_eq_some_iff.mp hslot
  rfl

theorem pairwise_records : save.records.Pairwise fun a b => a.base.position < b.base.position := by
  have hindices : save.slots.zipIdx.Pairwise fun a b => a.2 < b.2 := by
    rw [← pairwise_map, zipIdx_map_snd]
    exact pairwise_lt_range'
  refine pairwise_filterMap.mpr (hindices.imp fun {a b} hlt r hr r' hr' => ?_)
  obtain ⟨-, -, rfl⟩ := map_eq_some_iff.mp hr
  obtain ⟨-, -, rfl⟩ := map_eq_some_iff.mp hr'
  exact Int.ofNat_lt.mpr hlt

theorem id_of_mem_records (hr : r ∈ save.records) :
    r.id = save.newId r.base.position.toNat ∧ 0 ≤ r.base.position := by
  obtain ⟨slot, -, hslot⟩ := mem_filterMap.mp hr
  obtain ⟨serviceId, -, rfl⟩ := map_eq_some_iff.mp hslot
  exact ⟨rfl, Int.natCast_nonneg _⟩

theorem nodup_ids (h : Function.Injective save.newId) : (save.records.map (·.id)).Nodup := by
  refine pairwise_map.mpr (pairwise_records.imp_of_mem fun {a b} ha hb hlt hsame => ?_)
  obtain ⟨hida, hnonneg⟩ := id_of_mem_records ha
  obtain ⟨hidb, -⟩ := id_of_mem_records hb
  have hpos := h (hida.symm.trans (hsame.trans hidb))
  omega

theorem slots_again :
    (save.again newId now).slots = save.slots := by
  unfold slots again DependencyMembers.kept
  cases save.members with
  | services serviceIds =>
    show (serviceIds.eraseDups.eraseDups.map _) = _
    rw [Once.eraseDups_of_nodup (Once.nodup_eraseDups serviceIds)]
  | bindings bindingIds => rfl

theorem records_again :
    (save.again newId now).records = save.records.map fun r =>
      { r with id := newId r.base.position.toNat, createdAt := now, validFrom := now } := by
  rw [records, records, slots_again, map_filterMap]
  refine filterMap_congr fun slot _ => ?_
  rw [Option.map_map]
  rfl

theorem apply_eq_some : save.apply t = some t' ↔ (∀ slot ∈ save.slots, slot.1.isSome = true) ∧
    (∀ r ∈ save.records, save.admits r.base = true) ∧ save.records.foldlM liveMembers.insert
        (t.delete fun r => r.base.dependencyId = save.dependencyId) = some t' := by
  have hslots : (∀ slot ∈ save.slots, slot.1.isSome = true) ↔
      ∀ slot ∈ save.slots.zipIdx, slot.1.1.isSome = true := by
    conv_lhs => rw [← zipIdx_map_fst 0 save.slots]
    exact List.forall_mem_map
  rw [hslots, apply, records]
  generalize save.slots.zipIdx = slots
  generalize t.delete _ = u
  induction slots generalizing u with
  | nil => simp
  | cons slot slots ih =>
    rw [foldlM_cons, forall_mem_cons]
    cases hslot : slot.1.1 with
    | none => simp
    | some serviceId =>
      have hrecord : (slot :: slots).filterMap (fun slot => slot.1.1.map fun serviceId =>
          save.record serviceId slot.1.2 slot.2) = save.record serviceId slot.1.2 slot.2 ::
            slots.filterMap fun slot => slot.1.1.map fun serviceId =>
              save.record serviceId slot.1.2 slot.2 :=
        filterMap_cons_some (by rw [hslot]; rfl)
      rw [hrecord, forall_mem_cons, foldlM_cons]
      show (save.create u (save.record serviceId slot.1.2 slot.2)).bind _ = some t' ↔ _
      by_cases hadmits : save.admits (save.record serviceId slot.1.2 slot.2).base = true
      · rw [create, if_pos hadmits]
        show _ ↔ _ ∧ _ ∧ (liveMembers.insert u _).bind _ = some t'
        cases liveMembers.insert u (save.record serviceId slot.1.2 slot.2) with
        | none => simp
        | some v =>
          rw [bind_some, bind_some]
          refine (ih v).trans ?_
          simp [hadmits]
      · rw [create, if_neg hadmits]
        simp [hadmits]

theorem map_records : save.records.map (fun r => (r.base.serviceId, r.base.bindingId)) =
    save.slots.filterMap fun slot => slot.1.map fun serviceId => (serviceId, slot.2) := by
  conv_rhs => rw [← zipIdx_map_fst 0 save.slots]
  rw [records, map_filterMap, filterMap_map]
  refine filterMap_congr fun slot _ => ?_
  rw [Option.map_map]
  rfl

end MemberSave

namespace MemberTable
variable {save other : MemberSave} {t t' : MemberTable}
variable {variant : DependencyMembers} {dependencyIds : List Uuid}

structure Stored (t : MemberTable) (save : MemberSave) : Prop where
  found : ∀ slot ∈ save.slots, slot.1.isSome = true
  admitted : ∀ r ∈ save.records, save.admits r.base = true
  columns : (save.records.map liveMembers.columns).Nodup
  rows : (t.rows.filter fun r => r.base.dependencyId = save.dependencyId) = save.records

theorem rows_apply (h : save.apply t = some t') :
    t'.rows = (t.rows.filter fun r => !decide (r.base.dependencyId = save.dependencyId)) ++
        save.records ∧ (save.records.map liveMembers.columns).Nodup := by
  refine UniqueIndex.insertEach_eq_some (fun r hr => ?_) (MemberSave.apply_eq_some.mp h).2.2
  obtain ⟨slot, -, hslot⟩ := mem_filterMap.mp hr
  obtain ⟨serviceId, -, rfl⟩ := map_eq_some_iff.mp hslot
  rfl

theorem filter_records (dependencyId : Uuid) :
    (save.records.filter fun r => r.base.dependencyId = dependencyId) =
      if save.dependencyId = dependencyId then save.records else [] := by
  split_ifs with hsame
  · exact filter_eq_self.mpr fun r hr => decide_eq_true
      ((MemberSave.dependencyId_of_mem_records hr).trans hsame)
  · refine filter_eq_nil_iff.mpr fun r hr => ?_
    rw [decide_eq_true_iff, MemberSave.dependencyId_of_mem_records hr]
    exact hsame

theorem stored_apply (h : save.apply t = some t') : t'.Stored save := by
  obtain ⟨hfound, hadmitted, -⟩ := MemberSave.apply_eq_some.mp h
  obtain ⟨hrows, hcolumns⟩ := rows_apply h
  refine ⟨hfound, hadmitted, hcolumns, ?_⟩
  rw [hrows, filter_append, filter_records, if_pos rfl, List.filter_filter]
  simp

theorem Stored.of_other (hstored : t.Stored save) (h : other.apply t = some t')
    (hother : other.dependencyId ≠ save.dependencyId) : t'.Stored save := by
  refine ⟨hstored.found, hstored.admitted, hstored.columns, ?_⟩
  rw [(rows_apply h).1, filter_append, filter_records, if_neg hother, append_nil,
    List.filter_filter, ← hstored.rows]
  refine filter_congr fun r _ => ?_
  by_cases hr : r.base.dependencyId = save.dependencyId
  · simp [hr, Ne.symm hother]
  · simp [hr]

theorem stored_of_run {saves : List MemberSave}
    (h : saves.foldlM (fun t save => save.apply t) t = some t') {dependencyId : Uuid}
    (hlast : lastSave saves dependencyId = some save) : t'.Stored save := by
  induction saves using List.reverseRecOn generalizing t' with
  | nil => exact absurd hlast nofun
  | append_singleton saves last ih =>
    rw [foldlM_append] at h
    obtain ⟨u, hu, h⟩ := bind_eq_some_iff.mp h
    rw [foldlM_cons] at h
    obtain ⟨v, hv, h⟩ := bind_eq_some_iff.mp h
    cases h
    rw [lastSave, filter_append] at hlast
    by_cases hd : last.dependencyId = dependencyId
    · have hsingle : [last].filter (·.dependencyId = dependencyId) = [last] := by simp [hd]
      rw [hsingle, getLast?_concat] at hlast
      cases hlast
      exact stored_apply hv
    · have hsingle : [last].filter (·.dependencyId = dependencyId) = [] := by simp [hd]
      rw [hsingle, append_nil] at hlast
      have hmem := (mem_filter.mp (mem_of_getLast? hlast)).2
      exact (ih hu hlast).of_other hv fun hsame => hd (hsame.trans (of_decide_eq_true hmem))

theorem Stored.filter_orderedRecords (h : t.Stored save)
    (hmem : save.dependencyId ∈ dependencyIds) :
    ((t.orderedRecords dependencyIds).filter fun r => r.base.dependencyId = save.dependencyId) =
      save.records := by
  have hperm : ((t.orderedRecords dependencyIds).filter fun r =>
      r.base.dependencyId = save.dependencyId).Perm save.records := by
    refine ((perm_insertionSort _ _).filter _).trans ?_
    rw [List.filter_filter, ← h.rows]
    refine Perm.of_eq (filter_congr fun r _ => ?_)
    by_cases hr : r.base.dependencyId = save.dependencyId
    · simp [hr, hmem]
    · simp [hr]
  have hinj : (save.records.map (·.base.position)).Nodup :=
    pairwise_map.mpr (MemberSave.pairwise_records.imp fun hlt => ne_of_lt hlt)
  have hplaces : save.records.Pairwise fun a b => a.base.position ≤ b.base.position :=
    MemberSave.pairwise_records.imp fun hlt => hlt.le
  refine Perm.eq_of_pairwise (fun a b ha hb hab hba => ?_) ?_ hplaces hperm
  · exact inj_on_of_nodup_map hinj (hperm.mem_iff.mp ha) hb (le_antisymm hab hba)
  · have : Std.Total fun a b : MemberRow => place a ≤ place b := ⟨fun a b => le_total _ _⟩
    have : IsTrans MemberRow fun a b => place a ≤ place b := ⟨fun _ _ _ hab hbc => hab.trans hbc⟩
    have hsorted := (pairwise_insertionSort (fun a b : MemberRow => place a ≤ place b)
      (t.rows.filter fun r => r.base.dependencyId ∈ dependencyIds)).filter
        fun r => r.base.dependencyId = save.dependencyId
    refine hsorted.imp_of_mem fun {a b} ha hb hle => ?_
    have ha := of_decide_eq_true (mem_filter.mp ha).2
    have hb := of_decide_eq_true (mem_filter.mp hb).2
    rcases Prod.Lex.toLex_le_toLex.mp hle with hlt | ⟨-, hle⟩
    · rw [ha, hb] at hlt
      exact absurd hlt (lt_irrefl _)
    · exact hle

theorem fill_records (hfound : ∀ slot ∈ save.slots, slot.1.isSome = true)
    (hkind : variant.SameKind save.members) :
    fill save.records variant = save.members.kept := by
  have hpairs := save.map_records
  unfold MemberSave.slots at hpairs hfound
  cases hmembers : save.members with
  | services serviceIds =>
    rw [hmembers] at hpairs hkind
    cases variant with
    | bindings => exact absurd hkind id
    | services _ =>
      rw [filterMap_map] at hpairs
      refine congrArg DependencyMembers.services ?_
      have hservices := congrArg (List.map Prod.fst) hpairs
      rw [List.map_map, map_filterMap] at hservices
      exact hservices.trans (filterMap_some ..)
  | bindings bindingIds =>
    rw [hmembers] at hpairs hkind hfound
    cases variant with
    | services => exact absurd hkind id
    | bindings _ =>
      refine congrArg DependencyMembers.bindings ?_
      have hbindings := congrArg (List.filterMap Prod.snd) hpairs
      rw [filterMap_map, filterMap_filterMap, filterMap_map] at hbindings
      refine hbindings.trans ((filterMap_congr fun bindingId hid => ?_).trans
        (filterMap_some ..))
      obtain ⟨serviceId, hservice⟩ := isSome_iff_exists.mp
        (hfound _ (List.mem_map_of_mem hid))
      have hservice : save.serviceOf bindingId = some serviceId := hservice
      simp [hservice]

theorem Stored.hydrateMembers_eq (h : t.Stored save)
    (hkind : variant.SameKind save.members) :
    t.hydrateMembers save.dependencyId variant = save.members.kept := by
  have hall : (t.orderedRecords [save.dependencyId]).filter
      (fun r => r.base.dependencyId = save.dependencyId) =
        t.orderedRecords [save.dependencyId] := by
    refine filter_eq_self.mpr fun r hr => ?_
    have hr := (mem_filter.mp ((perm_insertionSort _ _).mem_iff.mp hr)).2
    simpa using hr
  rw [hydrateMembers, ← hall, h.filter_orderedRecords (mem_singleton_self _),
    fill_records h.found hkind]

theorem Stored.again (h : t.Stored save) {newId : ℕ → Uuid} {now : Timestamp}
    (hnew : t.DrawsNew newId) : ∃ t', (save.again newId now).apply t = some t' ∧
      (t'.rows.map content).Perm (t.rows.map content) := by
  obtain ⟨t', ht'⟩ : ∃ t', (save.again newId now).records.foldlM liveMembers.insert
      (t.delete fun r => r.base.dependencyId = save.dependencyId) = some t' := by
    refine UniqueIndex.exists_insertEach (MemberSave.nodup_ids hnew.injective) ?_ ?_ ?_
    · intro r hr r' hr' hsame
      exact hnew.free _ r (Table.mem_delete.mp hr).1
        (hsame.trans (MemberSave.id_of_mem_records hr').1)
    · rw [MemberSave.records_again, List.map_map]
      exact h.columns
    · intro r hr _ r' hr' hsame
      refine absurd (Prod.mk.inj hsame).1 fun hd => ?_
      exact of_decide_eq_false (Table.mem_delete.mp hr).2
        (hd.trans ((save.again newId now).dependencyId_of_mem_records hr'))
  have hadmitted : ∀ r ∈ (save.again newId now).records, save.admits r.base = true := by
    rw [MemberSave.records_again]
    exact List.forall_mem_map.mpr h.admitted
  have hfound : ∀ slot ∈ (save.again newId now).slots, slot.1.isSome = true := by
    rw [MemberSave.slots_again]
    exact h.found
  have happly : (save.again newId now).apply t = some t' :=
    MemberSave.apply_eq_some.mpr ⟨hfound, hadmitted, ht'⟩
  refine ⟨t', happly, ?_⟩
  -- the rows of the other dependencies, and those that the save has written before
  have hcontent : (save.again newId now).records.map content = save.records.map content := by
    rw [MemberSave.records_again, List.map_map]
    rfl
  rw [(rows_apply happly).1, map_append, hcontent, ← h.rows, ← map_append]
  exact (perm_append_comm.trans (filter_append_perm _ _)).map _

theorem Stored.get_hydrateMembersBatch (h : t.Stored save) {variant : Uuid → DependencyMembers}
    {order : List Uuid} (hkind : (variant save.dependencyId).SameKind save.members)
    (hmem : save.dependencyId ∈ dependencyIds)
    (horder : (t.recordsByDep dependencyIds).Enumerates order)
    (hempty : ¬save.members.kept.IsEmpty) :
    (t.hydrateMembersBatch order (dependencyIds.map fun id => (id, variant id))).get
      save.dependencyId = some save.members.kept := by
  have hne : ¬(dependencyIds.map fun id => (id, variant id)).isEmpty = true := by
    rw [List.isEmpty_iff]
    exact ne_nil_of_mem (List.mem_map_of_mem hmem)
  have hrecords : save.records ≠ [] := by
    intro hnil
    rw [← fill_records h.found hkind, hnil] at hempty
    refine hempty ?_
    cases variant save.dependencyId <;> exact rfl
  have hvariant : ((dependencyIds.map fun id => (id, variant id)).foldl
      (fun m p => m.insert p.1 p.2) HashMap.empty).get save.dependencyId =
        some (variant save.dependencyId) := by
    rw [HashMap.get_foldl_insert Prod.fst Prod.snd, List.filter_map, HashMap.get_empty]
    cases hlast : (((dependencyIds.filter fun id => id = save.dependencyId).map
        fun id => (id, variant id))).getLast? with
    | none =>
      have hnone := map_eq_nil_iff.mp (getLast?_eq_none_iff.mp hlast)
      have hnot := filter_eq_nil_iff.mp hnone save.dependencyId hmem
      exact absurd (decide_eq_true rfl) hnot
    | some p =>
      obtain ⟨id, hid, rfl⟩ := List.mem_map.mp (mem_of_getLast? hlast)
      obtain rfl := of_decide_eq_true (mem_filter.mp hid).2
      exact congrArg (·.map Prod.snd |>.or none) hlast
  have hids : (dependencyIds.map fun id => (id, variant id)).map Prod.fst = dependencyIds := by
    rw [List.map_map]
    exact List.map_id _
  rw [hydrateMembersBatch, if_neg hne, hids]
  generalize (dependencyIds.map fun id => (id, variant id)).foldl
    (fun m p => m.insert p.1 p.2) HashMap.empty = variantMap at hvariant ⊢
  refine (horder.get_foldl_insert (fun id records =>
    fill records ((variantMap.get id).getD (.services []))) _).trans ?_
  rw [hvariant, recordsByDep,
    HashMap.get_foldl_push (fun r : MemberRow => r.base.dependencyId) fun r => r,
    h.filter_orderedRecords hmem, if_neg hrecords, List.map_id', map_some, getD_some,
    fill_records h.found hkind]

theorem Stored.keepsMembers (h : t.Stored save) : t.KeepsMembers save where
  single _ hkind := h.hydrateMembers_eq hkind
  again _ _ hnew := h.again hnew
  batch variant dependencyIds order hkind hmem horder hempty := by
    rw [h.hydrateMembers_eq hkind] at hempty ⊢
    exact h.get_hydrateMembersBatch hkind hmem horder hempty

/-- After any run of saves, the members of a dependency are those of its last save. -/
theorem keepsMembers_of_run (t t' : MemberTable) (saves : List MemberSave)
    (h : saves.foldlM (fun t save => save.apply t) t = some t') :
    ∀ dependencyId save, lastSave saves dependencyId = some save → t'.KeepsMembers save :=
  fun _ _ hlast => (stored_of_run h hlast).keepsMembers

section Mail

/-- The bindings 21 and 22 are of the services 11 and 12. -/
def mailSave (dependencyId : Uuid) (members : DependencyMembers) (first : ℕ) : MemberSave :=
  ⟨dependencyId, members, fun id => if id = 21 then some 11 else if id = 22 then some 12 else none,
    fun _ => true, fun n => BitVec.ofNat 128 (first + n), 5⟩

def mailSaves : List MemberSave :=
  [mailSave 1 (.services [11, 12, 11]) 100, mailSave 2 (.bindings [22, 21]) 200,
    mailSave 1 (.bindings [21]) 300]

theorem keepsMembers_mail : ∃ t', mailSaves.foldlM (fun t (save : MemberSave) => save.apply t)
    (⟨[], List.nodup_nil⟩ : MemberTable) = some t' ∧
      ∀ dependencyId save, lastSave mailSaves dependencyId = some save → KeepsMembers t' save := by
  obtain ⟨t', ht'⟩ := isSome_iff_exists.mp (show (mailSaves.foldlM (fun t (save : MemberSave) =>
    save.apply t) (⟨[], nodup_nil⟩ : MemberTable)).isSome = true by decide +kernel)
  exact ⟨t', ht', keepsMembers_of_run _ t' mailSaves ht'⟩

end Mail

end MemberTable
end Scanopy
