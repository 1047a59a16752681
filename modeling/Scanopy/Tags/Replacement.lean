import Scanopy.Tags.Applications

/-! Replacing the tags of an entity. The check counts the elements of the list that is sent, the
rows are compared as sets, and what is new is inserted element by element. -/

namespace Scanopy

open List Function RowTable EntityTagTable EntityTagSystem

section Service
variable (tags : Uuid → Option Tag)

/-- The loop of `set_tags` over the tags: the application tags so far. -/
def countApplications (organizationId : Uuid) (tagIds : List Uuid) (appCount : ℕ) : Option ℕ :=
  tagIds.foldlM (fun appCount tagId => (validateTagFull tags tagId organizationId).map fun tag =>
    if tag.base.isApplication then appCount + 1 else appCount) appCount

/-- `set_tags`, with no other call in between. -/
def setTags (t : EntityTagTable) (newId : Uuid → Uuid) (now : Timestamp) (entity : TaggedEntity)
    (tagIds : List Uuid) (organizationId : Uuid) : Option EntityTagTable :=
  if tagIds.isEmpty then some t
  else (countApplications tags organizationId tagIds 0).bind fun appCount =>
    if appCount > 1 then none
    else t.set newId now entity tagIds (t.liveRows [entity.1] entity.2 none)

end Service

namespace EntityTagTable

def drops (entity : TaggedEntity) (tagIds : List Uuid) (r : StoredRow EntityTagBase) : Bool :=
  r.isLive && decide (r.base.entity = entity) && decide (r.base.tagId ∉ tagIds)

def closeRow (now : Timestamp) (r : StoredRow EntityTagBase) : StoredRow EntityTagBase :=
  ⟨{ r.toRow with validTo := some now }, r.snapshotId⟩

def added (t : EntityTagTable) (entity : TaggedEntity) (tagIds : List Uuid) : List Uuid :=
  tagIds.filter fun tagId => tagId ∉ t.getForEntity entity

def newRow (newId : Uuid → Uuid) (now : Timestamp) (entity : TaggedEntity) (tagId : Uuid) :
    StoredRow EntityTagBase :=
  ⟨EntityTag.new (newId tagId) now ⟨entity.1, entity.2, tagId⟩, none⟩

/-- What the replacement of the tags of `entity` by `tagIds` makes of the table. -/
structure Replaced (t t' : EntityTagTable) (now : Timestamp) (entity : TaggedEntity)
    (tagIds : List Uuid) : Prop where
  live : (t'.getForEntity entity).Perm tagIds.dedup
  kept : ∀ r ∈ t, drops entity tagIds r = false → r ∈ t'
  closed : ∀ r ∈ t, drops entity tagIds r = true → closeRow now r ∈ t'

variable {t t' : EntityTagTable} {newId : Uuid → Uuid} {now : Timestamp} {entity : TaggedEntity}
  {tagIds : List Uuid}

@[simp] theorem isLive_closeRow (r : StoredRow EntityTagBase) : (closeRow now r).isLive = false := rfl

theorem getForEntity_eq (t : EntityTagTable) (entity : TaggedEntity) :
    t.getForEntity entity = (t.rows.filter fun r => r.isLive && decide (r.base.entity = entity)).map
      (·.base.tagId) := by
  rw [getForEntity, liveRows, map_map]
  refine congrArg (List.map _) (filter_congr fun r _ => ?_)
  simp [EntityTagBase.entity, Prod.ext_iff, Bool.and_assoc]

theorem mem_getForEntity {tagId : Uuid} :
    tagId ∈ t.getForEntity entity ↔
      ∃ r ∈ t, r.isLive = true ∧ r.base.entity = entity ∧ r.base.tagId = tagId := by
  rw [getForEntity_eq, mem_map]
  refine exists_congr fun r => ?_
  rw [mem_filter, Bool.and_eq_true, decide_eq_true_iff, and_assoc, and_assoc]
  rfl

theorem nodup_getForEntity (hold : liveAssignments.Holds t) (entity : TaggedEntity) :
    (t.getForEntity entity).Nodup := by
  rw [getForEntity_eq]
  refine List.Nodup.map_on (fun r hr r' hr' htag => ?_)
    ((List.Nodup.of_map _ t.nodup).filter _)
  simp only [mem_filter, Bool.and_eq_true, decide_eq_true_eq] at hr hr'
  obtain ⟨hmem, hlive, hentity⟩ := hr
  obtain ⟨hmem', hlive', hentity'⟩ := hr'
  refine hold r hmem r' hmem' hlive hlive' ?_
  have hsame := hentity.trans hentity'.symm
  simp only [EntityTagBase.entity, Prod.mk.injEq] at hsame
  show r.base = r'.base
  cases hb : r.base
  cases hb' : r'.base
  simp_all

theorem tagIds_closeRows {rows : List (StoredRow EntityTagBase)} {p : StoredRow EntityTagBase → Bool}
    (hp : ∀ r, p r = true → r.base.entity ≠ entity) :
    ((rows.map fun r => if p r then closeRow now r else r).filter
      fun r => r.isLive && decide (r.base.entity = entity)).map (·.base.tagId) =
    (rows.filter fun r => r.isLive && decide (r.base.entity = entity)).map (·.base.tagId) := by
  have hsame : ∀ r ∈ rows, ((fun r : StoredRow EntityTagBase =>
      r.isLive && decide (r.base.entity = entity)) ∘ fun r => if p r then closeRow now r else r) r =
        (r.isLive && decide (r.base.entity = entity)) := by
    intro r _
    rw [comp_apply]
    split_ifs with hpr
    · rw [isLive_closeRow, Bool.false_and, decide_eq_false (hp r hpr), Bool.and_false]
    · rfl
  rw [filter_map, filter_congr hsame, map_map]
  refine map_congr_left fun r _ => ?_
  rw [comp_apply]
  split_ifs <;> rfl

theorem rows_update_closed (t : EntityTagTable) (now : Timestamp) (entityIds : List Uuid)
    (entityType : EntityDiscriminants) :
    (t.update (closed now (t.liveRows entityIds entityType none))).rows =
      t.rows.map fun r => if r.isLive && decide (r.base.entityId ∈ entityIds) &&
        decide (r.base.entityType = entityType) then closeRow now r else r := by
  have hrows : closed now (t.liveRows entityIds entityType none) =
      (t.rows.filter fun r => r.isLive && decide (r.base.entityId ∈ entityIds) &&
        decide (r.base.entityType = entityType)).map fun r => { r.toRow with validTo := some now } := by
    rw [closed, liveRows, map_map]
    refine congrArg (List.map _) (filter_congr fun r _ => ?_)
    exact Bool.and_true _
  rw [hrows]
  exact rows_update t _ (fun r => { r.toRow with validTo := some now }) fun _ => rfl

theorem rows_update_dropped (t : EntityTagTable) (now : Timestamp) (entity : TaggedEntity)
    (tagIds : List Uuid) :
    (t.update (closed now ((t.liveRows [entity.1] entity.2 none).filter
      fun r => r.base.tagId ∉ tagIds))).rows =
      t.rows.map fun r => if drops entity tagIds r then closeRow now r else r := by
  have hrows : closed now ((t.liveRows [entity.1] entity.2 none).filter
      fun r => r.base.tagId ∉ tagIds) = (t.rows.filter (drops entity tagIds)).map
        fun r => { r.toRow with validTo := some now } := by
    rw [closed, liveRows, filter_map, map_map, filter_filter]
    refine congrArg (List.map _) (filter_congr fun r _ => ?_)
    simp [drops, EntityTagBase.entity, Prod.ext_iff, Bool.and_assoc, Bool.and_comm, and_comm]
  rw [hrows, rows_update t (drops entity tagIds)
    (fun r => { r.toRow with validTo := some now }) fun _ => rfl]
  rfl

theorem rows_set (h : t.set newId now entity tagIds (t.liveRows [entity.1] entity.2 none) = some t') :
    t'.rows = (t.rows.map fun r => if drops entity tagIds r then closeRow now r else r) ++
      (t.added entity tagIds).map (newRow newId now entity) ∧
    (t.added entity tagIds).Nodup := by
  have hinserts : ((t.added entity tagIds).map (newRow newId now entity)).foldlM
      liveAssignments.insert (t.update (closed now ((t.liveRows [entity.1] entity.2 none).filter
        fun r => r.base.tagId ∉ tagIds))) = some t' := by
    rw [foldlM_map]
    exact h
  have hcovers : ∀ r ∈ (t.added entity tagIds).map (newRow newId now entity),
      liveAssignments.covers r = true := by
    intro r hr
    obtain ⟨tagId, -, rfl⟩ := mem_map.mp hr
    rfl
  obtain ⟨hrows, hnodup⟩ := UniqueIndex.insertEach_eq_some hcovers hinserts
  rw [rows_update_dropped] at hrows
  refine ⟨hrows, List.Nodup.of_map (fun tagId => (⟨entity.1, entity.2, tagId⟩ : EntityTagBase)) ?_⟩
  rw [map_map] at hnodup
  exact hnodup

structure DrawsFresh (t : EntityTagTable) (newId : Uuid → Uuid) (tagIds : List Uuid) : Prop where
  fresh : ∀ tagId ∈ tagIds, ∀ r ∈ t, r.id ≠ newId tagId
  injOn : ∀ tagId ∈ tagIds, ∀ tagId' ∈ tagIds, newId tagId = newId tagId' → tagId = tagId'

theorem exists_set (now : Timestamp) (entity : TaggedEntity) (hids : t.DrawsFresh newId tagIds)
    (hnodup : (t.added entity tagIds).Nodup) :
    ∃ t', t.set newId now entity tagIds (t.liveRows [entity.1] entity.2 none) = some t' := by
  have hmem : ∀ tagId ∈ t.added entity tagIds, tagId ∈ tagIds := fun tagId h => (mem_filter.mp h).1
  suffices hinserts : ∃ t', ((t.added entity tagIds).map (newRow newId now entity)).foldlM
      liveAssignments.insert (t.update (closed now ((t.liveRows [entity.1] entity.2 none).filter
        fun r => r.base.tagId ∉ tagIds))) = some t' by
    obtain ⟨t', ht'⟩ := hinserts
    rw [foldlM_map] at ht'
    exact ⟨t', ht'⟩
  refine UniqueIndex.exists_insertEach ?_ ?_ ?_ ?_
  · rw [map_map]
    exact List.Nodup.map_on (fun a ha b hb => hids.injOn a (hmem a ha) b (hmem b hb)) hnodup
  · intro r hr r' hr'
    obtain ⟨tagId, htag, rfl⟩ := mem_map.mp hr'
    obtain ⟨r₀, hr₀, rfl⟩ := mem_update.mp hr
    rw [id_writeRow]
    exact hids.fresh tagId (hmem tagId htag) r₀ hr₀
  · rw [map_map]
    refine List.Nodup.map (fun a b hab => ?_) hnodup
    exact congrArg EntityTagBase.tagId hab
  · intro r hr hlive r' hr' hsame
    obtain ⟨tagId, htag, rfl⟩ := mem_map.mp hr'
    obtain ⟨hmemt, -⟩ := mem_of_mem_update (fun u hu => validTo_of_mem_closed hu) hr hlive
    have hbase : r.base = ⟨entity.1, entity.2, tagId⟩ := hsame
    refine of_decide_eq_true (mem_filter.mp htag).2 (mem_getForEntity.mpr ⟨r, hmemt, hlive, ?_⟩)
    rw [hbase]
    exact ⟨rfl, rfl⟩

theorem replaced_of_set (hold : liveAssignments.Holds t)
    (h : t.set newId now entity tagIds (t.liveRows [entity.1] entity.2 none) = some t') :
    Replaced t t' now entity tagIds := by
  obtain ⟨hrows, hnodup⟩ := rows_set h
  have hmem : ∀ r, r ∈ t' ↔ (∃ r₀ ∈ t, (if drops entity tagIds r₀ then closeRow now r₀ else r₀) = r) ∨
      ∃ tagId ∈ t.added entity tagIds, newRow newId now entity tagId = r := by
    intro r
    show r ∈ t'.rows ↔ _
    rw [hrows, mem_append, mem_map, mem_map]
    rfl
  have hlive : t'.getForEntity entity =
      ((t.getForEntity entity).filter fun tagId => tagId ∈ tagIds) ++ t.added entity tagIds := by
    rw [getForEntity_eq, getForEntity_eq, hrows, filter_append, map_append]
    congr 1
    · rw [filter_map, filter_map, filter_filter, map_map]
      have hsel : ∀ r ∈ t.rows, ((fun r : StoredRow EntityTagBase =>
          r.isLive && decide (r.base.entity = entity)) ∘
            fun r => if drops entity tagIds r then closeRow now r else r) r =
          (((fun tagId => decide (tagId ∈ tagIds)) ∘ fun r : StoredRow EntityTagBase => r.base.tagId) r
            && (r.isLive && decide (r.base.entity = entity))) := by
        intro r _
        by_cases hdrop : drops entity tagIds r = true
        · simp only [comp_apply, hdrop, if_true, isLive_closeRow, Bool.false_and]
          simp only [drops, Bool.and_eq_true, decide_eq_true_eq] at hdrop
          simp [hdrop.2]
        · simp only [comp_apply, hdrop, if_false, Bool.false_eq_true]
          simp only [drops, Bool.and_eq_true, decide_eq_true_eq, not_and, not_not] at hdrop
          by_cases hl : r.isLive = true <;> by_cases he : r.base.entity = entity <;>
            simp_all
      rw [filter_congr hsel]
      refine map_congr_left fun r hr => ?_
      have hin := (mem_filter.mp hr).2
      have hnot : drops entity tagIds r = false := by
        simp only [comp_apply, Bool.and_eq_true, decide_eq_true_eq] at hin
        simp [drops, hin.1]
      simp [hnot]
    · rw [filter_map, map_map, filter_eq_self.mpr]
      · exact map_id' _
      · intro tagId _
        simp [newRow, EntityTag.new, EntityTagBase.entity, Row.isLive]
  refine ⟨?_, fun r hr hdrop => ?_, fun r hr hdrop => ?_⟩
  · rw [hlive, perm_ext_iff_of_nodup _ (nodup_dedup _)]
    · intro tagId
      simp only [mem_append, mem_filter, added, mem_dedup, decide_eq_true_eq]
      tauto
    · refine List.Nodup.append ((nodup_getForEntity hold entity).filter _) hnodup ?_
      intro tagId hkept hnew
      exact of_decide_eq_true (mem_filter.mp hnew).2 (mem_filter.mp hkept).1
  · exact (hmem r).mpr (.inl ⟨r, hr, by simp [hdrop]⟩)
  · exact (hmem _).mpr (.inl ⟨r, hr, by simp [hdrop]⟩)

end EntityTagTable

section Service
variable {tags : Uuid → Option Tag} {t t' : EntityTagTable} {newId : Uuid → Uuid} {now : Timestamp}
  {entity : TaggedEntity} {tagIds : List Uuid} {organizationId : Uuid}

def KnownTags (tags : Uuid → Option Tag) (organizationId : Uuid) (tagIds : List Uuid) : Prop :=
  ∀ tagId ∈ tagIds, (validateTagFull tags tagId organizationId).isSome = true

theorem countApplications_eq_some (appCount : ℕ) {n : ℕ} :
    countApplications tags organizationId tagIds appCount = some n ↔
      KnownTags tags organizationId tagIds ∧
        n = appCount + tagIds.countP (isApplicationTag tags) := by
  induction tagIds generalizing appCount with
  | nil =>
    rw [countApplications, foldlM_nil, countP_nil, Nat.add_zero]
    refine ⟨fun h => ⟨fun _ h => absurd h not_mem_nil, (Option.some.inj h).symm⟩, ?_⟩
    rintro ⟨-, rfl⟩
    rfl
  | cons tagId tagIds ih =>
    rw [countApplications, foldlM_cons, KnownTags, forall_mem_cons]
    cases htag : validateTagFull tags tagId organizationId with
    | none => simp
    | some tag =>
      refine (ih (if tag.base.isApplication then appCount + 1 else appCount)).trans ?_
      rw [countP_cons, isApplicationTag_of_validateTagFull htag]
      simp only [Option.isSome_some, true_and]
      refine and_congr_right fun _ => ?_
      split_ifs <;> omega

theorem setTags_nil : setTags tags t newId now entity [] organizationId = some t := rfl

theorem setTags_eq_some_of_ne_nil (hne : tagIds ≠ []) :
    setTags tags t newId now entity tagIds organizationId = some t' ↔
      KnownTags tags organizationId tagIds ∧ tagIds.countP (isApplicationTag tags) ≤ 1 ∧
        t.set newId now entity tagIds (t.liveRows [entity.1] entity.2 none) = some t' := by
  have hempty : ¬tagIds.isEmpty = true := fun h => hne (List.isEmpty_iff.mp h)
  rw [setTags, if_neg hempty, Option.bind_eq_some_iff]
  constructor
  · rintro ⟨appCount, hcount, h⟩
    obtain ⟨hknown, rfl⟩ := (countApplications_eq_some 0).mp hcount
    split_ifs at h with hmany
    exact ⟨hknown, by omega, h⟩
  · rintro ⟨hknown, hcount, h⟩
    refine ⟨_, (countApplications_eq_some 0).mpr ⟨hknown, rfl⟩, ?_⟩
    rw [if_neg (by omega)]
    exact h

def ValidTags (tags : Uuid → Option Tag) (organizationId : Uuid) (tagIds : List Uuid) : Prop :=
  KnownTags tags organizationId tagIds ∧ tagIds.dedup.countP (isApplicationTag tags) ≤ 1

/-- A successful `set_tags` replaces the tags of the entity, and a valid list is accepted. -/
def ReplacesTags (tags : Uuid → Option Tag) (t : EntityTagTable) (newId : Uuid → Uuid)
    (now : Timestamp) (entity : TaggedEntity) (tagIds : List Uuid) (organizationId : Uuid) : Prop :=
  (∀ t', setTags tags t newId now entity tagIds organizationId = some t' →
    t.Replaced t' now entity tagIds) ∧
  (ValidTags tags organizationId tagIds →
    (setTags tags t newId now entity tagIds organizationId).isSome = true)

structure SentOnce (tags : Uuid → Option Tag) (t : EntityTagTable) (entity : TaggedEntity)
    (tagIds : List Uuid) (organizationId : Uuid) : Prop where
  empty : tagIds = [] → t.getForEntity entity = []
  application : ValidTags tags organizationId tagIds →
    tagIds.countP (isApplicationTag tags) ≤ 1
  added : ValidTags tags organizationId tagIds → ∀ tagId ∉ t.getForEntity entity,
    tagIds.count tagId ≤ 1

theorem nodup_added_iff :
    (t.added entity tagIds).Nodup ↔ ∀ tagId ∉ t.getForEntity entity, tagIds.count tagId ≤ 1 := by
  rw [nodup_iff_count_le_one]
  refine forall_congr' fun tagId => ?_
  by_cases hhas : tagId ∈ t.getForEntity entity
  · refine iff_of_true ?_ fun h => absurd hhas h
    rw [count_eq_zero_of_not_mem]
    · exact Nat.zero_le 1
    · exact fun hmem => of_decide_eq_true (mem_filter.mp hmem).2 hhas
  · have hcount : (t.added entity tagIds).count tagId = tagIds.count tagId :=
      count_filter (decide_eq_true hhas)
    rw [hcount]
    exact ⟨fun h _ => h, fun h => h hhas⟩

theorem replaced_self_iff :
    t.Replaced t now entity [] ↔ t.getForEntity entity = [] := by
  constructor
  · exact fun h => perm_nil.mp h.live
  · intro hnone
    refine ⟨by rw [hnone]; rfl, fun r hr _ => hr, fun r hr hdrop => ?_⟩
    simp only [drops, Bool.and_eq_true, decide_eq_true_eq] at hdrop
    have hmem := mem_getForEntity.mpr ⟨r, hr, hdrop.1.1, hdrop.1.2, rfl⟩
    rw [hnone] at hmem
    exact absurd hmem not_mem_nil

theorem replacesTags_iff (hold : liveAssignments.Holds t) (hids : t.DrawsFresh newId tagIds) :
    ReplacesTags tags t newId now entity tagIds organizationId ↔
      SentOnce tags t entity tagIds organizationId := by
  by_cases hnil : tagIds = []
  · subst hnil
    constructor
    · rintro ⟨hreplaced, -⟩
      have hempty := replaced_self_iff.mp (hreplaced t setTags_nil)
      exact ⟨fun _ => hempty, fun _ => Nat.zero_le 1, fun _ _ _ => Nat.zero_le 1⟩
    · intro hsent
      refine ⟨fun t' ht' => ?_, fun _ => rfl⟩
      cases ht'
      exact replaced_self_iff.mpr (hsent.empty rfl)
  · constructor
    · rintro ⟨-, haccepted⟩
      have hset : ValidTags tags organizationId tagIds →
          tagIds.countP (isApplicationTag tags) ≤ 1 ∧ (t.added entity tagIds).Nodup := by
        intro hvalid
        obtain ⟨t', ht'⟩ := Option.isSome_iff_exists.mp (haccepted hvalid)
        obtain ⟨-, hcount, hset⟩ := (setTags_eq_some_of_ne_nil hnil).mp ht'
        exact ⟨hcount, (rows_set hset).2⟩
      exact ⟨fun h => absurd h hnil, fun h => (hset h).1, fun h => nodup_added_iff.mp (hset h).2⟩
    · intro hsent
      refine ⟨fun t' ht' => ?_, fun hvalid => ?_⟩
      · obtain ⟨-, -, hset⟩ := (setTags_eq_some_of_ne_nil hnil).mp ht'
        exact replaced_of_set hold hset
      · obtain ⟨t', ht'⟩ := exists_set now entity hids
          (nodup_added_iff.mpr (hsent.added hvalid))
        have hsome := (setTags_eq_some_of_ne_nil hnil).mpr
          ⟨hvalid.1, hsent.application hvalid, ht'⟩
        rw [hsome]
        rfl

def TagsAccepted (tags : Uuid → Option Tag) (t : EntityTagTable) (entity : TaggedEntity)
    (tagIds : List Uuid) (organizationId : Uuid) : Prop :=
  tagIds = [] ∨ KnownTags tags organizationId tagIds ∧
    tagIds.countP (isApplicationTag tags) ≤ 1 ∧ (t.added entity tagIds).Nodup

theorem isSome_setTags_iff (now : Timestamp) (hids : t.DrawsFresh newId tagIds) :
    (setTags tags t newId now entity tagIds organizationId).isSome = true ↔
      TagsAccepted tags t entity tagIds organizationId := by
  unfold TagsAccepted
  by_cases hnil : tagIds = []
  · subst hnil
    exact iff_of_true rfl (.inl rfl)
  rw [or_iff_right hnil, Option.isSome_iff_exists]
  constructor
  · rintro ⟨t', ht'⟩
    obtain ⟨hknown, hcount, hset⟩ := (setTags_eq_some_of_ne_nil hnil).mp ht'
    exact ⟨hknown, hcount, (rows_set hset).2⟩
  · rintro ⟨hknown, hcount, hadded⟩
    obtain ⟨t', ht'⟩ := exists_set now entity hids hadded
    exact ⟨t', (setTags_eq_some_of_ne_nil hnil).mpr ⟨hknown, hcount, ht'⟩⟩

theorem rows_setTags (h : setTags tags t newId now entity tagIds organizationId = some t') :
    ∃ (p : StoredRow EntityTagBase → Bool) (added : List Uuid),
      (∀ r, p r = true → r.base.entity = entity) ∧ added ⊆ tagIds ∧
        t'.rows = (t.rows.map fun r => if p r then EntityTagTable.closeRow now r else r) ++
          added.map (EntityTagTable.newRow newId now entity) := by
  by_cases hnil : tagIds = []
  · subst hnil
    cases h
    refine ⟨fun _ => false, [], nofun, List.Subset.refl _, ?_⟩
    simp
  · obtain ⟨-, -, hset⟩ := (setTags_eq_some_of_ne_nil hnil).mp h
    refine ⟨drops entity tagIds, t.added entity tagIds, fun r hr => ?_, ?_, (rows_set hset).1⟩
    · simp only [drops, Bool.and_eq_true, decide_eq_true_eq] at hr
      exact hr.1.2
    · exact fun _ htag => (mem_filter.mp htag).1

theorem getForEntity_setTags_of_ne {other : TaggedEntity} (hne : other ≠ entity)
    (h : setTags tags t newId now entity tagIds organizationId = some t') :
    t'.getForEntity other = t.getForEntity other := by
  obtain ⟨p, added, hp, -, hrows⟩ := rows_setTags h
  have hnew : (added.map (newRow newId now entity)).filter
      (fun r => r.isLive && decide (r.base.entity = other)) = [] := by
    rw [filter_eq_nil_iff]
    intro r hr
    obtain ⟨tagId, -, rfl⟩ := mem_map.mp hr
    rw [Bool.and_eq_true, decide_eq_true_iff, not_and]
    exact fun _ hentity => hne hentity.symm
  rw [getForEntity_eq, getForEntity_eq, hrows, filter_append,
    map_append, hnew, map_nil, append_nil]
  refine tagIds_closeRows fun r hr => ?_
  rw [hp r hr]
  exact hne.symm

theorem exists_id_of_setTags (h : setTags tags t newId now entity tagIds organizationId = some t')
    {r : StoredRow EntityTagBase} (hr : r ∈ t') :
    (∃ r₀ ∈ t, r₀.id = r.id) ∨ ∃ tagId ∈ tagIds, r.id = newId tagId := by
  obtain ⟨p, added, -, hsubset, hrows⟩ := rows_setTags h
  have hmem : r ∈ t'.rows := hr
  rw [hrows, mem_append] at hmem
  rcases hmem with hmem | hmem
  · obtain ⟨r₀, hr₀, rfl⟩ := mem_map.mp hmem
    refine .inl ⟨r₀, hr₀, ?_⟩
    split_ifs <;> rfl
  · obtain ⟨tagId, htag, rfl⟩ := mem_map.mp hmem
    exact .inr ⟨tagId, hsubset htag, rfl⟩

/-- With no other call in between, the statements of the call do what `setTags` says. -/
theorem run_setTags (tags : Uuid → Option Tag) (t : EntityTagTable) (newId : Uuid → Uuid)
    (now : Timestamp) (entity : TaggedEntity) (tagIds : List Uuid) (organizationId : Uuid)
    (call : ℕ) : ∃ n, (entityTagLts tags t).run { entityTags := t }
      (.start call (.setTags entity tagIds organizationId) ::
        List.replicate n (.proceed call newId now)) =
      some { entityTags := (setTags tags t newId now entity tagIds organizationId).getD t } := by
  by_cases hnil : tagIds = []
  · subst hnil
    exact ⟨0, rfl⟩
  have hempty : ¬tagIds.isEmpty = true := fun h => hnil (List.isEmpty_iff.mp h)
  -- one turn of the loop per tag, then the lock, the rows and the writes
  suffices key : ∀ unseen appCount, ∃ n, (entityTagLts tags t).run
      ⟨t, [(call, .validate entity tagIds unseen appCount organizationId)]⟩
        (List.replicate n (.proceed call newId now)) =
      some { entityTags := ((countApplications tags organizationId unseen appCount).bind
        fun appCount => if appCount > 1 then none
          else t.set newId now entity tagIds (t.liveRows [entity.1] entity.2 none)).getD t } by
    obtain ⟨n, hn⟩ := key tagIds 0
    refine ⟨n, ?_⟩
    rw [setTags, if_neg hempty]
    refine Eq.trans ?_ hn
    show (some _).bind _ = _
    simp [EntityTagRequest.start, hempty]
  intro unseen
  induction unseen with
  | nil =>
    intro appCount
    by_cases hmany : appCount > 1
    · refine ⟨1, ?_⟩
      simp [Lts.run, entityTagLts, step, pending,
        waits, EntityTagCall.proceed, countApplications, hmany]
    · refine ⟨3, ?_⟩
      simp [Lts.run, entityTagLts, step, pending, List.replicate,
        waits, EntityTagCall.proceed, countApplications, hmany]
  | cons tagId unseen ih =>
    intro appCount
    cases htag : validateTagFull tags tagId organizationId with
    | none =>
      refine ⟨1, ?_⟩
      simp [Lts.run, entityTagLts, step, pending,
        waits, EntityTagCall.proceed, countApplications, htag]
    | some tag =>
      obtain ⟨n, hn⟩ := ih (if tag.base.isApplication then appCount + 1 else appCount)
      refine ⟨n + 1, ?_⟩
      rw [countApplications, foldlM_cons, htag]
      refine Eq.trans ?_ hn
      simp [Lts.run, entityTagLts, step, pending, List.replicate,
        waits, EntityTagCall.proceed, htag]

end Service

section Shop

def shopRows : EntityTagTable :=
  ⟨[⟨⟨30, 1, 1, some 2, none, ⟨20, .host, 8⟩⟩, none⟩, ⟨⟨31, 2, 2, none, none, ⟨20, .host, 7⟩⟩, none⟩],
    by decide⟩

def shopIds (tagId : Uuid) : Uuid := if tagId = 8 then 40 else 41

theorem holds_shopRows : liveAssignments.Holds shopRows := by
  show ∀ r ∈ shopRows.rows, ∀ r' ∈ shopRows.rows, liveAssignments.covers r = true →
    liveAssignments.covers r' = true → liveAssignments.columns r = liveAssignments.columns r' → r = r'
  decide

theorem drawsFresh_shopRows : shopRows.DrawsFresh shopIds [9, 8] := by
  refine ⟨?_, by decide⟩
  show ∀ tagId ∈ [9, 8], ∀ r ∈ shopRows.rows, r.id ≠ shopIds tagId
  decide

/-- The host goes back to the other application. -/
theorem replacesTags_shop : ReplacesTags shopTags shopRows shopIds 5 (20, .host) [9, 8] 1 := by
  refine (replacesTags_iff holds_shopRows drawsFresh_shopRows).mpr ⟨nofun, fun _ => by decide, ?_⟩
  exact fun _ tagId _ => nodup_iff_count_le_one.mp (by decide) tagId

/-- The form sends no tag for the host, which keeps the one that it has. -/
theorem not_replacesTags_nil :
    ¬ReplacesTags shopTags shopRows shopIds 5 (20, .host) [] 1 := by
  intro h
  have hlive := (h.1 shopRows rfl).live
  exact absurd hlive.length_eq (by decide)

end Shop

end Scanopy
