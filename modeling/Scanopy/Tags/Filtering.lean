import Scanopy.Tags.Replacement

/-! Entities filtered by their tags. An assignment that ends stays in the table; the tags that are
shown are those of the live rows, and the filter asks for a row of any kind. -/

namespace Scanopy

open List Option Bool

namespace EntityTagTable
variable (t : EntityTagTable)
variable {r r' : StoredRow EntityTagBase}

/-- `get_for_entities` with no snapshot. -/
def getForEntities (entityIds : List Uuid) (entityType : EntityDiscriminants) :
    HashMap Uuid (List Uuid) :=
  if entityIds.isEmpty then HashMap.empty
  else (t.liveRows entityIds entityType none).foldl (fun result r =>
    result.alter r.base.entityId [] fun tagIds => tagIds ++ [r.base.tagId]) HashMap.empty

/-- The sub-select of `has_any_tags`. -/
def taggedIds (tagIds : List Uuid) (entityType : EntityDiscriminants) : List Uuid :=
  (t.rows.filter fun r => decide (r.base.entityType = entityType) &&
    decide (r.base.tagId ∈ tagIds)).map (·.base.entityId)

/-- Whether `has_any_tags` selects the entity. A list without tags adds no condition. -/
def hasAnyTags (tagIds : List Uuid) (entityType : EntityDiscriminants) (entityId : Uuid) : Bool :=
  tagIds.isEmpty || decide (entityId ∈ t.taggedIds tagIds entityType)

structure FiltersByShownTags (entityType : EntityDiscriminants) (tagIds : List Uuid) : Prop where
  single : ∀ entityId, t.hasAnyTags tagIds entityType entityId = true ↔
    ∃ tagId ∈ t.getForEntity (entityId, entityType), tagId ∈ tagIds
  batch : ∀ entityIds, ∀ entityId ∈ entityIds, t.hasAnyTags tagIds entityType entityId = true ↔
    ∃ tagId ∈ ((t.getForEntities entityIds entityType).get entityId).getD [], tagId ∈ tagIds

def EndedKeepTag (entityType : EntityDiscriminants) (tagIds : List Uuid) : Prop :=
  ∀ r ∈ t, r.isLive = false → r.base.entityType = entityType → r.base.tagId ∈ tagIds →
    ∃ r' ∈ t, r'.isLive = true ∧ r'.base.entity = r.base.entity ∧ r'.base.tagId ∈ tagIds

variable {t} {t' : EntityTagTable} {entityType : EntityDiscriminants} {tagIds : List Uuid}
  {now : Timestamp}

theorem get_getForEntities {entityIds : List Uuid} {entityId : Uuid} (h : entityId ∈ entityIds) :
    ((t.getForEntities entityIds entityType).get entityId).getD [] =
      t.getForEntity (entityId, entityType) := by
  have hne : ¬entityIds.isEmpty = true := by
    rw [List.isEmpty_iff]
    exact ne_nil_of_mem h
  have hshown : ((t.liveRows entityIds entityType none).filter (·.base.entityId = entityId)).map
      (·.base.tagId) = t.getForEntity (entityId, entityType) := by
    rw [getForEntity, liveRows, liveRows, List.filter_map, List.filter_filter]
    refine congrArg (List.map _) (congrArg (List.map _) (filter_congr fun r _ => ?_))
    by_cases hid : r.base.entityId = entityId
    · simp [hid, h]
    · simp [hid]
  rw [getForEntities, if_neg hne, HashMap.get_foldl_push (fun r : EntityTag => r.base.entityId)
    fun r => r.base.tagId, ← hshown]
  split_ifs with hnone
  · rw [hnone]
    rfl
  · rfl

theorem filtersByShownTags_iff :
    t.FiltersByShownTags entityType tagIds ↔ tagIds ≠ [] ∧ t.EndedKeepTag entityType tagIds := by
  have hshown : ∀ entityId, (∃ tagId ∈ t.getForEntity (entityId, entityType), tagId ∈ tagIds) ↔
      ∃ r ∈ t, r.isLive = true ∧ r.base.entity = (entityId, entityType) ∧ r.base.tagId ∈ tagIds := by
    intro entityId
    constructor
    · rintro ⟨tagId, htag, hmem⟩
      obtain ⟨r, hr, hlive, hentity, rfl⟩ := mem_getForEntity.mp htag
      exact ⟨r, hr, hlive, hentity, hmem⟩
    · rintro ⟨r, hr, hlive, hentity, hmem⟩
      exact ⟨r.base.tagId, mem_getForEntity.mpr ⟨r, hr, hlive, hentity, rfl⟩, hmem⟩
  have hselected : ∀ entityId, entityId ∈ t.taggedIds tagIds entityType ↔
      ∃ r ∈ t, r.base.entity = (entityId, entityType) ∧ r.base.tagId ∈ tagIds := by
    intro entityId
    rw [taggedIds, List.mem_map]
    refine exists_congr fun r => ?_
    simp only [mem_filter, and_eq_true, decide_eq_true_eq, EntityTagBase.entity, Prod.mk.injEq]
    constructor
    · rintro ⟨⟨hr, htype, htag⟩, hid⟩
      exact ⟨hr, ⟨hid, htype⟩, htag⟩
    · rintro ⟨hr, ⟨hid, htype⟩, htag⟩
      exact ⟨⟨hr, htype, htag⟩, hid⟩
  have hsingle : t.FiltersByShownTags entityType tagIds ↔
      ∀ entityId, t.hasAnyTags tagIds entityType entityId = true ↔
        ∃ tagId ∈ t.getForEntity (entityId, entityType), tagId ∈ tagIds := by
    refine ⟨fun h => h.single, fun h => ⟨h, fun entityIds entityId hid => ?_⟩⟩
    rw [get_getForEntities hid]
    exact h entityId
  rw [hsingle]
  unfold hasAnyTags
  simp only [or_eq_true, decide_eq_true_eq, List.isEmpty_iff, hshown, hselected]
  constructor
  · intro h
    have hne : tagIds ≠ [] := by
      rintro rfl
      obtain ⟨r, -, -, -, hmem⟩ := (h 0).mp (.inl rfl)
      exact absurd hmem not_mem_nil
    refine ⟨hne, fun r hr _ htype htag => ?_⟩
    have hentity : r.base.entity = (r.base.entityId, entityType) := by rw [← htype]; rfl
    obtain ⟨r', hr', hlive, hsame, hmem⟩ := (h r.base.entityId).mp (.inr ⟨r, hr, hentity, htag⟩)
    exact ⟨r', hr', hlive, hsame.trans hentity.symm, hmem⟩
  · rintro ⟨hne, hended⟩ entityId
    constructor
    · rintro (hnil | ⟨r, hr, hentity, htag⟩)
      · exact absurd hnil hne
      · cases hlive : r.isLive with
        | true => exact ⟨r, hr, hlive, hentity, htag⟩
        | false =>
          obtain ⟨r', hr', hlive', hsame, hmem⟩ :=
            hended r hr hlive (congrArg Prod.snd hentity) htag
          exact ⟨r', hr', hlive', hsame.trans hentity, hmem⟩
    · rintro ⟨r, hr, -, hentity, htag⟩
      exact .inr ⟨r, hr, hentity, htag⟩

/-- A write that ends the assignments of `rows` and inserts `new`. -/
structure Writes (t t' : EntityTagTable) (now : Timestamp) (rows : List EntityTag)
    (new : List (StoredRow EntityTagBase)) : Prop where
  rows_eq : t'.rows = (t.update (closed now rows)).rows ++ new
  live : ∀ r ∈ new, r.isLive = true
  read : ∀ p ∈ rows, t.HasRead p

variable {rows : List EntityTag} {new : List (StoredRow EntityTagBase)}

theorem writeRow_closed_of_notMem (h : r.id ∉ rows.map (·.id)) :
    RowTable.writeRow (closed now rows) r = r := by
  refine Table.updateRow_of_forall_ne _ fun u hu hid => ?_
  obtain ⟨p, hp, rfl⟩ := List.mem_map.mp hu
  exact h (List.mem_map.mpr ⟨p, hp, hid⟩)

theorem isLive_writeRow_closed_of_mem (h : r.id ∈ rows.map (·.id)) :
    (RowTable.writeRow (closed now rows) r).isLive = false := by
  by_contra hlive
  obtain ⟨p, hp, hid⟩ := List.mem_map.mp h
  obtain ⟨-, hne⟩ := RowTable.writeRow_of_isLive (fun u hu => validTo_of_mem_closed hu)
    (eq_true_of_not_eq_false hlive)
  exact hne _ (List.mem_map_of_mem hp) hid

theorem Writes.base_writeRow (h : Writes t t' now rows new)
    (hr : r ∈ t) : (RowTable.writeRow (closed now rows) r).base = r.base := by
  refine RowTable.base_writeRow fun u hu hid => ?_
  obtain ⟨p, hp, rfl⟩ := List.mem_map.mp hu
  obtain ⟨r₀, hr₀, hid₀, hbase⟩ := h.read p hp
  rw [← t.eq_of_key hr₀ hr (hid₀.trans hid)]
  exact hbase.symm

theorem Writes.mem_iff (h : Writes t t' now rows new) :
    r' ∈ t' ↔ (∃ r ∈ t, RowTable.writeRow (closed now rows) r = r') ∨ r' ∈ new := by
  show r' ∈ t'.rows ↔ _
  rw [h.rows_eq, mem_append]
  exact or_congr_left RowTable.mem_update

theorem Writes.mem_live_iff (h : Writes t t' now rows new)
    (hlive : r'.isLive = true) : r' ∈ t' ↔ (r' ∈ t ∧ r'.id ∉ rows.map (·.id)) ∨ r' ∈ new := by
  rw [h.mem_iff]
  refine or_congr_left ⟨?_, fun ⟨hr, hid⟩ => ⟨r', hr, writeRow_closed_of_notMem hid⟩⟩
  rintro ⟨r, hr, rfl⟩
  by_cases hid : r.id ∈ rows.map (·.id)
  · rw [isLive_writeRow_closed_of_mem hid] at hlive
    exact absurd hlive Bool.false_ne_true
  · rw [writeRow_closed_of_notMem hid]
    exact ⟨hr, hid⟩

/-- Whose assignments end, among those of the given tags, keeps one of these tags. -/
def LeavesTag (t : EntityTagTable) (entityType : EntityDiscriminants) (tagIds : List Uuid)
    (ended : List Uuid) (addedTo : TaggedEntity → List Uuid) : Prop :=
  ∀ r ∈ t.rows, r.id ∈ ended → r.base.entityType = entityType → r.base.tagId ∈ tagIds →
    (∃ r' ∈ t.rows, r'.isLive = true ∧ r'.base.entity = r.base.entity ∧ r'.base.tagId ∈ tagIds ∧
      r'.id ∉ ended) ∨ ∃ tagId ∈ addedTo r.base.entity, tagId ∈ tagIds

theorem Writes.endedKeepTag_iff (h : Writes t t' now rows new)
    (addedTo : TaggedEntity → List Uuid)
    (hadded : ∀ entity tagId, tagId ∈ addedTo entity ↔
      ∃ r ∈ new, r.base.entity = entity ∧ r.base.tagId = tagId)
    (ht : t.EndedKeepTag entityType tagIds) :
    t'.EndedKeepTag entityType tagIds ↔
      t.LeavesTag entityType tagIds (rows.map (·.id)) addedTo := by
  have hnew : ∀ entity, (∃ tagId ∈ addedTo entity, tagId ∈ tagIds) ↔
      ∃ r ∈ new, r.base.entity = entity ∧ r.base.tagId ∈ tagIds := by
    intro entity
    constructor
    · rintro ⟨tagId, htag, hmem⟩
      obtain ⟨r, hr, hentity, rfl⟩ := (hadded entity tagId).mp htag
      exact ⟨r, hr, hentity, hmem⟩
    · rintro ⟨r, hr, hentity, hmem⟩
      exact ⟨r.base.tagId, (hadded entity _).mpr ⟨r, hr, hentity, rfl⟩, hmem⟩
  constructor
  · intro hended r hr hid htype htag
    have hbase := h.base_writeRow hr
    obtain ⟨r', hr', hlive, hentity, hmem⟩ := hended _ (h.mem_iff.mpr (.inl ⟨r, hr, rfl⟩))
      (isLive_writeRow_closed_of_mem hid) (by rw [hbase]; exact htype) (by rw [hbase]; exact htag)
    rw [hbase] at hentity
    rcases (h.mem_live_iff hlive).mp hr' with ⟨hr', hid'⟩ | hr'
    · exact .inl ⟨r', hr', hlive, hentity, hmem, hid'⟩
    · exact .inr ((hnew _).mpr ⟨r', hr', hentity, hmem⟩)
  · intro hleaves r' hr' hclosed htype htag
    -- an assignment that has ended before or ends now leaves a live one that does not end
    have hkeep : ∀ r ∈ t, r.isLive = false ∨ r.id ∈ rows.map (·.id) →
        r.base.entityType = entityType → r.base.tagId ∈ tagIds → ∃ r' ∈ t', r'.isLive = true ∧
          r'.base.entity = r.base.entity ∧ r'.base.tagId ∈ tagIds := by
      have hends : ∀ r ∈ t, r.id ∈ rows.map (·.id) → r.base.entityType = entityType →
          r.base.tagId ∈ tagIds → ∃ r' ∈ t', r'.isLive = true ∧
            r'.base.entity = r.base.entity ∧ r'.base.tagId ∈ tagIds := by
        intro r hr hid htype htag
        rcases hleaves r hr hid htype htag with ⟨r₁, hr₁, hlive, hentity, hmem, hid₁⟩ | hadds
        · exact ⟨r₁, (h.mem_live_iff hlive).mpr (.inl ⟨hr₁, hid₁⟩), hlive, hentity, hmem⟩
        · obtain ⟨r₁, hr₁, hentity, hmem⟩ := (hnew _).mp hadds
          exact ⟨r₁, h.mem_iff.mpr (.inr hr₁), h.live r₁ hr₁, hentity, hmem⟩
      rintro r hr (hclosed | hid) htype htag
      · obtain ⟨r₀, hr₀, hlive₀, hentity₀, hmem₀⟩ := ht r hr hclosed htype htag
        by_cases hid₀ : r₀.id ∈ rows.map (·.id)
        · obtain ⟨r₁, hr₁, hlive, hentity, hmem⟩ :=
            hends r₀ hr₀ hid₀ ((congrArg Prod.snd hentity₀).trans htype) hmem₀
          exact ⟨r₁, hr₁, hlive, hentity.trans hentity₀, hmem⟩
        · exact ⟨r₀, (h.mem_live_iff hlive₀).mpr (.inl ⟨hr₀, hid₀⟩), hlive₀, hentity₀, hmem₀⟩
      · exact hends r hr hid htype htag
    rcases h.mem_iff.mp hr' with ⟨r, hr, rfl⟩ | hnewRow
    · have hbase := h.base_writeRow hr
      rw [hbase] at htype htag
      have hended : r.isLive = false ∨ r.id ∈ rows.map (·.id) := by
        by_cases hid : r.id ∈ rows.map (·.id)
        · exact .inr hid
        · rw [writeRow_closed_of_notMem hid] at hclosed
          exact .inl hclosed
      rw [hbase]
      exact hkeep r hr hended htype htag
    · rw [h.live r' hnewRow] at hclosed
      exact absurd hclosed.symm Bool.false_ne_true

theorem writes_set {newId : Uuid → Uuid} {entity : TaggedEntity} {existing : List EntityTag}
    (hread : ∀ p ∈ existing, t.HasRead p)
    (h : t.set newId now entity tagIds existing = some t') :
    Writes t t' now (existing.filter fun r => r.base.tagId ∉ tagIds)
      ((tagIds.filter fun tagId => tagId ∉ existing.map (·.base.tagId)).map
        (newRow newId now entity)) := by
  have hinserts : ((tagIds.filter fun tagId => tagId ∉ existing.map (·.base.tagId)).map
      (newRow newId now entity)).foldlM liveAssignments.insert
        (t.update (closed now (existing.filter fun r => r.base.tagId ∉ tagIds))) = some t' := by
    rw [foldlM_map]
    exact h
  have hlive : ∀ r ∈ (tagIds.filter fun tagId => tagId ∉ existing.map (·.base.tagId)).map
      (newRow newId now entity), r.isLive = true := by
    intro r hr
    obtain ⟨tagId, -, rfl⟩ := List.mem_map.mp hr
    rfl
  refine ⟨(UniqueIndex.insertEach_eq_some hlive hinserts).1, hlive, fun p hp => ?_⟩
  exact hread p (mem_of_mem_filter hp)

end EntityTagTable

/-- The next statement of a call ends no tag of the given ones on an entity that has no other of them
afterwards. A replacement that the index refuses ends nothing. -/
def EntityTagCall.KeepsTag (t : EntityTagTable) (newId : Uuid → Uuid) (now : Timestamp)
    (entityType : EntityDiscriminants) (tagIds : List Uuid) : EntityTagCall → Prop
  | replace entity newTagIds existing =>
    (t.set newId now entity newTagIds existing).isSome = true →
      t.LeavesTag entityType tagIds
        ((existing.filter fun r => r.base.tagId ∉ newTagIds).map (·.id)) fun other =>
          if other = entity then
            newTagIds.filter fun tagId => tagId ∉ existing.map (·.base.tagId) else []
  | close rows => t.LeavesTag entityType tagIds (rows.map (·.id)) fun _ => []
  | _ => True

def EntityTagSystem.KeepsTag (entityType : EntityDiscriminants) (tagIds : List Uuid)
    (s : EntityTagSystem) : EntityTagStep → Prop
  | .start _ _ => True
  | .proceed call newId now =>
    ∀ c ∈ s.pending call, c.KeepsTag s.entityTags newId now entityType tagIds

instance (t : EntityTagTable) (entityType : EntityDiscriminants) (tagIds ended : List Uuid)
    (addedTo : TaggedEntity → List Uuid) :
    Decidable (t.LeavesTag entityType tagIds ended addedTo) :=
  inferInstanceAs (Decidable (∀ r ∈ t.rows, r.id ∈ ended → r.base.entityType = entityType →
    r.base.tagId ∈ tagIds → (∃ r' ∈ t.rows, _) ∨ ∃ tagId ∈ addedTo r.base.entity, _))

instance (t : EntityTagTable) (newId : Uuid → Uuid) (now : Timestamp)
    (entityType : EntityDiscriminants) (tagIds : List Uuid) :
    DecidablePred (EntityTagCall.KeepsTag t newId now entityType tagIds)
  | .replace entity newTagIds existing => inferInstanceAs (Decidable (
      (t.set newId now entity newTagIds existing).isSome = true →
        t.LeavesTag entityType tagIds
          ((existing.filter fun r => r.base.tagId ∉ newTagIds).map (·.id)) fun other =>
            if other = entity then
              newTagIds.filter fun tagId => tagId ∉ existing.map (·.base.tagId) else []))
  | .close rows =>
    inferInstanceAs (Decidable (t.LeavesTag entityType tagIds (rows.map (·.id)) fun _ => []))
  | .add .. | .validateSingleApp .. | .validate .. | .lock .. => inferInstanceAs (Decidable True)

instance (entityType : EntityDiscriminants) (tagIds : List Uuid) (s : EntityTagSystem) :
    DecidablePred (s.KeepsTag entityType tagIds)
  | .start _ _ => inferInstanceAs (Decidable True)
  | .proceed call newId now =>
    inferInstanceAs (Decidable (∀ c ∈ s.pending call,
      c.KeepsTag s.entityTags newId now entityType tagIds))

section Runs
variable {tags : Uuid → Option Tag} {entityType : EntityDiscriminants} {tagIds : List Uuid}
variable {s : EntityTagSystem} {t : EntityTagTable}

open EntityTagTable

theorem EntityTagCall.endedKeepTag_proceed {newId : Uuid → Uuid}
    {now : Timestamp} {c : EntityTagCall} (hc : c.Fits tags t)
    (ht : t.EndedKeepTag entityType tagIds) :
    EndedKeepTag (c.proceed tags t newId now).1 entityType tagIds ↔
      c.KeepsTag t newId now entityType tagIds := by
  cases c with
  | replace entity newTagIds existing =>
    cases hset : t.set newId now entity newTagIds existing with
    | none =>
      rw [EntityTagCall.proceed, EntityTagCall.KeepsTag, hset]
      exact iff_of_true ht (by rintro ⟨⟩)
    | some t' =>
      rw [EntityTagCall.proceed, EntityTagCall.KeepsTag, hset]
      refine Iff.trans ((writes_set hc.2 hset).endedKeepTag_iff (fun other =>
        if other = entity then
          newTagIds.filter fun tagId => tagId ∉ existing.map (·.base.tagId) else [])
        (fun other tagId => ?_) ht) ⟨fun hleaves _ => hleaves, fun hkeeps => hkeeps rfl⟩
      by_cases hother : other = entity
      · subst hother
        rw [if_pos rfl]
        constructor
        · exact fun htag => ⟨_, List.mem_map_of_mem htag, rfl, rfl⟩
        · rintro ⟨r, hr, -, rfl⟩
          obtain ⟨tagId, htag, rfl⟩ := List.mem_map.mp hr
          exact htag
      · rw [if_neg hother]
        refine iff_of_false not_mem_nil ?_
        rintro ⟨r, hr, hentity, -⟩
        obtain ⟨tagId, -, rfl⟩ := List.mem_map.mp hr
        exact hother hentity.symm
  | close rows =>
    have hwrites : Writes t (t.update (closed now rows)) now rows [] :=
      ⟨(append_nil _).symm, fun r hr => absurd hr not_mem_nil, hc⟩
    refine hwrites.endedKeepTag_iff (fun _ => []) (fun other tagId => ?_) ht
    refine iff_of_false not_mem_nil ?_
    rintro ⟨r, hr, -⟩
    exact not_mem_nil hr
  | add entityIds addedType tagId =>
    refine iff_of_true ?_ trivial
    cases entityIds with
    | nil => exact ht
    | cons entityId entityIds =>
      rw [EntityTagCall.proceed]
      cases hadd : t.add (newId tagId) now ⟨entityId, addedType, tagId⟩ with
      | none => exact ht
      | some t' =>
        intro r hr hclosed htype htag
        rcases (mem_add hadd).mp hr with hr | rfl
        · obtain ⟨r', hr', hkept⟩ := ht r hr hclosed htype htag
          exact ⟨r', (mem_add hadd).mpr (.inl hr'), hkept⟩
        · exact absurd hclosed.symm Bool.false_ne_true
  | validate entity newTagIds unseen =>
    refine iff_of_true ?_ trivial
    cases unseen <;> exact ht
  | validateSingleApp | lock => exact iff_of_true ht trivial

theorem EntityTagSystem.fits_of_reachable
    (hs : (entityTagLts tags t).Reachable s) : ∀ c ∈ s.calls, c.2.Fits tags s.entityTags := by
  refine hs.invariant (P := fun s => ∀ c ∈ s.calls, c.2.Fits tags s.entityTags)
    (fun c hc => absurd hc not_mem_nil) ?_
  intro s l s' _ hfits _ h
  cases l with
  | start call request =>
    obtain ⟨hfree, h⟩ := ite_none_left_eq_some.mp h
    cases h
    intro c hc
    rcases mem_append.mp hc with hc | hc
    · rw [mem_toList] at hc
      obtain ⟨c', hstart, rfl⟩ := map_eq_some_iff.mp hc
      exact fits_start hstart
    · exact hfits c hc
  | proceed call newId now =>
    obtain ⟨c, hc, hstep⟩ := bind_eq_some_iff.mp h
    obtain ⟨hfree, hstep⟩ := ite_none_left_eq_some.mp hstep
    cases hstep
    obtain ⟨p, hp, rfl⟩ := map_eq_some_iff.mp hc
    have hfit := hfits p (mem_of_find?_eq_some hp)
    intro c hc
    rcases mem_append.mp hc with hc | hc
    · rw [mem_toList] at hc
      obtain ⟨next, hnext, rfl⟩ := map_eq_some_iff.mp hc
      exact fits_proceed hfit hnext
    · exact (hfits c (mem_of_mem_filter hc)).of_kept (kept_proceed hfit)

theorem EntityTagSystem.endedKeepTag_step {s' : EntityTagSystem}
    {l : EntityTagStep} (hs : (entityTagLts tags t).Reachable s)
    (hended : s.entityTags.EndedKeepTag entityType tagIds)
    (h : (entityTagLts tags t).step s l = some s') :
    s'.entityTags.EndedKeepTag entityType tagIds ↔ s.KeepsTag entityType tagIds l := by
  cases l with
  | start call request =>
    obtain ⟨hfree, h⟩ := ite_none_left_eq_some.mp h
    cases h
    exact iff_of_true hended trivial
  | proceed call newId now =>
    obtain ⟨c, hc, hstep⟩ := bind_eq_some_iff.mp h
    obtain ⟨hfree, hstep⟩ := ite_none_left_eq_some.mp hstep
    cases hstep
    obtain ⟨p, hp, hpc⟩ := map_eq_some_iff.mp hc
    have hfit : c.Fits tags s.entityTags := by
      rw [← hpc]
      exact fits_of_reachable hs p (mem_of_find?_eq_some hp)
    refine (EntityTagCall.endedKeepTag_proceed hfit hended).trans ?_
    constructor
    · intro hkeeps c' hc'
      rw [mem_def, hc] at hc'
      cases hc'
      exact hkeeps
    · exact fun hkeeps => hkeeps c hc

/-- In which histories the filter agrees with the tags that are shown. -/
theorem filtersByShownTags_always_iff (tags : Uuid → Option Tag) (t : EntityTagTable)
    (entityType : EntityDiscriminants) (tagIds : List Uuid) (ls : List EntityTagStep)
    (s : EntityTagSystem) (hlive : ∀ r ∈ t, r.isLive = true)
    (h : (entityTagLts tags t).run (entityTagLts tags t).init ls = some s) :
    (entityTagLts tags t).Always (fun s => s.entityTags.FiltersByShownTags entityType tagIds)
        (entityTagLts tags t).init ls ↔
      tagIds ≠ [] ∧ (entityTagLts tags t).Guarded (EntityTagSystem.KeepsTag entityType tagIds)
        (entityTagLts tags t).init ls := by
  have hinit : t.EndedKeepTag entityType tagIds := by
    intro r hr hclosed
    rw [hlive r hr] at hclosed
    exact absurd hclosed.symm Bool.false_ne_true
  have hguarded := Lts.always_iff_guarded (T := entityTagLts tags t)
    (P := fun s => s.entityTags.EndedKeepTag entityType tagIds) hinit
    (fun s l s' hs hP hstep => EntityTagSystem.endedKeepTag_step hs hP hstep) h
  rw [← hguarded]
  by_cases hne : tagIds = []
  · refine iff_of_false (fun halways => ?_) fun h => h.1 hne
    exact (filtersByShownTags_iff.mp halways.head).1 hne
  · rw [and_iff_right hne]
    refine Lts.always_congr (fun s => ?_) _ _
    rw [filtersByShownTags_iff, and_iff_right hne]

end Runs

section Shop

def retagRun : List EntityTagStep :=
  [.start 0 (.addTag (20, .host) 9 1), .proceed 0 (fun _ => 0) 1, .proceed 0 (fun _ => 100) 1,
    .start 1 (.setTags (20, .host) [9, 7] 1), .proceed 1 (fun _ => 0) 2, .proceed 1 (fun _ => 0) 2,
    .proceed 1 (fun _ => 0) 2, .proceed 1 (fun _ => 0) 2, .proceed 1 (fun _ => 101) 2,
    .start 2 (.removeTag (20, .host) 9), .proceed 2 (fun _ => 0) 3]

theorem filtersByShownTags_retag : ∃ s, (entityTagLts shopTags noEntityTags).run
    (entityTagLts shopTags noEntityTags).init retagRun = some s ∧
      (entityTagLts shopTags noEntityTags).Always
        (fun s => s.entityTags.FiltersByShownTags .host [7, 9])
        (entityTagLts shopTags noEntityTags).init retagRun := by
  obtain ⟨s, hs⟩ := isSome_iff_exists.mp (show ((entityTagLts shopTags noEntityTags).run
    (entityTagLts shopTags noEntityTags).init retagRun).isSome = true by decide +kernel)
  refine ⟨s, hs, (filtersByShownTags_always_iff shopTags noEntityTags .host [7, 9] retagRun s
    (fun r hr => absurd hr not_mem_nil) hs).mpr ⟨by decide, by decide +kernel⟩⟩

/-- A host that had the tag is still selected by it. -/
theorem not_filtersByShownTags : ¬ ∀ (tags : Uuid → Option Tag) (s : EntityTagSystem),
    (entityTagLts tags noEntityTags).Reachable s →
      ∀ entityType tagIds, s.entityTags.FiltersByShownTags entityType tagIds := by
  intro h
  obtain ⟨s, hs, hselected, hshown⟩ : ∃ s, (entityTagLts shopTags noEntityTags).run
      (entityTagLts shopTags noEntityTags).init
        [.start 0 (.addTag (20, .host) 7 1), .proceed 0 (fun _ => 0) 1,
          .proceed 0 (fun _ => 100) 1, .start 1 (.removeTag (20, .host) 7),
          .proceed 1 (fun _ => 0) 2] = some s ∧
      s.entityTags.hasAnyTags [7] .host 20 = true ∧ s.entityTags.getForEntity (20, .host) = [] :=
    ⟨_, rfl, by decide +kernel, by decide +kernel⟩
  obtain ⟨tagId, htag, -⟩ :=
    ((h shopTags s (Lts.reachable_of_run hs) .host [7]).single 20).mp hselected
  rw [hshown] at htag
  exact absurd htag not_mem_nil

end Shop

end Scanopy
