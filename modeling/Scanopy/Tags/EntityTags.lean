import Scanopy.Lib.UniqueIndex
import Scanopy.Snapshots.TableEffects

/-! The tags of the entities. A call looks tags up, asks for the rows of an entity and writes, one
statement after the other; only two replacements of the tags of one entity exclude each other. -/

namespace Scanopy

open List

structure TagBase where
  name : String
  description : Option String
  organizationId : Uuid
  isApplication : Bool
  deriving DecidableEq

abbrev Tag := Row TagBase

abbrev TaggedEntity := Uuid × EntityDiscriminants

def EntityTagBase.entity (b : EntityTagBase) : TaggedEntity := (b.entityId, b.entityType)

def EntityTag.new (newId : Uuid) (now : Timestamp) (base : EntityTagBase) : EntityTag :=
  ⟨newId, now, now, none, none, base⟩

/-- `idx_entity_tags_unique_live`, on all the columns of an assignment. -/
def liveAssignments : UniqueIndex (StoredRow EntityTagBase) EntityTagBase :=
  ⟨fun r => r.isLive, fun r => r.base⟩

abbrev EntityTagTable := RowTable EntityTagBase

namespace EntityTagTable

def liveRows (t : EntityTagTable) (entityIds : List Uuid) (entityType : EntityDiscriminants)
    (tagId : Option Uuid) : List EntityTag :=
  (t.rows.filter fun r => r.isLive && decide (r.base.entityId ∈ entityIds) &&
    decide (r.base.entityType = entityType) && tagId.all (r.base.tagId = ·)).map (·.toRow)

def getForEntity (t : EntityTagTable) (entity : TaggedEntity) : List Uuid :=
  (t.liveRows [entity.1] entity.2 none).map (·.base.tagId)

/-- `none` if the entity has the tag already. -/
def add (t : EntityTagTable) (newId : Uuid) (now : Timestamp) (base : EntityTagBase) :
    Option EntityTagTable :=
  liveAssignments.insert t ⟨EntityTag.new newId now base, none⟩

/-- The rows as they are written back when their assignments end. -/
def closed (now : Timestamp) (rows : List EntityTag) : List EntityTag :=
  rows.map fun r => { r with validTo := some now }

/-- The writes of `set`, after it has read the rows of the entity; one that is refused takes the
others back. -/
def set (t : EntityTagTable) (newId : Uuid → Uuid) (now : Timestamp) (entity : TaggedEntity)
    (tagIds : List Uuid) (existing : List EntityTag) : Option EntityTagTable :=
  let removed := existing.filter fun r => r.base.tagId ∉ tagIds
  let added := tagIds.filter fun tagId => tagId ∉ existing.map (·.base.tagId)
  added.foldlM (fun t tagId => t.add (newId tagId) now ⟨entity.1, entity.2, tagId⟩)
    (t.update (closed now removed))

end EntityTagTable

section Service
variable (tags : Uuid → Option Tag)

def validateTagFull (tagId organizationId : Uuid) : Option Tag :=
  (tags tagId).filter fun tag => tag.base.organizationId = organizationId

def isApplicationTag (tagId : Uuid) : Bool := (tags tagId).any (·.base.isApplication)

def validateSingleAppTag (t : EntityTagTable) (entity : TaggedEntity)
    (excludeTagId : Option Uuid) : Bool :=
  (t.getForEntity entity).all fun existingId =>
    decide (excludeTagId = some existingId) || !isApplicationTag tags existingId

inductive EntityTagCall
  /-- `add_tag` of an application tag. -/
  | validateSingleApp (entity : TaggedEntity) (tagId : Uuid)
  /-- `add`, or what is left of `bulk_add`. -/
  | add (entityIds : List Uuid) (entityType : EntityDiscriminants) (tagId : Uuid)
  /-- `set_tags`, with the tags that are not looked up yet and the application tags so far. -/
  | validate (entity : TaggedEntity) (tagIds unseen : List Uuid) (appCount : ℕ)
    (organizationId : Uuid)
  /-- `set`, before it has the lock of the entity. -/
  | lock (entity : TaggedEntity) (tagIds : List Uuid)
  /-- `set`, holding the lock, with the rows that it has read. -/
  | replace (entity : TaggedEntity) (tagIds : List Uuid) (existing : List EntityTag)
  /-- `remove`, `remove_all_for_entity` or `bulk_remove`, with the rows that it has read. -/
  | close (rows : List EntityTag)
  deriving DecidableEq

def EntityTagCall.proceed (t : EntityTagTable) (newId : Uuid → Uuid) (now : Timestamp) :
    EntityTagCall → EntityTagTable × Option EntityTagCall
  | validateSingleApp entity tagId =>
    (t, if validateSingleAppTag tags t entity (some tagId) then
      some (add [entity.1] entity.2 tagId) else none)
  | add [] _ _ => (t, none)
  | add (entityId :: entityIds) entityType tagId =>
    -- an entity that has the tag is skipped
    ((t.add (newId tagId) now ⟨entityId, entityType, tagId⟩).getD t,
      some (add entityIds entityType tagId))
  | validate entity tagIds [] appCount _ =>
    (t, if appCount > 1 then none else some (lock entity tagIds))
  | validate entity tagIds (tagId :: unseen) appCount organizationId =>
    (t, (validateTagFull tags tagId organizationId).map fun tag =>
      validate entity tagIds unseen (if tag.base.isApplication then appCount + 1 else appCount)
        organizationId)
  | lock entity tagIds => (t, some (replace entity tagIds (t.liveRows [entity.1] entity.2 none)))
  | replace entity tagIds existing => ((t.set newId now entity tagIds existing).getD t, none)
  | close rows => (t.update (EntityTagTable.closed now rows), none)

/-- What a call does first. -/
inductive EntityTagRequest
  | addTag (entity : TaggedEntity) (tagId organizationId : Uuid)
  | setTags (entity : TaggedEntity) (tagIds : List Uuid) (organizationId : Uuid)
  | bulkAddTag (entityIds : List Uuid) (entityType : EntityDiscriminants)
    (tagId organizationId : Uuid)
  | removeTag (entity : TaggedEntity) (tagId : Uuid)
  | bulkRemoveTag (entityIds : List Uuid) (entityType : EntityDiscriminants) (tagId : Uuid)
  | removeAllForEntity (entity : TaggedEntity)
  deriving DecidableEq

/-- `remove`, `remove_all_for_entity` and `bulk_remove` up to their write. -/
def EntityTagCall.ofRemoved (rows : List EntityTag) : Option EntityTagCall :=
  if rows.isEmpty then none else some (close rows)

/-- The first statement of a call. Nothing is checked of the tags that are there when `bulk_add_tag`
adds one, and a call with nothing to set has answered. -/
def EntityTagRequest.start (t : EntityTagTable) : EntityTagRequest → Option EntityTagCall
  | addTag entity tagId organizationId =>
    (validateTagFull tags tagId organizationId).map fun tag =>
      if tag.base.isApplication then .validateSingleApp entity tagId
      else .add [entity.1] entity.2 tagId
  | setTags entity tagIds organizationId =>
    if tagIds.isEmpty then none else some (.validate entity tagIds tagIds 0 organizationId)
  | bulkAddTag entityIds entityType tagId organizationId =>
    if entityIds.isEmpty then none
    else (validateTagFull tags tagId organizationId).map fun _ => .add entityIds entityType tagId
  | removeTag entity tagId => EntityTagCall.ofRemoved (t.liveRows [entity.1] entity.2 (some tagId))
  | bulkRemoveTag entityIds entityType tagId =>
    EntityTagCall.ofRemoved (t.liveRows entityIds entityType (some tagId))
  | removeAllForEntity entity => EntityTagCall.ofRemoved (t.liveRows [entity.1] entity.2 none)

end Service

structure EntityTagSystem where
  entityTags : EntityTagTable
  calls : List (ℕ × EntityTagCall) := []

inductive EntityTagStep
  | start (call : ℕ) (request : EntityTagRequest)
  | proceed (call : ℕ) (newId : Uuid → Uuid) (now : Timestamp)

namespace EntityTagSystem
variable (s : EntityTagSystem)

def pending (call : ℕ) : Option EntityTagCall := (s.calls.find? (·.1 = call)).map Prod.snd

def waits : EntityTagCall → Bool
  | .lock entity _ => s.calls.any fun c => match c.2 with
    | .replace other _ _ => other = entity
    | _ => false
  | _ => false

def step (tags : Uuid → Option Tag) : EntityTagStep → Option EntityTagSystem
  | .start call request =>
    if (s.pending call).isSome then none
    else some { s with
      calls := ((request.start tags s.entityTags).map (call, ·)).toList ++ s.calls }
  | .proceed call newId now => (s.pending call).bind fun c =>
    if s.waits c then none
    else
      let (entityTags, next) := c.proceed tags s.entityTags newId now
      some {
        entityTags
        calls := (next.map (call, ·)).toList ++ s.calls.filter (·.1 ≠ call) }

end EntityTagSystem

def entityTagLts (tags : Uuid → Option Tag) (entityTags : EntityTagTable) :
    Lts EntityTagSystem EntityTagStep := ⟨{ entityTags }, fun s => s.step tags⟩

namespace EntityTagTable
variable {t t' : EntityTagTable}
variable {r : StoredRow EntityTagBase} {now : Timestamp}

theorem mem_liveRows {entityIds : List Uuid} {entityType : EntityDiscriminants}
    {tagId : Option Uuid} {p : EntityTag} (hp : p ∈ t.liveRows entityIds entityType tagId) :
    ∃ r ∈ t, r.toRow = p ∧ r.isLive = true := by
  obtain ⟨r, hr, rfl⟩ := mem_map.mp hp
  obtain ⟨hr, hand⟩ := mem_filter.mp hr
  simp only [Bool.and_eq_true] at hand
  exact ⟨r, hr, rfl, hand.1.1.1⟩

theorem mem_add {newId : Uuid} {base : EntityTagBase}
    (h : t.add newId now base = some t') :
    r ∈ t' ↔ r ∈ t ∨ r = ⟨EntityTag.new newId now base, none⟩ := by
  obtain ⟨-, hinsert⟩ := UniqueIndex.insert_eq_some h
  rw [Table.mem_insertMany hinsert, mem_singleton]

theorem validTo_of_mem_closed {rows : List EntityTag} {u : EntityTag}
    (hu : u ∈ closed now rows) : u.isLive = false := by
  obtain ⟨r, -, rfl⟩ := mem_map.mp hu
  rfl

theorem mem_of_mem_set {newId : Uuid → Uuid} {entity : TaggedEntity}
    {tagIds : List Uuid} {existing : List EntityTag}
    (h : t.set newId now entity tagIds existing = some t') (hr : r ∈ t') (hlive : r.isLive = true) :
    (r ∈ t ∧ ∀ p ∈ existing, p.id = r.id → p.base.tagId ∈ tagIds) ∨
      (r.base.entity = entity ∧ r.base.tagId ∈ tagIds ∧
        r.base.tagId ∉ existing.map (·.base.tagId)) := by
  refine Lts.invariant_of_foldlM (P := fun u : EntityTagTable => ∀ r ∈ u, r.isLive = true →
    (r ∈ t ∧ ∀ p ∈ existing, p.id = r.id → p.base.tagId ∈ tagIds) ∨
      (r.base.entity = entity ∧ r.base.tagId ∈ tagIds ∧
        r.base.tagId ∉ existing.map (·.base.tagId))) ?_ ?_ h r hr hlive
  · intro r hr hlive
    obtain ⟨hmem, hne⟩ := RowTable.mem_of_mem_update (fun u hu => validTo_of_mem_closed hu) hr hlive
    refine .inl ⟨hmem, fun p hp hid => ?_⟩
    by_contra htag
    have hremoved : p ∈ existing.filter fun r => r.base.tagId ∉ tagIds :=
      mem_filter.mpr ⟨hp, decide_eq_true htag⟩
    exact hne _ (mem_map_of_mem hremoved) hid
  · intro tagId htagId u u' hu hadd r hr hlive
    rcases (mem_add hadd).mp hr with hr | rfl
    · exact hu r hr hlive
    · obtain ⟨hmem, hnew⟩ := mem_filter.mp htagId
      exact .inr ⟨rfl, hmem, of_decide_eq_true hnew⟩

end EntityTagTable

theorem EntityTagCall.proceed_cases (tags : Uuid → Option Tag) (t : EntityTagTable)
    (newId : Uuid → Uuid) (now : Timestamp) (c : EntityTagCall) :
    (c.proceed tags t newId now).1 = t ∨
    (∃ entityId entityIds entityType tagId, c = .add (entityId :: entityIds) entityType tagId ∧
      t.add (newId tagId) now ⟨entityId, entityType, tagId⟩ = some (c.proceed tags t newId now).1) ∨
    (∃ entity tagIds existing, c = .replace entity tagIds existing ∧
      t.set newId now entity tagIds existing = some (c.proceed tags t newId now).1) ∨
    (∃ rows, c = .close rows ∧
      (c.proceed tags t newId now).1 = t.update (EntityTagTable.closed now rows)) := by
  cases c with
  | add entityIds entityType tagId =>
    cases entityIds with
    | nil => exact .inl rfl
    | cons entityId entityIds =>
      cases hadd : t.add (newId tagId) now ⟨entityId, entityType, tagId⟩ with
      | none =>
        left
        rw [EntityTagCall.proceed, hadd]
        rfl
      | some t' =>
        refine .inr (.inl ⟨entityId, entityIds, entityType, tagId, rfl, ?_⟩)
        rw [EntityTagCall.proceed, hadd]
        rfl
  | validate entity tagIds unseen =>
    left
    cases unseen <;> rfl
  | replace entity tagIds existing =>
    cases hset : t.set newId now entity tagIds existing with
    | none =>
      left
      rw [EntityTagCall.proceed, hset]
      rfl
    | some t' =>
      refine .inr (.inr (.inl ⟨entity, tagIds, existing, rfl, ?_⟩))
      rw [EntityTagCall.proceed, hset]
      rfl
  | close rows => exact .inr (.inr (.inr ⟨rows, rfl, rfl⟩))
  | validateSingleApp | lock => exact .inl rfl

end Scanopy
