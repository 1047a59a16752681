import Scanopy.Dependencies.Members
import Scanopy.Lib.Commits
import Scanopy.Tags.Replacement

/-! Creating and updating a dependency. Its row, its members and its tags are written one after the
other, each in a transaction of its own. -/

namespace Scanopy

open List

open Graph (DependencyMembers)
open MemberTable (mailSave)

/-- `B` are the columns of a dependency, the kind of its members among them. -/
structure DependencyStore (B : Type) where
  dependencies : RowTable B
  members : MemberTable
  entityTags : EntityTagTable

inductive DependencyStage
  | row | members | tags | event
  deriving DecidableEq

/-- A call of `create` or `update`, and what it reads and draws. -/
structure DependencyCall (B : Type) where
  isUpdate : Bool
  row : Row B
  tagIds : List Uuid
  /-- The organization of the caller; without one the tags are left. -/
  organizationId : Option Uuid
  /-- The id of a row that comes without one. -/
  drawnId : Uuid
  /-- Whether the constraints of the table let the row in. -/
  admits : Row B → Bool
  save : MemberSave
  tags : Uuid → Option Tag
  newTagRowId : Uuid → Uuid
  now : Timestamp
  /-- Whether the database, or the event bus, answers in a stage. -/
  answers : DependencyStage → Bool

namespace DependencyCall
variable {B : Type} (call : DependencyCall B)

def entity : Row B :=
  if !call.isUpdate && call.row.id = Uuid.nil then { call.row with id := call.drawnId } else call.row

def writeRow (t : RowTable B) : Option (RowTable B) :=
  if !call.answers .row || !call.admits call.entity then none
  else if call.isUpdate then
    -- `Could not find dependency`
    if (t.find call.entity.id).isNone then none else some (t.update [call.entity])
  else t.insertMany [⟨call.entity, none⟩]

def writeMembers (t : MemberTable) : Option MemberTable :=
  if call.answers .members then { call.save with dependencyId := call.entity.id }.apply t else none

def writeTags (t : EntityTagTable) : Option EntityTagTable :=
  match call.organizationId with
  | some organizationId =>
    if call.answers .tags then setTags call.tags t call.newTagRowId call.now
      (call.entity.id, .dependency) call.tagIds organizationId
    else none
  | none => some t

def run (s : DependencyStore B) : DependencyStore B × Option DependencyStage :=
  match call.writeRow s.dependencies with
  | none => (s, some .row)
  | some dependencies =>
    match call.writeMembers s.members with
    | none => ({ s with dependencies }, some .members)
    | some members =>
      match call.writeTags s.entityTags with
      | none => ({ s with dependencies, members }, some .tags)
      | some entityTags =>
        (⟨dependencies, members, entityTags⟩, if call.answers .event then none else some .event)

structure StopsBefore (s s' : DependencyStore B) (stage : DependencyStage) : Prop where
  row : if stage = .row then s'.dependencies = s.dependencies
    else call.writeRow s.dependencies = some s'.dependencies
  members : if stage = .row ∨ stage = .members then s'.members = s.members
    else call.writeMembers s.members = some s'.members
  tags : if stage = .event then call.writeTags s.entityTags = some s'.entityTags
    else s'.entityTags = s.entityTags
  /-- A new row stays behind unless it was refused itself. -/
  created : call.isUpdate = false → (s' = s ↔ stage = .row)
  otherRows : ∀ r, r.id ≠ call.entity.id → (r ∈ s'.dependencies ↔ r ∈ s.dependencies)
  otherMembers : ∀ r, r.base.dependencyId ≠ call.entity.id →
    (r ∈ s'.members ↔ r ∈ s.members)

def UndoesFailingStage : Prop :=
  ∀ s, ∀ stage ∈ (call.run s).2, call.StopsBefore s (call.run s).1 stage

variable {call} {t t' : RowTable B}

theorem mem_writeRow (h : call.writeRow t = some t') {r : StoredRow B} (hid : r.id ≠ call.entity.id) :
    r ∈ t' ↔ r ∈ t := by
  unfold writeRow at h
  split_ifs at h
  · cases h
    refine RowTable.mem_update.trans ⟨?_, fun hr => ⟨r, hr, ?_⟩⟩
    · rintro ⟨r₀, hr₀, rfl⟩
      have hid₀ : r₀.id ≠ call.entity.id := by rwa [RowTable.id_writeRow] at hid
      rwa [show RowTable.writeRow [call.entity] r₀ = r₀ from Table.updateRow_of_forall_ne _
        fun u hu => by rw [mem_singleton.mp hu]; exact hid₀.symm]
    · exact Table.updateRow_of_forall_ne _ fun u hu => by
        rw [mem_singleton.mp hu]
        exact hid.symm
  · rw [Table.mem_insertMany h, mem_singleton]
    refine or_iff_left fun heq => hid ?_
    rw [heq]

theorem writeRow_ne (hcreate : call.isUpdate = false) (h : call.writeRow t = some t') : t' ≠ t := by
  unfold writeRow at h
  rw [hcreate, if_neg Bool.false_ne_true] at h
  split_ifs at h
  have hrows := (Table.insertMany_eq_some h).1
  rintro rfl
  have hlength := congrArg List.length hrows
  simp at hlength

theorem mem_writeMembers {m m' : MemberTable} (h : call.writeMembers m = some m') {r : MemberRow}
    (hid : r.base.dependencyId ≠ call.entity.id) : r ∈ m' ↔ r ∈ m := by
  unfold writeMembers at h
  split_ifs at h
  show r ∈ m'.rows ↔ r ∈ m.rows
  rw [(MemberTable.rows_apply h).1, mem_append, mem_filter]
  have hnot : r ∉ MemberSave.records { call.save with dependencyId := call.entity.id } :=
    fun hr => hid (MemberSave.dependencyId_of_mem_records hr)
  simp [hnot, hid]

theorem undoesFailingStage (call : DependencyCall B) : call.UndoesFailingStage := by
  intro s stage hstage
  unfold run at hstage ⊢
  cases hrow : call.writeRow s.dependencies with
  | none =>
    rw [hrow] at hstage
    cases hstage
    exact ⟨rfl, rfl, rfl, fun _ => iff_of_true rfl rfl, fun _ _ => Iff.rfl, fun _ _ => Iff.rfl⟩
  | some dependencies =>
    have hcreated : call.isUpdate = false → dependencies ≠ s.dependencies :=
      fun hcreate => writeRow_ne hcreate hrow
    have hrows := fun r hid => mem_writeRow (r := r) hrow hid
    rw [hrow] at hstage
    cases hmembers : call.writeMembers s.members with
    | none =>
      simp only [hmembers] at hstage ⊢
      cases hstage
      refine ⟨hrow, rfl, rfl, fun hcreate => iff_of_false (fun heq => ?_) nofun, hrows,
        fun _ _ => Iff.rfl⟩
      exact hcreated hcreate (congrArg DependencyStore.dependencies heq)
    | some members =>
      have hothers := fun r hid => mem_writeMembers (r := r) hmembers hid
      simp only [hmembers] at hstage ⊢
      cases htags : call.writeTags s.entityTags with
      | none =>
        simp only [htags] at hstage ⊢
        cases hstage
        refine ⟨hrow, hmembers, rfl, fun hcreate => iff_of_false (fun heq => ?_) nofun, hrows,
          hothers⟩
        exact hcreated hcreate (congrArg DependencyStore.dependencies heq)
      | some entityTags =>
        simp only [htags] at hstage ⊢
        split_ifs at hstage
        · exact absurd hstage nofun
        · cases hstage
          refine ⟨hrow, hmembers, htags, fun hcreate => iff_of_false (fun heq => ?_) nofun, hrows,
            hothers⟩
          exact hcreated hcreate (congrArg DependencyStore.dependencies heq)

end DependencyCall

section Mail

def mailCall : DependencyCall DependencyBase where
  isUpdate := false
  row := ⟨3, 5, 5, none, none, ⟨"Mail", 2, none⟩⟩
  tagIds := []
  organizationId := some 1
  drawnId := 9
  admits := fun _ => true
  save := mailSave 3 (.bindings [23]) 100
  tags := fun _ => none
  newTagRowId := id
  now := 5
  answers := fun _ => true

/-- The dependency is there without its member. -/
theorem not_atomic_run : ¬ ∀ (B : Type) (call : DependencyCall B), Commits.Atomic call.run := by
  intro h
  let s : DependencyStore DependencyBase := ⟨⟨[], nodup_nil⟩, ⟨[], nodup_nil⟩, ⟨[], nodup_nil⟩⟩
  have hfails : (mailCall.run s).2 = some .members := by decide +kernel
  have hrow : (mailCall.run s).1.dependencies.rows.length = 1 := by decide +kernel
  rw [h DependencyBase mailCall s (by rw [hfails]; exact nofun)] at hrow
  exact absurd hrow (by decide)

end Mail

end Scanopy
