import Scanopy.Snapshots.Intervals
import Scanopy.Tags.EntityTags

/-! Updates and deletions of tags beside the assignments. An update puts a closed copy of the row
beside it and starts the row anew, in one transaction; a deletion closes the row that it has read.
The history breaks where a call works on a row that is no longer live, or no longer as it was read.
-/

namespace Scanopy

open List Option

abbrev TagTable := RowTable TagBase

/-- `idx_tags_org_name_live`. -/
def liveTagNames : UniqueIndex (StoredRow TagBase) (Uuid × String) :=
  ⟨fun r => r.isLive, fun r => (r.base.organizationId, r.base.name)⟩

namespace TagTable

def getById (t : TagTable) (id : Uuid) : Option Tag := (t.find id).map (·.toRow)

/-- The copy that `close_and_clone` inserts, under an id of its own. -/
def closedCopy (newId : Uuid) (now : Timestamp) (live : StoredRow TagBase) : StoredRow TagBase :=
  ⟨{ live.toRow.makeClosedCopy now with id := newId }, none⟩

/-- `none` if there is no row of the id or a write is refused. What is stored of the new row is what
the caller has sent, but for the start. -/
def closeAndClone (t : TagTable) (newId : Uuid) (now : Timestamp) (newEntity : Tag) :
    Option TagTable := do
  let live ← t.find newEntity.id
  let t ← t.insertMany [closedCopy newId now live]
  liveTagNames.set t ⟨{ newEntity with validFrom := now }, live.snapshotId⟩

/-- The row that `delete` has to close, if it is not closed already. -/
def readDelete (t : TagTable) (id : Uuid) : Option Tag := (t.getById id).filter (·.isLive)

def writeDelete (t : TagTable) (now : Timestamp) (row : Tag) : TagTable :=
  t.update [{ row with validTo := some now }]

end TagTable

structure TagSystem where
  tags : TagTable
  deletes : List (ℕ × Tag) := []
  assignments : EntityTagSystem

inductive TagStep
  | update (tag : Tag) (newId : Uuid) (now : Timestamp)
  | readDelete (call : ℕ) (id : Uuid)
  | writeDelete (call : ℕ) (now : Timestamp)
  | assign (step : EntityTagStep)

namespace TagSystem
variable (s : TagSystem)

def pendingDelete (call : ℕ) : Option Tag := (s.deletes.find? (·.1 = call)).map Prod.snd

def step : TagStep → Option TagSystem
  | .update tag newId now => some { s with
      tags := (s.tags.closeAndClone newId now tag).getD s.tags }
  | .readDelete call id =>
    if (s.pendingDelete call).isSome then none
    else some { s with deletes := ((s.tags.readDelete id).map (call, ·)).toList ++ s.deletes }
  | .writeDelete call now => (s.pendingDelete call).map fun row => { s with
      tags := s.tags.writeDelete now row
      deletes := s.deletes.filter (·.1 ≠ call) }
  | .assign l => (s.assignments.step s.tags.getById l).map fun assignments => { s with assignments }

end TagSystem

def tagLts (tags : TagTable) (entityTags : EntityTagTable) : Lts TagSystem TagStep :=
  ⟨{ tags, assignments := { entityTags } }, TagSystem.step⟩

namespace TagTable
variable {t t' : TagTable} {newId : Uuid} {now : Timestamp} {newEntity : Tag}

structure Historic (t : TagTable) : Prop where
  live : ∀ r ∈ t, r.isLive = true → r.lineageId = none
  tiles : ∀ r ∈ t, r.lineageId = none → ∃ first, first ≤ r.validFrom ∧
    Tiles (t.copies r.id) (·.validFrom) (·.endTime) first r.validFrom

theorem Historic.isLive_eq_false (h : t.Historic) {id : Uuid} {c : StoredRow TagBase}
    (hc : c ∈ t.copies id) : c.isLive = false := by
  by_contra hlive
  have hnone := h.live c hc.1 (Bool.of_not_eq_false hlive)
  rw [hc.2] at hnone
  exact absurd hnone (some_ne_none _)

theorem historic_of_forall (h : ∀ r ∈ t, r.lineageId = none) : t.Historic := by
  refine ⟨fun r hr _ => h r hr, fun r hr _ => ⟨r.validFrom, le_refl _, ?_⟩⟩
  have hempty : t.copies r.id = ∅ := by
    refine Set.eq_empty_of_forall_notMem fun c hc => ?_
    have hnone := h c hc.1
    rw [hc.2] at hnone
    exact absurd hnone (some_ne_none _)
  rw [hempty]
  exact Tiles.empty _ _ _

theorem closeAndClone_eq_some (h : t.closeAndClone newId now newEntity = some t') :
    ∃ live ∈ t, live.id = newEntity.id ∧ (∀ r ∈ t, r.id ≠ newId) ∧ ∀ r, r ∈ t' ↔
      (r ∈ t ∧ r.id ≠ newEntity.id) ∨ r = closedCopy newId now live ∨
        r = ⟨{ newEntity with validFrom := now }, live.snapshotId⟩ := by
  obtain ⟨live, hfind, h⟩ := bind_eq_some_iff.mp h
  obtain ⟨t₁, hinsert, hset⟩ := bind_eq_some_iff.mp h
  obtain ⟨hlive, hid⟩ := Table.find_eq_some.mp hfind
  obtain ⟨-, rfl⟩ := UniqueIndex.set_eq_some hset
  have hfresh : ∀ r ∈ t, r.id ≠ newId := fun r hr =>
    (Table.insertMany_eq_some hinsert).2.2 r hr _ (mem_singleton_self _)
  have hmem : ∀ r, r ∈ t₁ ↔ r ∈ t ∨ r = closedCopy newId now live := by
    intro r
    rw [Table.mem_insertMany hinsert, mem_singleton]
  have hcopy : newId ≠ newEntity.id := fun hsame => hfresh live hlive (hid.trans hsame.symm)
  refine ⟨live, hlive, hid, hfresh, fun r => ?_⟩
  by_cases hkey : r.id = newEntity.id
  · constructor
    · exact fun hr => .inr (.inr (Table.eq_of_mem_set hr hkey))
    · rintro (⟨-, hne⟩ | rfl | rfl)
      · exact absurd hkey hne
      · exact absurd hkey hcopy
      · exact Table.mem_set_self ((hmem live).mpr (.inl hlive)) hid
  · have hne : r ≠ ⟨{ newEntity with validFrom := now }, live.snapshotId⟩ := by
      rintro rfl
      exact hkey rfl
    refine (Table.mem_set_of_ne (t := t₁) hkey).trans ((hmem r).trans ?_)
    simp [hkey, hne]

theorem Historic.closeAndClone (ht : t.Historic) (h : t.closeAndClone newId now newEntity = some t')
    (hlive : ∀ r ∈ t, r.id = newEntity.id → r.isLive = true ∧ r.validFrom ≤ now)
    (hlineage : newEntity.lineageId = none) : t'.Historic := by
  obtain ⟨live, hmem, hid, hfresh, hrows⟩ := closeAndClone_eq_some h
  obtain ⟨hopen, hnow⟩ := hlive live hmem hid
  have horiginal : live.lineageId = none := ht.live live hmem hopen
  -- of the copies, only those of the updated tag become more
  have hcopies : ∀ id c, c ∈ t'.copies id ↔
      c ∈ t.copies id ∨ (id = live.id ∧ c = closedCopy newId now live) := by
    intro id c
    constructor
    · rintro ⟨hc, hcopy⟩
      rcases (hrows c).mp hc with ⟨hc, -⟩ | rfl | rfl
      · exact .inl ⟨hc, hcopy⟩
      · exact .inr ⟨(some.inj hcopy).symm, rfl⟩
      · exact absurd (hcopy.symm.trans hlineage) (some_ne_none _)
    · rintro (⟨hc, hcopy⟩ | ⟨rfl, rfl⟩)
      · refine ⟨(hrows c).mpr (.inl ⟨hc, fun hsame => ?_⟩), hcopy⟩
        rw [t.eq_of_key hc hmem (hsame.trans hid.symm), horiginal] at hcopy
        exact absurd hcopy.symm (some_ne_none _)
      · exact ⟨(hrows _).mpr (.inr (.inl rfl)), rfl⟩
  refine ⟨fun r hr hrlive => ?_, fun r hr hroriginal => ?_⟩
  · rcases (hrows r).mp hr with ⟨hr, -⟩ | rfl | rfl
    · exact ht.live r hr hrlive
    · exact absurd hrlive Bool.false_ne_true
    · exact hlineage
  · rcases (hrows r).mp hr with ⟨hr, hne⟩ | rfl | rfl
    · have hsame : t'.copies r.id = t.copies r.id := by
        ext c
        rw [hcopies, or_iff_left]
        exact fun hc => hne (hc.1.trans hid)
      rw [hsame]
      exact ht.tiles r hr hroriginal
    · exact absurd hroriginal (some_ne_none _)
    · obtain ⟨first, hfirst, htiles⟩ := ht.tiles live hmem horiginal
      refine ⟨first, hfirst.trans hnow, ?_⟩
      have hinsert : t'.copies newEntity.id = insert (closedCopy newId now live) (t.copies live.id) := by
        ext c
        rw [hcopies, ← hid, Set.mem_insert_iff, or_comm, and_iff_right rfl]
      show Tiles (t'.copies newEntity.id) _ _ first now
      rw [hinsert]
      exact htiles.insert hfirst rfl rfl hnow

variable {row : Tag}

theorem Historic.writeDelete (ht : t.Historic) (hrow : row.lineageId = none)
    (hstored : ∃ r ∈ t, r.id = row.id ∧ r.lineageId = none)
    (hstart : ∀ r ∈ t, r.id = row.id → r.validFrom = row.validFrom) :
    (t.writeDelete now row).Historic := by
  have hcases : ∀ r', r' ∈ t.writeDelete now row → ∃ r ∈ t, r.id = r'.id ∧
      r.validFrom = r'.validFrom ∧ r.lineageId = r'.lineageId ∧ (r = r' ∨ r'.isLive = false) := by
    intro r' hr'
    obtain ⟨r, hr, rfl⟩ := RowTable.mem_update_singleton.mp hr'
    refine ⟨r, hr, ?_⟩
    split_ifs with hid
    · obtain ⟨r₀, hr₀, hid₀, hnone⟩ := hstored
      have hsame : r₀ = r := t.eq_of_key hr₀ hr (hid₀.trans hid)
      exact ⟨hid.symm, hstart r hr hid.symm, hsame ▸ hnone.trans hrow.symm, .inr rfl⟩
    · exact ⟨rfl, rfl, rfl, .inl rfl⟩
  have hcopies : ∀ id, (t.writeDelete now row).copies id = t.copies id := by
    intro id
    ext c
    constructor
    · rintro ⟨hc, hcopy⟩
      obtain ⟨r, hr, rfl⟩ := RowTable.mem_update_singleton.mp hc
      split_ifs at hcopy ⊢ with hid
      · exact absurd (hcopy.symm.trans hrow) (some_ne_none _)
      · exact ⟨hr, hcopy⟩
    · rintro ⟨hc, hcopy⟩
      refine ⟨RowTable.mem_update_singleton.mpr ⟨c, hc, ?_⟩, hcopy⟩
      rw [if_neg]
      intro hid
      obtain ⟨r₀, hr₀, hid₀, hnone⟩ := hstored
      rw [t.eq_of_key hr₀ hc (hid₀.trans hid), hcopy] at hnone
      exact absurd hnone (some_ne_none _)
  refine ⟨fun r' hr' hlive => ?_, fun r' hr' horiginal => ?_⟩
  · obtain ⟨r, hr, -, -, -, rfl | hclosed⟩ := hcases r' hr'
    · exact ht.live r hr hlive
    · exact absurd (hclosed.symm.trans hlive) Bool.false_ne_true
  · obtain ⟨r, hr, hid, hfrom, hlineage, -⟩ := hcases r' hr'
    rw [hcopies, ← hid, ← hfrom]
    exact ht.tiles r hr (hlineage.trans horiginal)

end TagTable

def EntityTagCall.insertedTags : EntityTagCall → List Uuid
  | add (_ :: _) _ tagId => [tagId]
  | replace _ tagIds existing => tagIds.filter fun tagId => tagId ∉ existing.map (·.base.tagId)
  | _ => []

theorem EntityTagSystem.mem_of_step {tags : Uuid → Option Tag} {s s' : EntityTagSystem}
    {l : EntityTagStep} (h : s.step tags l = some s') {a : StoredRow EntityTagBase}
    (ha : a ∈ s'.entityTags) (hlive : a.isLive = true) :
    a ∈ s.entityTags ∨ ∃ call newId now, l = .proceed call newId now ∧
      ∃ c ∈ s.pending call, a.base.tagId ∈ c.insertedTags := by
  cases l with
  | start call request =>
    rw [EntityTagSystem.step] at h
    split_ifs at h
    cases h
    exact .inl ha
  | proceed call newId now =>
    obtain ⟨c, hc, hstep⟩ := bind_eq_some_iff.mp h
    split_ifs at hstep
    cases hstep
    replace ha : a ∈ (c.proceed tags s.entityTags newId now).1 := ha
    rcases EntityTagCall.proceed_cases tags s.entityTags newId now c with hsame |
      ⟨entityId, entityIds, entityType, tagId, rfl, hadd⟩ | ⟨entity, tagIds, existing, rfl, hset⟩ |
      ⟨rows, rfl, hclose⟩
    · rw [hsame] at ha
      exact .inl ha
    · rcases (EntityTagTable.mem_add hadd).mp ha with ha | rfl
      · exact .inl ha
      · exact .inr ⟨call, newId, now, rfl, _, hc, mem_singleton_self _⟩
    · rcases EntityTagTable.mem_of_mem_set hset ha hlive with ⟨ha, -⟩ | ⟨-, htag, hnew⟩
      · exact .inl ha
      · refine .inr ⟨call, newId, now, rfl, _, hc, ?_⟩
        exact mem_filter.mpr ⟨htag, decide_eq_true hnew⟩
    · rw [hclose] at ha
      refine .inl (RowTable.mem_of_mem_update ?_ ha hlive).1
      exact fun u hu => EntityTagTable.validTo_of_mem_closed hu

namespace TagSystem
variable {s s' : TagSystem}
variable {row : Tag} {l : TagStep} {now : Timestamp} {call : ℕ}

def Visible (s : TagSystem) (tagId : Uuid) : Prop :=
  ∃ r ∈ s.tags.rows, r.id = tagId ∧ r.isLive = true ∧ r.lineageId = none

structure Consistent (s : TagSystem) : Prop where
  disjoint : ∀ r ∈ s.tags, r.lineageId = none →
    (s.tags.versions r.id).PairwiseDisjoint StoredRow.interval
  gapless : ∀ r ∈ s.tags, r.lineageId = none →
    (⋃ v ∈ s.tags.versions r.id, v.interval).OrdConnected
  assigned : ∀ a ∈ s.assignments.entityTags, a.isLive = true → s.Visible a.base.tagId

/-- The rows that are closed in `s` are closed in `s'`. -/
def StaysDeleted (s s' : TagSystem) : Prop :=
  ∀ r ∈ s.tags, r.isLive = false → ∀ r' ∈ s'.tags, r'.id = r.id → r'.isLive = false

/-- An update finds a live row that does not start later than now, and does not close it; a deletion
finds the start that it has read, and nothing that the tag is assigned to; and a tag that is assigned
can be seen. -/
def Orderly (s : TagSystem) : TagStep → Prop
  | .update tag _ now => tag.validTo = none ∧ tag.lineageId = none ∧
      ∀ r ∈ s.tags.rows, r.id = tag.id → r.isLive = true ∧ r.validFrom ≤ now
  | .readDelete _ _ => True
  | .writeDelete call _ => ∀ row ∈ s.pendingDelete call,
      (∀ r ∈ s.tags.rows, r.id = row.id → r.validFrom = row.validFrom) ∧
        ∀ a ∈ s.assignments.entityTags.rows, a.isLive = true → a.base.tagId ≠ row.id
  | .assign (.start _ _) => True
  | .assign (.proceed call _ _) =>
    ∀ c ∈ s.assignments.pending call, ∀ tagId ∈ c.insertedTags, s.Visible tagId

instance (tagId : Uuid) : Decidable (s.Visible tagId) :=
  inferInstanceAs (Decidable (∃ r ∈ s.tags.rows, _))

instance (s : TagSystem) : DecidablePred s.Orderly
  | .update tag _ _ => inferInstanceAs (Decidable (tag.validTo = none ∧ _))
  | .writeDelete call _ => inferInstanceAs (Decidable (∀ row ∈ s.pendingDelete call, _))
  | .assign (.proceed call _ _) =>
    inferInstanceAs (Decidable (∀ c ∈ s.assignments.pending call, _))
  | .readDelete _ _ | .assign (.start _ _) => inferInstanceAs (Decidable True)

/-- What holds in every state of an orderly run. The rows that deletions wait for are no copies. -/
structure Sound (s : TagSystem) : Prop where
  historic : s.tags.Historic
  assigned : ∀ a ∈ s.assignments.entityTags, a.isLive = true → s.Visible a.base.tagId
  deletes : ∀ d ∈ s.deletes, d.2.lineageId = none ∧
    ∃ r ∈ s.tags, r.id = d.2.id ∧ r.lineageId = none

theorem Sound.of_pendingDelete (hs : s.Sound)
    (hrow : s.pendingDelete call = some row) : row.lineageId = none ∧
      ∃ r ∈ s.tags, r.id = row.id ∧ r.lineageId = none := by
  obtain ⟨d, hd, rfl⟩ := map_eq_some_iff.mp hrow
  exact hs.deletes d (mem_of_find?_eq_some hd)

theorem Sound.consistent (hs : s.Sound) : s.Consistent := by
  have hclosed : ∀ id, ∀ c ∈ s.tags.copies id, c.isLive = false :=
    fun id c hc => hs.historic.isLive_eq_false hc
  refine ⟨fun r hr horiginal => ?_, fun r hr horiginal => ?_, hs.assigned⟩
  · obtain ⟨first, -, htiles⟩ := hs.historic.tiles r hr horiginal
    exact RowTable.pairwiseDisjoint_of_tiles hr horiginal (hclosed r.id) htiles
  · obtain ⟨first, hfirst, htiles⟩ := hs.historic.tiles r hr horiginal
    exact RowTable.ordConnected_of_tiles hr horiginal (hclosed r.id) htiles hfirst

theorem Sound.update (hs : s.Sound) {tag : Tag} {newId : Uuid} {tags : TagTable}
    (horderly : s.Orderly (.update tag newId now))
    (h : s.tags.closeAndClone newId now tag = some tags) : { s with tags }.Sound := by
  obtain ⟨hopen, hlineage, hlive⟩ := horderly
  obtain ⟨live, hmem, hid, hfresh, hrows⟩ := TagTable.closeAndClone_eq_some h
  refine ⟨hs.historic.closeAndClone h hlive hlineage, fun a ha halive => ?_, fun d hd => ?_⟩
  · obtain ⟨r, hr, hrid, hrlive, hroriginal⟩ := hs.assigned a ha halive
    by_cases hsame : r.id = tag.id
    · refine ⟨_, (hrows _).mpr (.inr (.inr rfl)), hsame.symm.trans hrid, ?_, hlineage⟩
      show tag.validTo.isNone = true
      rw [hopen]
      rfl
    · exact ⟨r, (hrows r).mpr (.inl ⟨hr, hsame⟩), hrid, hrlive, hroriginal⟩
  · obtain ⟨hnone, r, hr, hrid, hroriginal⟩ := hs.deletes d hd
    refine ⟨hnone, ?_⟩
    by_cases hsame : r.id = tag.id
    · exact ⟨_, (hrows _).mpr (.inr (.inr rfl)), hsame.symm.trans hrid, hlineage⟩
    · exact ⟨r, (hrows r).mpr (.inl ⟨hr, hsame⟩), hrid, hroriginal⟩

theorem Sound.readDelete (hs : s.Sound) {id : Uuid}
    (h : s.tags.readDelete id = some row) :
    row.lineageId = none ∧ ∃ r ∈ s.tags, r.id = row.id ∧ r.lineageId = none := by
  obtain ⟨hfound, hlive⟩ := filter_eq_some_iff.mp h
  obtain ⟨r, hr, rfl⟩ := map_eq_some_iff.mp hfound
  obtain ⟨hr, -⟩ := Table.find_eq_some.mp hr
  have hnone := hs.historic.live r hr hlive
  exact ⟨hnone, r, hr, rfl, hnone⟩

theorem Sound.writeDelete (hs : s.Sound)
    (horderly : s.Orderly (.writeDelete call now)) (hrow : s.pendingDelete call = some row)
    {deletes : List (ℕ × Tag)} (hdeletes : ∀ d ∈ deletes, d ∈ s.deletes) :
    { s with tags := s.tags.writeDelete now row, deletes }.Sound := by
  obtain ⟨hstart, hunused⟩ := horderly row hrow
  obtain ⟨hnone, hstored⟩ := hs.of_pendingDelete hrow
  refine ⟨hs.historic.writeDelete hnone hstored hstart, fun a ha halive => ?_, fun d hd => ?_⟩
  · obtain ⟨r, hr, hrid, hrest⟩ := hs.assigned a ha halive
    refine ⟨r, RowTable.mem_update_singleton.mpr ⟨r, hr, ?_⟩, hrid, hrest⟩
    rw [if_neg]
    exact fun hid => hunused a ha halive (hrid.symm.trans hid.symm)
  · obtain ⟨hdnone, r, hr, hrid, hroriginal⟩ := hs.deletes d (hdeletes d hd)
    refine ⟨hdnone, _, RowTable.mem_update_singleton.mpr ⟨r, hr, rfl⟩, ?_⟩
    split_ifs with hid
    · exact ⟨hid.trans hrid, hnone⟩
    · exact ⟨hrid, hroriginal⟩

theorem Sound.step (hs : s.Sound) (horderly : s.Orderly l)
    (h : s.step l = some s') : s'.Sound := by
  cases l with
  | update tag newId now =>
    cases h
    cases hupdate : s.tags.closeAndClone newId now tag with
    | none => exact hs
    | some tags => exact hs.update horderly hupdate
  | readDelete call id =>
    rw [TagSystem.step] at h
    split_ifs at h
    cases h
    refine ⟨hs.historic, hs.assigned, fun d hd => ?_⟩
    rcases mem_append.mp hd with hd | hd
    · rw [mem_toList] at hd
      obtain ⟨row, hrow, rfl⟩ := map_eq_some_iff.mp hd
      exact hs.readDelete hrow
    · exact hs.deletes d hd
  | writeDelete call now =>
    obtain ⟨row, hrow, rfl⟩ := map_eq_some_iff.mp h
    exact hs.writeDelete horderly hrow fun d hd => mem_of_mem_filter hd
  | assign l =>
    obtain ⟨assignments, hassign, rfl⟩ := map_eq_some_iff.mp h
    refine ⟨hs.historic, fun a ha halive => ?_, hs.deletes⟩
    rcases EntityTagSystem.mem_of_step hassign ha halive with hold |
      ⟨call, newId, now, rfl, c, hc, htag⟩
    · exact hs.assigned a hold halive
    · exact horderly c hc _ htag

theorem staysDeleted_step (horderly : s.Orderly l) (h : s.step l = some s') :
    s.StaysDeleted s' := by
  intro r hr hclosed r' hr' hid
  cases l with
  | update tag newId now =>
    cases h
    cases hupdate : s.tags.closeAndClone newId now tag with
    | none =>
      rw [hupdate] at hr'
      rwa [s.tags.eq_of_key hr' hr hid]
    | some tags =>
      rw [hupdate] at hr'
      obtain ⟨live, hmem, -, hfresh, hrows⟩ := TagTable.closeAndClone_eq_some hupdate
      rcases (hrows r').mp hr' with ⟨hold, -⟩ | rfl | rfl
      · rwa [s.tags.eq_of_key hold hr hid]
      · rfl
      · have hopen := (horderly.2.2 r hr hid.symm).1
        exact absurd (hclosed.symm.trans hopen) Bool.false_ne_true
  | readDelete call id =>
    rw [TagSystem.step] at h
    split_ifs at h
    cases h
    rwa [s.tags.eq_of_key hr' hr hid]
  | writeDelete call now =>
    obtain ⟨row, -, rfl⟩ := map_eq_some_iff.mp h
    obtain ⟨r₀, hr₀, rfl⟩ := RowTable.mem_update_singleton.mp hr'
    split_ifs at hid ⊢ with hrow
    · rfl
    · rwa [s.tags.eq_of_key hr₀ hr hid]
  | assign l =>
    obtain ⟨assignments, -, rfl⟩ := map_eq_some_iff.mp h
    rwa [s.tags.eq_of_key hr' hr hid]

theorem exists_row_of_step (h : s.step l = some s') :
    ∀ r ∈ s.tags, ∃ r' ∈ s'.tags, r'.id = r.id := by
  intro r hr
  cases l with
  | update tag newId now =>
    cases h
    cases hupdate : s.tags.closeAndClone newId now tag with
    | none => exact ⟨r, hr, rfl⟩
    | some tags =>
      obtain ⟨live, -, -, -, hrows⟩ := TagTable.closeAndClone_eq_some hupdate
      by_cases hid : r.id = tag.id
      · exact ⟨_, (hrows _).mpr (.inr (.inr rfl)), hid.symm⟩
      · exact ⟨r, (hrows r).mpr (.inl ⟨hr, hid⟩), rfl⟩
  | readDelete call id =>
    rw [TagSystem.step] at h
    split_ifs at h
    cases h
    exact ⟨r, hr, rfl⟩
  | writeDelete call now =>
    obtain ⟨row, -, rfl⟩ := map_eq_some_iff.mp h
    refine ⟨_, RowTable.mem_update_singleton.mpr ⟨r, hr, rfl⟩, ?_⟩
    split_ifs with hid
    · exact hid
    · rfl
  | assign l =>
    obtain ⟨assignments, -, rfl⟩ := map_eq_some_iff.mp h
    exact ⟨r, hr, rfl⟩

end TagSystem

variable {tags : TagTable} {entityTags : EntityTagTable}

theorem staysDeleted_run {s s' : TagSystem} {ls : List TagStep}
    (hguarded : (tagLts tags entityTags).Guarded TagSystem.Orderly s ls)
    (h : (tagLts tags entityTags).run s ls = some s') : s.StaysDeleted s' := by
  induction ls generalizing s with
  | nil =>
    cases h
    intro r hr hclosed r' hr' hid
    rwa [Table.eq_of_key hr' hr hid]
  | cons l ls ih =>
    obtain ⟨s₁, hstep, hrun⟩ := bind_eq_some_iff.mp h
    intro r hr hclosed r' hr' hid
    obtain ⟨r₁, hr₁, hid₁⟩ := TagSystem.exists_row_of_step hstep r hr
    have hclosed₁ := TagSystem.staysDeleted_step hguarded.1 hstep r hr hclosed r₁ hr₁ hid₁
    exact ih (hguarded.2 s₁ hstep) hrun r₁ hr₁ hclosed₁ r' hr' (hid.trans hid₁.symm)

/-- In every run in which updates find live tags, deletions the tags that they have read, without
assignments, and assignments tags that can be seen, the history of every tag is without overlaps and
gaps, live assignments are of tags that can be seen, and a deleted tag stays deleted. -/
theorem consistent_of_orderly (tags : TagTable) (entityTags : EntityTagTable)
    (hinit : tags.Historic)
    (hassigned : ∀ a ∈ entityTags, a.isLive = true →
      (tagLts tags entityTags).init.Visible a.base.tagId)
    (s : TagSystem) (hs : (tagLts tags entityTags).ReachableVia TagSystem.Orderly s) :
    s.Consistent ∧ ∀ ls s', (tagLts tags entityTags).Guarded TagSystem.Orderly s ls →
      (tagLts tags entityTags).run s ls = some s' → s.StaysDeleted s' := by
  have hstart : (tagLts tags entityTags).init.Sound :=
    ⟨hinit, hassigned, fun d hd => absurd hd not_mem_nil⟩
  have hsound : s.Sound :=
    hs.invariant hstart fun _ _ _ _ hsound horderly hstep => hsound.step horderly hstep
  exact ⟨hsound.consistent, fun ls s' hguarded hrun => staysDeleted_run hguarded hrun⟩

section Rename

def officeTags : TagTable := ⟨[⟨⟨7, 0, 0, none, none, ⟨"shop", none, 1, true⟩⟩, none⟩], by decide⟩

def noAssignments : EntityTagTable := ⟨[], List.nodup_nil⟩

def renamedTag : Tag := ⟨7, 0, 0, none, none, ⟨"web shop", none, 1, true⟩⟩

def renameRun : List TagStep :=
  [.assign (.start 0 (.bulkAddTag [20] .host 7 1)), .assign (.proceed 0 (fun _ => 100) 1),
    .update renamedTag 50 2, .assign (.start 1 (.removeTag (20, .host) 7)),
    .assign (.proceed 1 (fun _ => 0) 3), .readDelete 0 7, .writeDelete 0 4]

theorem historic_officeTags : officeTags.Historic :=
  TagTable.historic_of_forall (by decide +kernel : ∀ r ∈ officeTags.rows, r.lineageId = none)

theorem consistent_rename : ∃ s, (tagLts officeTags noAssignments).run
    (tagLts officeTags noAssignments).init renameRun = some s ∧ s.Consistent := by
  obtain ⟨s, hs⟩ := isSome_iff_exists.mp (show ((tagLts officeTags noAssignments).run
    (tagLts officeTags noAssignments).init renameRun).isSome = true by decide +kernel)
  have hreach : (tagLts officeTags noAssignments).ReachableVia TagSystem.Orderly s :=
    Lts.reachableVia_of_run .init (by decide +kernel) hs
  refine ⟨s, hs, (consistent_of_orderly officeTags noAssignments historic_officeTags ?_ s hreach).1⟩
  exact fun a ha => absurd ha not_mem_nil

/-- A tag that is deleted becomes live again when it is renamed. -/
theorem not_consistent : ¬ ∀ (tags : TagTable) (entityTags : EntityTagTable), tags.Historic →
    (∀ a ∈ entityTags, a.isLive = true → (tagLts tags entityTags).init.Visible a.base.tagId) →
    ∀ s, (tagLts tags entityTags).Reachable s → s.Consistent ∧
      ∀ ls s', (tagLts tags entityTags).run s ls = some s' → s.StaysDeleted s' := by
  intro h
  obtain ⟨s, hs, r, hr, hclosed, s', hs', r', hr', hid, hlive⟩ : ∃ s,
      (tagLts officeTags noAssignments).run (tagLts officeTags noAssignments).init
        [.readDelete 0 7, .writeDelete 0 1] = some s ∧ ∃ r ∈ s.tags.rows, r.isLive = false ∧ ∃ s',
      (tagLts officeTags noAssignments).run s [.update renamedTag 50 2] = some s' ∧
        ∃ r' ∈ s'.tags.rows, r'.id = r.id ∧ r'.isLive = true :=
    ⟨_, rfl, _, mem_cons_self, by decide +kernel, _, rfl, _, mem_cons_self,
      by decide +kernel, by decide +kernel⟩
  have hstays := (h officeTags noAssignments historic_officeTags
    (fun a ha => absurd ha not_mem_nil) s (Lts.reachable_of_run hs)).2 _ s' hs'
  exact absurd ((hstays r hr hclosed r' hr' hid).symm.trans hlive) Bool.false_ne_true

end Rename

end Scanopy
