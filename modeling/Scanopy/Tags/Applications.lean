import Scanopy.Tags.EntityTags

/-! Application tags in every run of the calls. That an entity has one at most is checked before a
tag is added, by some of the calls, and holds where the check would still pass at the write. -/

namespace Scanopy
open List Option RowTable EntityTagTable
variable {tags : Uuid → Option Tag}
variable {c : EntityTagCall} {t : EntityTagTable} {now : Timestamp} {newId : Uuid → Uuid}

namespace EntityTagTable
variable {t t' : EntityTagTable} {newId : Uuid → Uuid} {now : Timestamp} {entity : TaggedEntity}
  {tagIds : List Uuid} {existing : List EntityTag}
variable {rows : List EntityTag}

/-- The row is stored, perhaps closed meanwhile. -/
def HasRead (t : EntityTagTable) (p : EntityTag) : Prop := ∃ r ∈ t, r.id = p.id ∧ r.base = p.base

/-- Every row of `t` is still there. -/
def Kept (t t' : EntityTagTable) : Prop := ∀ r ∈ t, t'.HasRead r.toRow

theorem Kept.refl (t : EntityTagTable) : Kept t t := fun r hr => ⟨r, hr, rfl, rfl⟩

theorem HasRead.of_kept {p : EntityTag} (hp : t.HasRead p) (h : Kept t t') : t'.HasRead p := by
  obtain ⟨r, hr, hid, hbase⟩ := hp
  obtain ⟨r', hr', hid', hbase'⟩ := h r hr
  exact ⟨r', hr', hid'.trans hid, hbase'.trans hbase⟩

theorem Kept.trans {t'' : EntityTagTable} (h : Kept t t') (h' : Kept t' t'') : Kept t t'' :=
  fun r hr => (h r hr).of_kept h'

theorem kept_add {newId : Uuid} {base : EntityTagBase} (h : t.add newId now base = some t') :
    Kept t t' := fun r hr => ⟨r, (mem_add h).mpr (.inl hr), rfl, rfl⟩

theorem kept_update (hrows : ∀ p ∈ rows, t.HasRead p) :
    Kept t (t.update (closed now rows)) := by
  intro r hr
  refine ⟨_, mem_update.mpr ⟨r, hr, rfl⟩, id_writeRow _ r, ?_⟩
  refine base_writeRow fun u hu hid => ?_
  obtain ⟨p, hp, rfl⟩ := List.mem_map.mp hu
  obtain ⟨r₀, hr₀, hid₀, hbase₀⟩ := hrows p hp
  have hsame : r₀ = r := t.eq_of_key hr₀ hr (hid₀.trans hid)
  rw [← hsame]
  exact hbase₀.symm

theorem holds_update (hold : liveAssignments.Holds t) :
    liveAssignments.Holds (t.update (closed now rows)) := by
  refine hold.mono fun r' hr' hlive => ?_
  have hmem := mem_of_mem_update (fun u hu => validTo_of_mem_closed hu) hr' hlive
  exact ⟨r', hmem.1, hlive, rfl, rfl⟩

theorem holds_set (hold : liveAssignments.Holds t)
    (h : t.set newId now entity tagIds existing = some t') : liveAssignments.Holds t' := by
  refine Lts.invariant_of_foldlM (P := fun u : EntityTagTable => liveAssignments.Holds u)
    (holds_update hold) ?_ h
  exact fun _ _ _ _ hu hadd => hu.insert hadd

theorem kept_set (hexisting : ∀ p ∈ existing, t.HasRead p)
    (h : t.set newId now entity tagIds existing = some t') : Kept t t' := by
  refine Lts.invariant_of_foldlM (P := fun u => Kept t u) (kept_update fun p hp => ?_) ?_ h
  · exact hexisting p (mem_of_mem_filter hp)
  · exact fun _ _ _ _ hu hadd => hu.trans (kept_add hadd)

end EntityTagTable

/-- Where one of `tagIds` is an application tag, every live application tag of the entity is one of
`tagIds` too or has its row in `replaced`. -/
def Unrivalled (tags : Uuid → Option Tag) (t : EntityTagTable) (entity : TaggedEntity)
    (tagIds : List Uuid) (replaced : List EntityTag) : Prop :=
  ∀ tagId ∈ tagIds, isApplicationTag tags tagId = true → ∀ r ∈ t.rows, r.isLive = true →
    r.base.entity = entity → isApplicationTag tags r.base.tagId = true →
      r.base.tagId ∈ tagIds ∨ r.id ∈ replaced.map (·.id)

namespace EntityTagCall

def Clear (tags : Uuid → Option Tag) (t : EntityTagTable) : EntityTagCall → Prop
  | add (entityId :: _) entityType tagId => Unrivalled tags t (entityId, entityType) [tagId] []
  | replace entity tagIds existing => Unrivalled tags t entity tagIds existing
  | _ => True

instance (t : EntityTagTable) : DecidablePred (Clear tags t)
  | add (entityId :: _) entityType tagId =>
    inferInstanceAs (Decidable (∀ tagId' ∈ [tagId], isApplicationTag tags tagId' = true → _))
  | replace entity tagIds existing =>
    inferInstanceAs (Decidable (∀ tagId ∈ tagIds, isApplicationTag tags tagId = true → _))
  | add [] _ _ | validateSingleApp _ _ | validate .. | lock _ _ | close _ =>
    inferInstanceAs (Decidable True)

def Fits (tags : Uuid → Option Tag) (t : EntityTagTable) : EntityTagCall → Prop
  | validate _ tagIds unseen appCount _ =>
    ∃ seen, tagIds = seen ++ unseen ∧ appCount = seen.countP (isApplicationTag tags)
  | lock _ tagIds => tagIds.countP (isApplicationTag tags) ≤ 1
  | replace _ tagIds existing =>
    tagIds.countP (isApplicationTag tags) ≤ 1 ∧ ∀ p ∈ existing, t.HasRead p
  | close rows => ∀ p ∈ rows, t.HasRead p
  | validateSingleApp _ _ | add _ _ _ => True

theorem Fits.of_kept {t t' : EntityTagTable} {c : EntityTagCall} (hc : c.Fits tags t)
    (h : EntityTagTable.Kept t t') : c.Fits tags t' := by
  cases c with
  | replace entity tagIds existing => exact ⟨hc.1, fun p hp => (hc.2 p hp).of_kept h⟩
  | close rows => exact fun p hp => EntityTagTable.HasRead.of_kept (hc p hp) h
  | validate | lock | validateSingleApp | add => exact hc

end EntityTagCall

theorem hasRead_of_mem_liveRows {entityIds : List Uuid}
    {entityType : EntityDiscriminants} {tagId : Option Uuid} :
    ∀ p ∈ t.liveRows entityIds entityType tagId, t.HasRead p := by
  intro p hp
  obtain ⟨r, hr, rfl, -⟩ := mem_liveRows hp
  exact ⟨r, hr, rfl, rfl⟩

theorem fits_ofRemoved {rows : List EntityTag}
    (hrows : ∀ p ∈ rows, t.HasRead p)
    (h : EntityTagCall.ofRemoved rows = some c) : c.Fits tags t := by
  unfold EntityTagCall.ofRemoved at h
  split_ifs at h
  cases h
  exact hrows

theorem fits_start {request : EntityTagRequest}
    (h : request.start tags t = some c) : c.Fits tags t := by
  cases request with
  | addTag entity tagId organizationId =>
    obtain ⟨tag, -, rfl⟩ := map_eq_some_iff.mp h
    split_ifs <;> trivial
  | setTags entity tagIds organizationId =>
    rw [EntityTagRequest.start] at h
    split_ifs at h
    cases h
    exact ⟨[], rfl, rfl⟩
  | bulkAddTag entityIds entityType tagId organizationId =>
    rw [EntityTagRequest.start] at h
    split_ifs at h
    obtain ⟨tag, -, rfl⟩ := map_eq_some_iff.mp h
    trivial
  | removeTag | bulkRemoveTag | removeAllForEntity =>
    exact fits_ofRemoved hasRead_of_mem_liveRows h

theorem isApplicationTag_of_validateTagFull {tagId organizationId : Uuid} {tag : Tag}
    (h : validateTagFull tags tagId organizationId = some tag) :
    isApplicationTag tags tagId = tag.base.isApplication := by
  have hfound : tags tagId = some tag := (filter_eq_some_iff.mp h).1
  rw [isApplicationTag, hfound]
  rfl

theorem fits_proceed {next : EntityTagCall} (hc : c.Fits tags t)
    (h : (c.proceed tags t newId now).2 = some next) :
    next.Fits tags (c.proceed tags t newId now).1 := by
  cases c with
  | validateSingleApp entity tagId =>
    rw [EntityTagCall.proceed] at h
    split_ifs at h
    cases h
    trivial
  | add entityIds entityType tagId =>
    cases entityIds with
    | nil => cases h
    | cons entityId entityIds =>
      cases h
      trivial
  | validate entity tagIds unseen appCount organizationId =>
    obtain ⟨seen, htagIds, hcount⟩ := hc
    cases unseen with
    | nil =>
      rw [EntityTagCall.proceed] at h
      split_ifs at h with hmany
      cases h
      rw [hcount] at hmany
      rw [htagIds, append_nil]
      exact not_lt.mp hmany
    | cons tagId unseen =>
      obtain ⟨tag, htag, rfl⟩ := map_eq_some_iff.mp h
      refine ⟨seen ++ [tagId], by rw [htagIds, append_assoc, singleton_append], ?_⟩
      rw [countP_append, countP_singleton, ← hcount, isApplicationTag_of_validateTagFull htag]
      split_ifs <;> rfl
  | lock entity tagIds =>
    cases h
    exact ⟨hc, hasRead_of_mem_liveRows⟩
  | replace entity tagIds existing => cases h
  | close rows => cases h

theorem kept_proceed (hc : c.Fits tags t) :
    EntityTagTable.Kept t (c.proceed tags t newId now).1 := by
  rcases EntityTagCall.proceed_cases tags t newId now c with hsame |
    ⟨entityId, entityIds, entityType, tagId, rfl, hadd⟩ | ⟨entity, tagIds, existing, rfl, hset⟩ |
    ⟨rows, rfl, hclose⟩
  · rw [hsame]
    exact .refl t
  · exact kept_add hadd
  · exact kept_set hc.2 hset
  · rw [hclose]
    exact kept_update hc

theorem holds_proceed
    (hold : liveAssignments.Holds t) (c : EntityTagCall) :
    liveAssignments.Holds (c.proceed tags t newId now).1 := by
  rcases EntityTagCall.proceed_cases tags t newId now c with hsame |
    ⟨entityId, entityIds, entityType, tagId, rfl, hadd⟩ | ⟨entity, tagIds, existing, rfl, hset⟩ |
    ⟨rows, rfl, hclose⟩
  · rw [hsame]
    exact hold
  · exact hold.insert hadd
  · exact holds_set hold hset
  · rw [hclose]
    exact holds_update hold

def SameApplication (tags : Uuid → Option Tag) (t : EntityTagTable) : Prop :=
  ∀ r ∈ t, ∀ r' ∈ t, r.isLive = true → r'.isLive = true → r.base.entity = r'.base.entity →
    isApplicationTag tags r.base.tagId = true → isApplicationTag tags r'.base.tagId = true →
      r.base.tagId = r'.base.tagId

theorem eq_of_countP_le_one {α : Type} {p : α → Bool} {l : List α} (h : l.countP p ≤ 1) {a b : α}
    (ha : a ∈ l) (hb : b ∈ l) (hpa : p a = true) (hpb : p b = true) : a = b := by
  rw [countP_eq_length_filter] at h
  have ha' : a ∈ l.filter p := mem_filter.mpr ⟨ha, hpa⟩
  have hb' : b ∈ l.filter p := mem_filter.mpr ⟨hb, hpb⟩
  obtain ⟨c, hc⟩ := length_eq_one_iff.mp (le_antisymm h (length_pos_of_mem ha'))
  rw [hc, mem_singleton] at ha' hb'
  rw [ha', hb']

/-- A write after which the live rows of the entity are old ones that are not replaced, and rows of
tags that have no rival. -/
theorem SameApplication.write {t' : EntityTagTable} {entity : TaggedEntity} {tagIds : List Uuid}
    {replaced : List EntityTag} (hsame : SameApplication tags t)
    (hcount : tagIds.countP (isApplicationTag tags) ≤ 1)
    (hclear : Unrivalled tags t entity tagIds replaced)
    (h : ∀ r ∈ t', r.isLive = true → (r ∈ t ∧ ∀ p ∈ replaced, p.id = r.id → p.base.tagId ∈ tagIds) ∨
        (r.base.entity = entity ∧ r.base.tagId ∈ tagIds))
    (hread : ∀ p ∈ replaced, t.HasRead p) : SameApplication tags t' := by
  -- an application tag of the entity is one of `tagIds` wherever one of them is written
  have hone : ∀ tagId ∈ tagIds, isApplicationTag tags tagId = true → ∀ r ∈ t, r.isLive = true →
      (∀ p ∈ replaced, p.id = r.id → p.base.tagId ∈ tagIds) → r.base.entity = entity →
        isApplicationTag tags r.base.tagId = true → r.base.tagId = tagId := by
    intro tagId htagId happ r hr hlive hkept hentity happ'
    refine eq_of_countP_le_one hcount ?_ htagId happ' happ
    rcases hclear tagId htagId happ r hr hlive hentity happ' with hmem | hreplaced
    · exact hmem
    · obtain ⟨p, hp, hid⟩ := List.mem_map.mp hreplaced
      obtain ⟨r₀, hr₀, hid₀, hbase⟩ := hread p hp
      have hsame : r₀ = r := t.eq_of_key hr₀ hr (hid₀.trans hid)
      have htag := hkept p hp hid
      rwa [← hbase, hsame] at htag
  intro r hr r' hr' hlive hlive' hentity happ happ'
  rcases h r hr hlive with ⟨hmem, hkept⟩ | ⟨hnew, htag⟩ <;>
    rcases h r' hr' hlive' with ⟨hmem', hkept'⟩ | ⟨hnew', htag'⟩
  · exact hsame r hmem r' hmem' hlive hlive' hentity happ happ'
  · exact hone _ htag' happ' r hmem hlive hkept (hentity.trans hnew') happ
  · exact (hone _ htag happ r' hmem' hlive' hkept' (hentity.symm.trans hnew) happ').symm
  · exact eq_of_countP_le_one hcount htag htag' happ happ'

theorem SameApplication.proceed (hsame : SameApplication tags t) (hc : c.Fits tags t)
    (hclear : c.Clear tags t) : SameApplication tags (c.proceed tags t newId now).1 := by
  rcases EntityTagCall.proceed_cases tags t newId now c with hequal |
    ⟨entityId, entityIds, entityType, tagId, rfl, hadd⟩ | ⟨entity, tagIds, existing, rfl, hset⟩ |
    ⟨rows, rfl, hclose⟩
  · rw [hequal]
    exact hsame
  · have hcount : [tagId].countP (isApplicationTag tags) ≤ 1 := countP_le_length
    refine hsame.write hcount hclear (fun r hr _ => ?_) fun p hp => absurd hp not_mem_nil
    rcases (mem_add hadd).mp hr with hr | rfl
    · exact .inl ⟨hr, fun p hp => absurd hp not_mem_nil⟩
    · exact .inr ⟨rfl, mem_singleton_self _⟩
  · refine hsame.write hc.1 hclear (fun r hr hlive => ?_) hc.2
    exact (mem_of_mem_set hset hr hlive).imp_right fun h => ⟨h.1, h.2.1⟩
  · rw [hclose]
    intro r hr r' hr' hlive hlive'
    have hmem := mem_of_mem_update
      (fun u hu => validTo_of_mem_closed hu) hr hlive
    have hmem' := mem_of_mem_update
      (fun u hu => validTo_of_mem_closed hu) hr' hlive'
    exact hsame r hmem.1 r' hmem'.1 hlive hlive'

namespace EntityTagSystem
variable {s s' : EntityTagSystem}

def OneApplicationTag (tags : Uuid → Option Tag) (s : EntityTagSystem) : Prop :=
  ∀ r ∈ s.entityTags, ∀ r' ∈ s.entityTags, r.isLive = true → r'.isLive = true →
    r.base.entity = r'.base.entity → isApplicationTag tags r.base.tagId = true →
      isApplicationTag tags r'.base.tagId = true → r = r'

def OneRowPerTag (s : EntityTagSystem) : Prop :=
  ∀ r ∈ s.entityTags, ∀ r' ∈ s.entityTags, r.isLive = true → r'.isLive = true →
    r.base.entity = r'.base.entity → r.base.tagId = r'.base.tagId → r = r'

def Clear (tags : Uuid → Option Tag) (s : EntityTagSystem) : EntityTagStep → Prop
  | .start _ _ => True
  | .proceed call _ _ => ∀ c ∈ s.pending call, c.Clear tags s.entityTags

instance (s : EntityTagSystem) : DecidablePred (Clear tags s)
  | .start _ _ => inferInstanceAs (Decidable True)
  | .proceed call _ _ =>
    inferInstanceAs (Decidable (∀ c ∈ s.pending call, c.Clear tags s.entityTags))

instance : DecidablePred (OneApplicationTag tags) := fun s =>
  inferInstanceAs (Decidable (∀ r ∈ s.entityTags.rows, ∀ r' ∈ s.entityTags.rows, _))

instance : DecidablePred OneRowPerTag := fun s =>
  inferInstanceAs (Decidable (∀ r ∈ s.entityTags.rows, ∀ r' ∈ s.entityTags.rows, _))

structure Sound (tags : Uuid → Option Tag) (s : EntityTagSystem) : Prop where
  index : liveAssignments.Holds s.entityTags
  sameApplication : SameApplication tags s.entityTags
  fits : ∀ c ∈ s.calls, c.2.Fits tags s.entityTags

theorem Sound.of_pending (hs : s.Sound tags) {call : ℕ} {c : EntityTagCall}
    (hc : s.pending call = some c) : c.Fits tags s.entityTags := by
  obtain ⟨p, hp, rfl⟩ := map_eq_some_iff.mp hc
  exact hs.fits p (mem_of_find?_eq_some hp)

theorem oneRowPerTag_of_holds (hold : liveAssignments.Holds s.entityTags) : s.OneRowPerTag := by
  intro r hr r' hr' hlive hlive' hentity htag
  have hbase : r.base = r'.base := by
    obtain ⟨⟨_, _, _, _, _, entityId, entityType, tagId⟩, _⟩ := r
    obtain ⟨⟨_, _, _, _, _, entityId', entityType', tagId'⟩, _⟩ := r'
    cases hentity
    cases htag
    rfl
  exact hold r hr r' hr' hlive hlive' hbase

theorem Sound.step (hs : s.Sound tags) {l : EntityTagStep} (hclear : s.Clear tags l)
    (h : s.step tags l = some s') : s'.Sound tags := by
  cases l with
  | start call request =>
    rw [EntityTagSystem.step] at h
    split_ifs at h
    cases h
    refine ⟨hs.index, hs.sameApplication, fun c hc => ?_⟩
    rcases mem_append.mp hc with hc | hc
    · rw [mem_toList] at hc
      obtain ⟨c', hstart, rfl⟩ := map_eq_some_iff.mp hc
      exact fits_start hstart
    · exact hs.fits c hc
  | proceed call newId now =>
    obtain ⟨c, hc, hstep⟩ := bind_eq_some_iff.mp h
    split_ifs at hstep
    cases hstep
    have hfits := hs.of_pending hc
    refine ⟨holds_proceed hs.index c, hs.sameApplication.proceed hfits (hclear c hc), ?_⟩
    intro p hp
    rcases mem_append.mp hp with hp | hp
    · rw [mem_toList] at hp
      obtain ⟨next, hnext, rfl⟩ := map_eq_some_iff.mp hp
      exact fits_proceed hfits hnext
    · exact (hs.fits p (mem_of_mem_filter hp)).of_kept (kept_proceed hfits)

end EntityTagSystem

/-- In every run in which an application tag is written only where the entity has no other live one
that the write does not replace, no entity has two application tags; and no entity has a tag twice. -/
theorem oneApplicationTag_of_clear (tags : Uuid → Option Tag) (entityTags : EntityTagTable)
    (hinit : (entityTagLts tags entityTags).init.OneApplicationTag tags)
    (hrows : (entityTagLts tags entityTags).init.OneRowPerTag) (s : EntityTagSystem)
    (hs : (entityTagLts tags entityTags).ReachableVia (EntityTagSystem.Clear tags) s) :
    s.OneApplicationTag tags ∧ s.OneRowPerTag := by
  have hstart : (entityTagLts tags entityTags).init.Sound tags := by
    refine ⟨?_, ?_, fun c hc => absurd hc not_mem_nil⟩
    · intro r hr r' hr' hlive hlive' hbase
      have hbase : r.base = r'.base := hbase
      exact hrows r hr r' hr' hlive hlive' (by rw [hbase]) (by rw [hbase])
    · intro r hr r' hr' hlive hlive' hentity happ happ'
      rw [hinit r hr r' hr' hlive hlive' hentity happ happ']
  have hsound : s.Sound tags :=
    hs.invariant hstart fun _ _ _ _ hsound hclear hstep => hsound.step hclear hstep
  have hperTag := EntityTagSystem.oneRowPerTag_of_holds hsound.index
  refine ⟨fun r hr r' hr' hlive hlive' hentity happ happ' => ?_, hperTag⟩
  refine hperTag r hr r' hr' hlive hlive' hentity ?_
  exact hsound.sameApplication r hr r' hr' hlive hlive' hentity happ happ'

section Shop

def shopTags (tagId : Uuid) : Option Tag :=
  if tagId = 7 then some ⟨7, 0, 0, none, none, ⟨"shop", none, 1, true⟩⟩
  else if tagId = 8 then some ⟨8, 0, 0, none, none, ⟨"billing", none, 1, true⟩⟩
  else if tagId = 9 then some ⟨9, 0, 0, none, none, ⟨"critical", none, 1, false⟩⟩
  else none

def noEntityTags : EntityTagTable := ⟨[], List.nodup_nil⟩

def moveRun : List EntityTagStep :=
  [.start 0 (.addTag (20, .host) 7 1), .proceed 0 (fun _ => 0) 1, .proceed 0 (fun _ => 100) 1,
    .start 1 (.setTags (20, .host) [8] 1), .proceed 1 (fun _ => 0) 2, .proceed 1 (fun _ => 0) 2,
    .proceed 1 (fun _ => 0) 2, .start 2 (.addTag (20, .host) 9 1), .proceed 2 (fun _ => 101) 2,
    .proceed 1 (fun _ => 102) 3]

theorem oneApplicationTag_move : ∃ s, (entityTagLts shopTags noEntityTags).run
    (entityTagLts shopTags noEntityTags).init moveRun = some s ∧
      s.OneApplicationTag shopTags ∧ s.OneRowPerTag := by
  obtain ⟨s, hs⟩ := isSome_iff_exists.mp (show ((entityTagLts shopTags noEntityTags).run
    (entityTagLts shopTags noEntityTags).init moveRun).isSome = true by decide +kernel)
  have hreach : (entityTagLts shopTags noEntityTags).ReachableVia
      (EntityTagSystem.Clear shopTags) s := Lts.reachableVia_of_run .init (by decide +kernel) hs
  refine ⟨s, hs, ?_⟩
  exact oneApplicationTag_of_clear shopTags noEntityTags (by decide +kernel) (by decide +kernel) s
    hreach

def bulkRun : List EntityTagStep :=
  [.start 0 (.addTag (20, .host) 7 1), .proceed 0 (fun _ => 0) 1, .proceed 0 (fun _ => 100) 1,
    .start 1 (.bulkAddTag [20, 21] .host 8 1), .proceed 1 (fun _ => 101) 2]

theorem not_oneApplicationTag : ¬ ∀ (tags : Uuid → Option Tag) (entityTags : EntityTagTable),
    (entityTagLts tags entityTags).init.OneApplicationTag tags →
    (entityTagLts tags entityTags).init.OneRowPerTag → ∀ s,
      (entityTagLts tags entityTags).Reachable s → s.OneApplicationTag tags ∧ s.OneRowPerTag := by
  intro h
  have hrun : ∃ s, (entityTagLts shopTags noEntityTags).run
      (entityTagLts shopTags noEntityTags).init bulkRun = some s ∧
        ¬ s.OneApplicationTag shopTags := ⟨_, rfl, by decide +kernel⟩
  obtain ⟨s, hs, hnot⟩ := hrun
  have hreach := Lts.reachable_of_run hs
  exact hnot (h shopTags noEntityTags (by decide +kernel) (by decide +kernel) s hreach).1

end Shop

end Scanopy
