import Scanopy.Snapshots.Clone

/-! What close-and-clone does to one table: the live rows that it covers start at the time of the
snapshot, and their closed copies stand beside them. -/

namespace Scanopy
open List
variable {B : Type}

def cloneMap (newId : Uuid → Uuid) (rows : List (StoredRow B)) : HashMap Uuid Uuid :=
  rows.foldl (fun m r => m.insert r.id (newId r.id)) HashMap.empty

theorem get_cloneMap (newId : Uuid → Uuid) (rows : List (StoredRow B)) (id : Uuid) :
    (cloneMap newId rows).get id = if id ∈ rows.map (·.id) then some (newId id) else none := by
  suffices key : ∀ m : HashMap Uuid Uuid,
      (rows.foldl (fun m r => m.insert r.id (newId r.id)) m).get id =
        if id ∈ rows.map (·.id) then some (newId id) else m.get id from key HashMap.empty
  induction rows with
  | nil => exact fun m => rfl
  | cons r rows ih =>
    intro m
    rw [foldl_cons, ih, HashMap.get_insert, map_cons]
    by_cases hrows : id ∈ rows.map (·.id)
    · rw [if_pos hrows, if_pos (mem_cons_of_mem _ hrows)]
    · rw [if_neg hrows]
      by_cases hr : id = r.id
      · rw [if_pos hr, if_pos (mem_cons.mpr (.inl hr)), hr]
      · rw [if_neg hr, if_neg fun hmem => (mem_cons.mp hmem).elim hr hrows]

namespace RowTable
variable {t t' : RowTable B} {filter : B → Bool} {takenAt : Timestamp} {snapshotId : Uuid}
  {maps : FkMaps} {newId : Uuid → Uuid} {mapping : HashMap Uuid Uuid}
variable {rows : List (Row B)} {r r' : StoredRow B}

theorem rows_update (t : RowTable B) (p : StoredRow B → Bool) (g : StoredRow B → Row B)
    (hg : ∀ r, (g r).id = r.id) :
    (t.update ((t.rows.filter p).map g)).rows =
      t.rows.map fun r => if p r then ⟨g r, r.snapshotId⟩ else r :=
  Table.rows_updateMany t p g hg

theorem perm_getAllInTx (t : RowTable B) (p : StoredRow B → Bool) :
    (t.getAllInTx p).Perm (t.rows.filter p) := perm_insertionSort _ _

theorem mem_getAllInTx {p : StoredRow B → Bool} :
    r ∈ t.getAllInTx p ↔ r ∈ t ∧ p r = true :=
  (t.perm_getAllInTx p).mem_iff.trans mem_filter

theorem rows_update_of_perm (t : RowTable B) (p : StoredRow B → Bool)
    (g : StoredRow B → Row B) (hg : ∀ r, (g r).id = r.id) {l : List (StoredRow B)}
    (hl : l.Perm (t.rows.filter p)) :
    (t.update (l.map g)).rows = t.rows.map fun r => if p r then ⟨g r, r.snapshotId⟩ else r :=
  Table.rows_updateMany_of_perm t p g hg hl

theorem mem_update_singleton {p : Row B} :
    r' ∈ t.update [p] ↔ ∃ r ∈ t, r' = if p.id = r.id then ⟨p, r.snapshotId⟩ else r := by
  show r' ∈ t.rows.map (fun r => if p.id = r.id then ⟨p, r.snapshotId⟩ else r) ↔ _
  rw [mem_map]
  exact exists_congr fun r => and_congr_right fun _ => eq_comm

/-- What a row becomes when `rows` are written one after the other. -/
def writeRow (rows : List (Row B)) (r : StoredRow B) : StoredRow B :=
  rows.foldl (fun r u => if u.id = r.id then ⟨u, r.snapshotId⟩ else r) r

theorem mem_update :
    r' ∈ t.update rows ↔ ∃ r ∈ t, writeRow rows r = r' := by
  show r' ∈ (t.update rows).rows ↔ _
  rw [update, Table.rows_updateMany_eq_map]
  exact mem_map

theorem id_writeRow (rows : List (Row B)) (r : StoredRow B) : (writeRow rows r).id = r.id := by
  induction rows generalizing r with
  | nil => rfl
  | cons u rows ih =>
    refine (ih _).trans ?_
    dsimp only
    split_ifs with hid
    · exact hid
    · rfl

theorem base_writeRow
    (h : ∀ u ∈ rows, u.id = r.id → u.base = r.base) : (writeRow rows r).base = r.base := by
  induction rows generalizing r with
  | nil => rfl
  | cons u rows ih =>
    have hrest : ∀ u' ∈ rows, u'.id = r.id → u'.base = r.base :=
      fun u' hu' => h u' (mem_cons_of_mem u hu')
    rw [writeRow, foldl_cons]
    split_ifs with hid
    · have hbase : u.base = r.base := h u mem_cons_self hid
      refine (ih (r := ⟨u, r.snapshotId⟩) fun u' hu' hid' => ?_).trans hbase
      exact (hrest u' hu' (hid'.trans hid)).trans hbase.symm
    · exact ih hrest

theorem isLive_writeRow (hrows : ∀ u ∈ rows, u.isLive = false) (hclosed : r.isLive = false) :
    (writeRow rows r).isLive = false := by
  induction rows generalizing r with
  | nil => exact hclosed
  | cons u rows ih =>
    refine ih (fun u' hu' => hrows u' (mem_cons_of_mem u hu')) ?_
    dsimp only
    split_ifs
    · exact hrows u mem_cons_self
    · exact hclosed

theorem writeRow_of_isLive (hrows : ∀ u ∈ rows, u.isLive = false)
    (hlive : (writeRow rows r).isLive = true) :
    writeRow rows r = r ∧ ∀ u ∈ rows, u.id ≠ r.id := by
  induction rows generalizing r with
  | nil => exact ⟨rfl, fun u hu => absurd hu not_mem_nil⟩
  | cons u rows ih =>
    have hrest : ∀ u' ∈ rows, u'.isLive = false := fun u' hu' => hrows u' (mem_cons_of_mem u hu')
    rw [writeRow, foldl_cons] at hlive ⊢
    split_ifs at hlive ⊢ with hid
    · have hclosed : (⟨u, r.snapshotId⟩ : StoredRow B).isLive = false := hrows u mem_cons_self
      exact absurd ((isLive_writeRow hrest hclosed).symm.trans hlive) Bool.false_ne_true
    · obtain ⟨hsame, hne⟩ := ih hrest hlive
      exact ⟨hsame, forall_mem_cons.mpr ⟨hid, hne⟩⟩

theorem mem_of_mem_update (hrows : ∀ u ∈ rows, u.isLive = false) (hr' : r' ∈ t.update rows)
    (hlive : r'.isLive = true) :
    r' ∈ t ∧ ∀ u ∈ rows, u.id ≠ r'.id := by
  obtain ⟨r, hr, rfl⟩ := mem_update.mp hr'
  obtain ⟨hsame, hne⟩ := writeRow_of_isLive hrows hlive
  rw [hsame]
  exact ⟨hr, hne⟩

def isCloned (filter : B → Bool) (r : StoredRow B) : Bool := r.isLive && filter r.base

def advance (takenAt : Timestamp) (r : StoredRow B) : StoredRow B :=
  { r with validFrom := takenAt }

def cloneBase [Snapshotable B] (maps : FkMaps) (mapping : HashMap Uuid Uuid) (b : B) : B :=
  remapOwnCloneRefs mapping (remapFksForClone maps b)

def closedRow [Snapshotable B] (takenAt : Timestamp) (snapshotId : Uuid) (maps : FkMaps)
    (newId : Uuid → Uuid) (mapping : HashMap Uuid Uuid) (r : StoredRow B) : StoredRow B where
  id := newId r.id
  createdAt := r.createdAt
  validFrom := r.validFrom
  validTo := some takenAt
  lineageId := some r.id
  base := cloneBase maps mapping r.base
  snapshotId := some snapshotId

theorem rows_stamp (t : RowTable B) (snapshotId : Uuid) (ids : List Uuid) :
    (t.stamp snapshotId ids).rows =
      t.rows.map fun r => if r.id ∈ ids then { r with snapshotId := some snapshotId } else r := rfl

theorem not_isCloned_closedRow [Snapshotable B] (r : StoredRow B) :
    ¬isCloned filter (closedRow takenAt snapshotId maps newId mapping r) = true :=
  Bool.false_ne_true

theorem rows_stamp_of_insertMany {closed : List (Row B)}
    (h : t.insertMany (closed.map fun r => (⟨r, none⟩ : StoredRow B)) = some t') :
    (RowTable.stamp t' snapshotId (closed.map (·.id))).rows =
      t.rows ++ closed.map fun r => (⟨r, some snapshotId⟩ : StoredRow B) := by
  obtain ⟨hrows, -, hfresh⟩ := Table.insertMany_eq_some h
  rw [rows_stamp, hrows, map_append, map_map]
  congr 1
  · refine (map_congr_left fun r hr => if_neg fun hmem => ?_).trans (map_id' t.rows)
    obtain ⟨c, hc, hid⟩ := mem_map.mp hmem
    exact hfresh r hr ⟨c, none⟩ (mem_map_of_mem hc) hid.symm
  · exact map_congr_left fun c hc => if_pos (mem_map_of_mem hc)

section InsertChunk
variable [Snapshotable B]
variable {chunks : List (List (Row B))}

theorem chunkSize_pos : 0 < chunkSize B :=
  Nat.div_pos (max_le (Nat.lt_succ_iff.mp (columnCount B).isLt) (by decide))
    (lt_max_of_lt_right one_pos)

theorem insertChunk_eq_some {chunk : List (Row B)} : t.insertChunk chunk = some t' ↔
    t.insertMany (chunk.map (⟨·, none⟩)) = some t' ∧
      ∀ r ∈ chunk, ∀ id, ownReference r.base = some id → ∃ r' ∈ t', r'.id = id := by
  rw [insertChunk, Option.filter_eq_some_iff]
  refine and_congr_right fun _ => ?_
  rw [all_eq_true]
  refine forall₂_congr fun r _ => ?_
  rw [Option.all_eq_true]
  refine forall₂_congr fun id _ => ?_
  rw [List.any_eq_true]
  exact exists_congr fun r' => and_congr_right fun _ => decide_eq_true_iff

theorem insertMany_of_foldlM
    (h : chunks.foldlM insertChunk t = some t') :
    t.insertMany (chunks.flatten.map (⟨·, none⟩)) = some t' := by
  induction chunks generalizing t with
  | nil =>
    obtain rfl : t = t' := Option.some.inj h
    exact t.insertMany_nil
  | cons chunk chunks ih =>
    rw [foldlM_cons] at h
    obtain ⟨t₁, h₁, h⟩ := Option.bind_eq_some_iff.mp h
    rw [flatten_cons, map_append, Table.insertMany_append, (insertChunk_eq_some.mp h₁).1]
    exact ih h

/-- The chunks are inserted if none refers to a later one, as all that they refer to is there at the
end. -/
theorem exists_foldlM_insertChunk
    (hinsert : t.insertMany (chunks.flatten.map (⟨·, none⟩)) = some t')
    (hrefs : ∀ r ∈ chunks.flatten, ∀ id, ownReference r.base = some id → ∃ r' ∈ t', r'.id = id) :
    (∃ t', chunks.foldlM insertChunk t = some t') ↔ chunks.Pairwise fun chunk later =>
      ∀ r ∈ chunk, ∀ r' ∈ later, ownReference r.base ≠ some r'.id := by
  induction chunks generalizing t with
  | nil => exact iff_of_true ⟨t, rfl⟩ .nil
  | cons chunk chunks ih =>
    rw [flatten_cons, map_append, Table.insertMany_append] at hinsert
    obtain ⟨t₁, h₁, hinsert⟩ := Option.bind_eq_some_iff.mp hinsert
    have hrest := ih hinsert fun r hr => hrefs r (mem_append_right _ hr)
    have hchunk : t.insertChunk chunk = some t₁ ↔ ∀ later ∈ chunks, ∀ r ∈ chunk, ∀ r' ∈ later,
        ownReference r.base ≠ some r'.id := by
      rw [insertChunk_eq_some, and_iff_right h₁]
      constructor
      · intro h later hlater r hr r' hr' href
        obtain ⟨r₁, hr₁, hid⟩ := h r hr r'.id href
        exact (Table.insertMany_eq_some hinsert).2.2 r₁ hr₁ ⟨r', none⟩
          (mem_map_of_mem (mem_flatten_of_mem hlater hr')) hid
      · intro h r hr id href
        obtain ⟨r₁, hr₁, rfl⟩ := hrefs r (mem_append_left _ hr) id href
        rcases (Table.mem_insertMany hinsert).mp hr₁ with hr₁ | hr₁
        · exact ⟨r₁, hr₁, rfl⟩
        · obtain ⟨r', hr', rfl⟩ := mem_map.mp hr₁
          obtain ⟨later, hlater, hr'⟩ := mem_flatten.mp hr'
          exact absurd href (h later hlater r hr r' hr')
    rw [pairwise_cons, ← hchunk, ← hrest, foldlM_cons]
    constructor
    · rintro ⟨t', h⟩
      obtain ⟨t₂, h₂, h⟩ := Option.bind_eq_some_iff.mp h
      obtain rfl := Option.some.inj (h₁.symm.trans (insertChunk_eq_some.mp h₂).1)
      exact ⟨h₂, t', h⟩
    · rintro ⟨h₂, t', h⟩
      exact ⟨t', Option.bind_eq_some_iff.mpr ⟨t₁, h₂, h⟩⟩

theorem insertMany_of_createManyInTx {entities : List (Row B)}
    (h : t.createManyInTx entities = some t') :
    t.insertMany (entities.map (⟨·, none⟩)) = some t' := by
  have hinsert := insertMany_of_foldlM h
  rwa [List.flatten_chunks chunkSize_pos] at hinsert

end InsertChunk

theorem map_advance_of_forall (takenAt : Timestamp) {rows : List (StoredRow B)}
    (h : ∀ r ∈ rows, ¬isCloned filter r = true) :
    rows.map (fun r => if isCloned filter r then advance takenAt r else r) = rows :=
  (map_congr_left fun r hr => if_neg (h r hr)).trans (map_id' rows)

theorem closeAndCloneFor_eq_some [Snapshotable B]
    (h : t.closeAndCloneFor filter takenAt snapshotId maps newId = some (t', mapping)) :
    mapping = cloneMap newId (t.getAllInTx (isCloned filter)) ∧
      t'.rows = t.rows.map (fun r => if isCloned filter r then advance takenAt r else r) ++
        (t.getAllInTx (isCloned filter)).map
          (closedRow takenAt snapshotId maps newId mapping) := by
  set live := t.getAllInTx (isCloned filter) with hlive
  rw [closeAndCloneFor] at h
  change (if live.isEmpty then some (t, HashMap.empty) else _) = some (t', mapping) at h
  split_ifs at h with hempty
  · rw [List.isEmpty_iff] at hempty
    have hnone : t.rows.filter (isCloned filter) = [] :=
      perm_nil.mp ((t.perm_getAllInTx _).symm.trans (hlive ▸ .of_eq hempty))
    have hsame := map_advance_of_forall takenAt (filter_eq_nil_iff.mp hnone)
    cases h
    rw [hempty, map_nil, append_nil, hsame]
    exact ⟨rfl, rfl⟩
  · obtain ⟨t₁, ht₁, h⟩ := Option.map_eq_some_iff.mp h
    cases h
    refine ⟨rfl, ?_⟩
    set mapping := cloneMap newId live
    set closed := (live.map fun r => copy takenAt maps newId r.toRow).map (fun r =>
      { r with base := remapOwnCloneRefs mapping r.base })
    set copies := live.map (closedRow takenAt snapshotId maps newId mapping)
    have hforall : ∀ c ∈ copies, ¬isCloned filter c = true := by
      intro c hc
      obtain ⟨r, -, rfl⟩ := mem_map.mp hc
      exact not_isCloned_closedRow r
    have hstamped : (RowTable.stamp t₁ snapshotId (closed.map (·.id))).rows = t.rows ++ copies := by
      refine (rows_stamp_of_insertMany (insertMany_of_createManyInTx ht₁)).trans ?_
      rw [map_map, map_map]
      rfl
    have hlive₁ : live.Perm ((RowTable.stamp t₁ snapshotId (closed.map (·.id))).rows.filter
        (isCloned filter)) := by
      rw [hstamped, filter_append, filter_eq_nil_iff.mpr hforall, append_nil]
      exact t.perm_getAllInTx _
    have hupdated := rows_update_of_perm _ (isCloned filter)
      (fun r => { r.toRow with validFrom := takenAt }) (fun _ => rfl) hlive₁
    rw [hstamped, map_append] at hupdated
    exact hupdated.trans (congrArg _ (map_advance_of_forall takenAt hforall))

theorem mem_closeAndCloneFor [Snapshotable B]
    (h : t.closeAndCloneFor filter takenAt snapshotId maps newId = some (t', mapping))
    {c : StoredRow B} :
    c ∈ t' ↔ (∃ r ∈ t, isCloned filter r = true ∧ c = advance takenAt r) ∨
      (c ∈ t ∧ ¬isCloned filter c = true) ∨
      ∃ r ∈ t, isCloned filter r = true ∧
        c = closedRow takenAt snapshotId maps newId mapping r := by
  show c ∈ t'.rows ↔ _
  rw [(closeAndCloneFor_eq_some h).2, mem_append, mem_map, mem_map]
  constructor
  · rintro (⟨r, hr, rfl⟩ | ⟨r, hr, rfl⟩)
    · by_cases hcloned : isCloned filter r = true
      · rw [if_pos hcloned]
        exact .inl ⟨r, hr, hcloned, rfl⟩
      · rw [if_neg hcloned]
        exact .inr (.inl ⟨hr, hcloned⟩)
    · obtain ⟨hr, hcloned⟩ := mem_getAllInTx.mp hr
      exact .inr (.inr ⟨r, hr, hcloned, rfl⟩)
  · rintro (⟨r, hr, hcloned, rfl⟩ | ⟨hc, hcloned⟩ | ⟨r, hr, hcloned, rfl⟩)
    · exact .inl ⟨r, hr, if_pos hcloned⟩
    · exact .inl ⟨c, hc, if_neg hcloned⟩
    · exact .inr ⟨r, mem_getAllInTx.mpr ⟨hr, hcloned⟩, rfl⟩

/-- The clone of a table succeeds if no copy refers to one in a later chunk. -/
theorem exists_closeAndCloneFor_iff [Snapshotable B] (t : RowTable B) (filter : B → Bool)
    (takenAt : Timestamp) (snapshotId : Uuid) (maps : FkMaps) (newId : Uuid → Uuid)
    (hfresh : ∀ r ∈ t, ∀ r' ∈ t, isCloned filter r' = true → r.id ≠ newId r'.id)
    (hinj : ∀ r ∈ t, ∀ r' ∈ t, isCloned filter r = true → isCloned filter r' = true →
      newId r.id = newId r'.id → r = r')
    (hrefs : ∀ r ∈ t, isCloned filter r = true → ∀ id, ownReference (cloneBase maps
      (cloneMap newId (t.getAllInTx (isCloned filter))) r.base) = some id →
        ∃ r' ∈ t, r'.id = id ∨ (isCloned filter r' = true ∧ newId r'.id = id)) :
    (∃ t' mapping, t.closeAndCloneFor filter takenAt snapshotId maps newId = some (t', mapping)) ↔
      ((t.getAllInTx (isCloned filter)).chunks (chunkSize B)).Pairwise fun chunk later =>
        ∀ r ∈ chunk, ∀ r' ∈ later, ownReference (cloneBase maps
          (cloneMap newId (t.getAllInTx (isCloned filter))) r.base) ≠ some (newId r'.id) := by
  set live := t.getAllInTx (isCloned filter) with hlive
  have hmem : ∀ r ∈ live, r ∈ t ∧ isCloned filter r = true := fun r hr => mem_getAllInTx.mp hr
  have hempty : t.closeAndCloneFor filter takenAt snapshotId maps newId =
      if live.isEmpty then some (t, HashMap.empty) else _ := rfl
  rw [hempty]
  split_ifs with hnone
  · rw [List.isEmpty_iff.mp hnone, List.chunks_nil chunkSize_pos]
    exact iff_of_true ⟨t, HashMap.empty, rfl⟩ .nil
  · set copyOf : StoredRow B → Row B := fun r =>
      (closedRow takenAt snapshotId maps newId (cloneMap newId live) r).toRow
    have hclosed : (live.map fun r => copy takenAt maps newId r.toRow).map (fun r =>
        { r with base := remapOwnCloneRefs (cloneMap newId live) r.base }) = live.map copyOf := by
      rw [map_map]
      rfl
    obtain ⟨t₁, ht₁⟩ : ∃ t₁, t.insertMany ((live.map copyOf).map (⟨·, none⟩)) = some t₁ := by
      refine Table.exists_insertMany ?_ ?_
      · rw [map_map, map_map]
        refine (nodup_map_iff_inj_on ((t.perm_getAllInTx _).nodup_iff.mpr
          ((List.Nodup.of_map _ t.nodup).filter _))).mpr ?_
        intro r hr r' hr' hid
        exact hinj r (hmem r hr).1 r' (hmem r' hr').1 (hmem r hr).2 (hmem r' hr').2 hid
      · intro r hr c hc
        rw [map_map] at hc
        obtain ⟨r', hr', rfl⟩ := mem_map.mp hc
        exact hfresh r hr r' (hmem r' hr').1 (hmem r' hr').2
    have hchunks := @exists_foldlM_insertChunk B t t₁ _ ((live.map copyOf).chunks (chunkSize B))
    rw [List.flatten_chunks chunkSize_pos] at hchunks
    specialize hchunks ht₁ ?_
    · intro c hc id href
      obtain ⟨r, hr, rfl⟩ := mem_map.mp hc
      obtain ⟨r', hr', hid⟩ := hrefs r (hmem r hr).1 (hmem r hr).2 id href
      rcases hid with hid | ⟨hcloned, hid⟩
      · exact ⟨r', (Table.mem_insertMany ht₁).mpr (.inl hr'), hid⟩
      · refine ⟨⟨copyOf r', none⟩, (Table.mem_insertMany ht₁).mpr (.inr ?_), hid⟩
        exact mem_map_of_mem (mem_map_of_mem (mem_getAllInTx.mpr ⟨hr', hcloned⟩))
    rw [List.chunks_map, pairwise_map] at hchunks
    simp only [forall_mem_map] at hchunks
    refine Iff.trans ?_ hchunks
    rw [← List.chunks_map]
    constructor
    · rintro ⟨t', mapping, h⟩
      obtain ⟨t₂, ht₂, -⟩ := Option.map_eq_some_iff.mp h
      exact ⟨t₂, hclosed ▸ ht₂⟩
    · rintro ⟨t₂, ht₂⟩
      exact ⟨_, _, Option.map_eq_some_iff.mpr ⟨t₂, hclosed ▸ ht₂, rfl⟩⟩

/-- The reference of a closed row after the second pass. -/
def remappedBase [VirtualizationServiceRef B] (services : HashMap Uuid Uuid) (b : B) : B :=
  (remapVirtualizationServiceId services b).getD b

theorem remappedBase_eq [VirtualizationServiceRef B] (services : HashMap Uuid Uuid) {b : B}
    (hset : ∀ id, virtualizationServiceId b = some id → setVirtualizationServiceId b id = b) :
    remappedBase services b = match virtualizationServiceId b with
      | some id => setVirtualizationServiceId b (remapId services id)
      | none => b := by
  rw [remappedBase, remapVirtualizationServiceId]
  cases hv : virtualizationServiceId b with
  | none => rfl
  | some id =>
    show ((services.get id).map (setVirtualizationServiceId b)).getD b =
      setVirtualizationServiceId b ((services.get id).getD id)
    cases services.get id with
    | none => exact (hset id hv).symm
    | some closed => rfl

theorem filterMap_eq_map_filter {α β γ : Type} (f : α → Option β) (h : α → β → γ) (l : List α)
    (d : α → β) :
    l.filterMap (fun a => (f a).map (h a)) =
      (l.filter fun a => (f a).isSome).map fun a => h a ((f a).getD (d a)) := by
  induction l with
  | nil => rfl
  | cons a l ih =>
    rw [filterMap_cons, filter_cons, ih]
    cases hf : f a with
    | none => rfl
    | some b =>
      rw [Option.isSome_some, if_pos rfl, map_cons, hf]
      rfl

theorem rows_remapVirtualizationServiceIds [VirtualizationServiceRef B] (t : RowTable B)
    (snapshotId : Uuid) (services : HashMap Uuid Uuid) :
    (t.remapVirtualizationServiceIds snapshotId services).rows = t.rows.map fun r =>
      if r.snapshotId = some snapshotId then { r with base := remappedBase services r.base }
      else r := by
  have hchanged := filterMap_eq_map_filter
    (fun r : StoredRow B => remapVirtualizationServiceId services r.base)
    (fun r b => { r.toRow with base := b })
    (t.getAllInTx fun r => r.snapshotId = some snapshotId) (·.base)
  rw [remapVirtualizationServiceIds, hchanged]
  have hupdated := t.rows_update_of_perm
    (fun r => (remapVirtualizationServiceId services r.base).isSome &&
      decide (r.snapshotId = some snapshotId))
    (fun r => { r.toRow with base := remappedBase services r.base }) (fun _ => rfl)
    (((t.perm_getAllInTx _).filter _).trans (.of_eq filter_filter))
  refine hupdated.trans (map_congr_left fun r _ => ?_)
  by_cases hsnapshot : r.snapshotId = some snapshotId
  · rw [if_pos hsnapshot, decide_eq_true hsnapshot, Bool.and_true]
    cases hremap : remapVirtualizationServiceId services r.base with
    | none =>
      rw [remappedBase, hremap]
      rfl
    | some b =>
      rw [remappedBase, hremap]
      rfl
  · rw [if_neg hsnapshot, decide_eq_false hsnapshot, Bool.and_false]
    exact if_neg Bool.false_ne_true

end RowTable
end Scanopy
