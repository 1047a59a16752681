import Mathlib.Data.Int.ConditionallyCompleteOrder
import Mathlib.Order.ConditionallyCompleteLattice.Basic
import Scanopy.Lib.Lts
import Scanopy.Lib.Tiling
import Scanopy.Snapshots.TableEffects

/-! The versions of a row over time. Rows are created and snapshots are taken; the versions of one
row then follow each other without a gap, up to the live one, which is open. -/

namespace Scanopy
open Option Function StoredRow
variable {B : Type}

namespace StoredRow

def lineage (r : StoredRow B) : Uuid := r.lineageId.getD r.id

/-- `[valid_from, valid_to)`. -/
def interval (r : StoredRow B) : Set Timestamp :=
  {time | r.validFrom ≤ time ∧ ∀ validTo, r.validTo = some validTo → time < validTo}

def endTime (r : StoredRow B) : Timestamp := r.validTo.getD r.validFrom

theorem interval_eq_ico {r : StoredRow B} (h : r.isLive = false) :
    r.interval = Set.Ico r.validFrom r.endTime := by
  obtain ⟨⟨_, _, _, _ | validTo, _, _⟩, _⟩ := r
  · exact absurd h.symm Bool.false_ne_true
  · ext time
    constructor
    · exact fun htime => ⟨htime.1, htime.2 validTo rfl⟩
    · rintro ⟨hfrom, hto⟩
      refine ⟨hfrom, fun _ hvalidTo => ?_⟩
      cases hvalidTo
      exact hto

theorem interval_eq_ici {r : StoredRow B} (h : r.isLive = true) :
    r.interval = Set.Ici r.validFrom := by
  have hnone : r.validTo = none := isNone_iff_eq_none.mp h
  ext time
  refine ⟨fun htime => htime.1, fun htime => ⟨htime, fun validTo hvalidTo => ?_⟩⟩
  rw [hnone] at hvalidTo
  exact absurd hvalidTo nofun

end StoredRow

namespace RowTable

def versions (t : RowTable B) (lineage : Uuid) : Set (StoredRow B) :=
  {r | r ∈ t ∧ r.lineage = lineage}

structure VersionsTile (t : RowTable B) (now : Timestamp) (lineage : Uuid) : Prop where
  open_unique : ∃! r, r ∈ t.versions lineage ∧ r.isLive = true
  live_id : ∀ r ∈ t.versions lineage, r.isLive = true → r.id = lineage
  disjoint : (t.versions lineage).PairwiseDisjoint StoredRow.interval
  covers : ∃ first ∈ t.versions lineage, (∀ r ∈ t.versions lineage, first.validFrom ≤ r.validFrom) ∧
    Set.Ico first.validFrom now ⊆ ⋃ r ∈ t.versions lineage, r.interval

/-- The live rows of `t'` are those of `t`, with another start at most. -/
structure KeepsLive (t t' : RowTable B) : Prop where
  kept : ∀ r ∈ t, r.isLive = true → ∃ validFrom, { r with validFrom } ∈ t'
  origin : ∀ r' ∈ t', r'.isLive = true → ∃ r ∈ t, r.isLive = true ∧
    r' = { r with validFrom := r'.validFrom }

def copies (t : RowTable B) (id : Uuid) : Set (StoredRow B) := {c | c ∈ t ∧ c.lineageId = some id}

structure Versioned (now : Timestamp) (t : RowTable B) : Prop where
  live : ∀ r ∈ t, r.isLive = true →
    r.lineageId = none ∧ r.snapshotId = none ∧ r.validFrom ≤ now
  closed : ∀ c ∈ t, c.isLive = false → ∃ r ∈ t, r.isLive = true ∧ c.lineageId = some r.id
  tiles : ∀ r ∈ t, r.isLive = true → ∃ first, first ≤ r.validFrom ∧
    Tiles (t.copies r.id) (·.validFrom) (·.endTime) first r.validFrom ∧
    (first = r.validFrom ∨ ∃ c ∈ t.copies r.id, c.validFrom = first)

variable {t t' : RowTable B} {now now' : Timestamp}

section Original
variable {r : StoredRow B} (hr : r ∈ t) (horiginal : r.lineageId = none)
include hr horiginal

theorem mem_versions_original {c : StoredRow B} :
    c ∈ t.versions r.id ↔ c = r ∨ c ∈ t.copies r.id := by
  constructor
  · rintro ⟨hc, hlineage⟩
    cases hid : c.lineageId with
    | none =>
      rw [lineage, hid] at hlineage
      exact .inl (t.eq_of_key hc hr hlineage)
    | some id =>
      rw [lineage, hid] at hlineage
      exact .inr ⟨hc, by rw [hid, ← hlineage]; rfl⟩
  · rintro (rfl | hc)
    · refine ⟨hr, ?_⟩
      rw [lineage, horiginal]
      rfl
    · refine ⟨hc.1, ?_⟩
      rw [lineage, hc.2]
      rfl

variable {first : Timestamp} (hclosed : ∀ c ∈ t.copies r.id, c.isLive = false)
  (htiles : Tiles (t.copies r.id) (·.validFrom) (·.endTime) first r.validFrom)
include hclosed htiles

theorem pairwiseDisjoint_of_tiles : (t.versions r.id).PairwiseDisjoint StoredRow.interval := by
  have hmem := fun c => mem_versions_original (c := c) hr horiginal
  have hbefore : ∀ c ∈ t.copies r.id, Disjoint c.interval r.interval := by
    intro c hc
    rw [interval_eq_ico (hclosed c hc)]
    refine Set.disjoint_left.mpr fun time htime htime' => ?_
    exact absurd (htime.2.trans_le (htiles.upper c hc)) (not_lt.mpr htime'.1)
  intro c hc c' hc' hne
  rcases (hmem c).mp hc with rfl | hcopy
  · rcases (hmem c').mp hc' with rfl | hcopy'
    · exact absurd rfl hne
    · exact (hbefore c' hcopy').symm
  · rcases (hmem c').mp hc' with rfl | hcopy'
    · exact hbefore c hcopy
    · show Disjoint c.interval c'.interval
      rw [interval_eq_ico (hclosed c hcopy), interval_eq_ico (hclosed c' hcopy')]
      exact htiles.disjoint hcopy hcopy' hne

theorem ordConnected_of_tiles (hfirst : first ≤ r.validFrom) :
    (⋃ c ∈ t.versions r.id, c.interval).OrdConnected := by
  have hunion : ∀ time, time ∈ ⋃ c ∈ t.versions r.id, c.interval ↔
      time ∈ Set.Ico first r.validFrom ∨ time ∈ r.interval := by
    intro time
    simp only [Set.mem_iUnion, exists_prop]
    constructor
    · rintro ⟨c, hc, htime⟩
      rcases (mem_versions_original hr horiginal).mp hc with rfl | hcopy
      · exact .inr htime
      · rw [interval_eq_ico (hclosed c hcopy)] at htime
        exact .inl ⟨(htiles.lower c hcopy).trans htime.1, htime.2.trans_le (htiles.upper c hcopy)⟩
    · rintro (htime | htime)
      · have hcovered := htiles.covers htime
        simp only [Set.mem_iUnion, exists_prop] at hcovered
        obtain ⟨c, hc, hin⟩ := hcovered
        refine ⟨c, (mem_versions_original hr horiginal).mpr (.inr hc), ?_⟩
        rw [interval_eq_ico (hclosed c hc)]
        exact hin
      · exact ⟨r, (mem_versions_original hr horiginal).mpr (.inl rfl), htime⟩
  refine ⟨fun a ha b hb time htime => ?_⟩
  rw [hunion] at ha hb ⊢
  have hlower : first ≤ a := ha.elim And.left fun h => hfirst.trans h.1
  by_cases hbefore : time < r.validFrom
  · exact .inl ⟨hlower.trans htime.1, hbefore⟩
  · have hstarted : r.validFrom ≤ time := not_lt.mp hbefore
    rcases hb with hb | hb
    · exact absurd (hstarted.trans htime.2) (not_le.mpr hb.2)
    · exact .inr ⟨hstarted, fun validTo hvalidTo => htime.2.trans_lt (hb.2 validTo hvalidTo)⟩

end Original

namespace Versioned

theorem mono (h : Versioned now t) (hnow : now ≤ now') : Versioned now' t := by
  refine ⟨fun r hr hlive => ?_, h.closed, h.tiles⟩
  obtain ⟨hlineage, hsnapshot, hfrom⟩ := h.live r hr hlive
  exact ⟨hlineage, hsnapshot, hfrom.trans hnow⟩

variable {c r : StoredRow B} {id : Uuid}

theorem isLive_eq_false (h : Versioned now t)
    (hc : c ∈ t.copies id) : c.isLive = false := by
  by_contra hlive
  have hnone := (h.live c hc.1 (Bool.of_not_eq_false hlive)).1
  have hsome := hc.2
  rw [hnone] at hsome
  exact absurd hsome nofun

theorem exists_of_mem_copies (h : Versioned now t)
    (hc : c ∈ t.copies id) : ∃ r ∈ t, r.isLive = true ∧ r.id = id := by
  obtain ⟨r, hr, hlive, hlineage⟩ := h.closed c hc.1 (h.isLive_eq_false hc)
  refine ⟨r, hr, hlive, ?_⟩
  exact some.inj (hlineage.symm.trans hc.2)

theorem mem_versions_iff (h : Versioned now t) (hr : r ∈ t)
    (hlive : r.isLive = true) : c ∈ t.versions r.id ↔ c = r ∨ c ∈ t.copies r.id :=
  mem_versions_original hr (h.live r hr hlive).1

theorem exists_live (h : Versioned now t) (hr : r ∈ t) :
    ∃ live ∈ t, live.isLive = true ∧ r.lineage = live.id := by
  cases hlive : r.isLive with
  | true =>
    refine ⟨r, hr, hlive, ?_⟩
    rw [lineage, (h.live r hr hlive).1]
    rfl
  | false =>
    obtain ⟨live, hmem, hopen, hlineage⟩ := h.closed r hr hlive
    refine ⟨live, hmem, hopen, ?_⟩
    rw [lineage, hlineage]
    rfl

theorem interval_of_mem_copies (h : Versioned now t)
    (hc : c ∈ t.copies id) : c.interval = Set.Ico c.validFrom c.endTime :=
  interval_eq_ico (h.isLive_eq_false hc)

section Versions
variable {r : StoredRow B} (h : Versioned now t) (hr : r ∈ t) (hlive : r.isLive = true)
include h hr hlive

theorem eq_of_mem_versions {c : StoredRow B} (hc : c ∈ t.versions r.id)
    (hopen : c.isLive = true) : c = r := by
  refine ((h.mem_versions_iff hr hlive).mp hc).resolve_right fun hcopy => ?_
  exact absurd ((h.isLive_eq_false hcopy).symm.trans hopen) Bool.false_ne_true

theorem pairwiseDisjoint_versions : (t.versions r.id).PairwiseDisjoint StoredRow.interval := by
  obtain ⟨first, -, htiles, -⟩ := h.tiles r hr hlive
  exact pairwiseDisjoint_of_tiles hr (h.live r hr hlive).1 (fun c hc => h.isLive_eq_false hc) htiles

theorem versions_cover : ∃ first ∈ t.versions r.id,
    (∀ c ∈ t.versions r.id, first.validFrom ≤ c.validFrom) ∧
      Set.Ici first.validFrom ⊆ ⋃ c ∈ t.versions r.id, c.interval := by
  have hmem := fun c => h.mem_versions_iff (c := c) hr hlive
  obtain ⟨start, hstart, htiles, hattained⟩ := h.tiles r hr hlive
  have hself : r ∈ t.versions r.id := (hmem r).mpr (.inl rfl)
  have hlower : ∀ c ∈ t.versions r.id, start ≤ c.validFrom := by
    intro c hc
    rcases (hmem c).mp hc with rfl | hcopy
    · exact hstart
    · exact htiles.lower c hcopy
  obtain ⟨first, hfirst, rfl⟩ : ∃ c ∈ t.versions r.id, c.validFrom = start := by
    rcases hattained with heq | ⟨c, hc, hcstart⟩
    · exact ⟨r, hself, heq.symm⟩
    · exact ⟨c, (hmem c).mpr (.inr hc), hcstart⟩
  refine ⟨first, hfirst, hlower, fun time htime => ?_⟩
  simp only [Set.mem_iUnion]
  by_cases hbefore : time < r.validFrom
  · have hcovered := htiles.covers ⟨htime, hbefore⟩
    simp only [Set.mem_iUnion] at hcovered
    obtain ⟨c, hc, hin⟩ := hcovered
    refine ⟨c, (hmem c).mpr (.inr hc), ?_⟩
    rw [h.interval_of_mem_copies hc]
    exact hin
  · refine ⟨r, hself, ?_⟩
    rw [interval_eq_ici hlive]
    exact not_lt.mp hbefore

theorem versionsTile : t.VersionsTile now r.id where
  open_unique := ⟨r, ⟨(h.mem_versions_iff hr hlive).mpr (.inl rfl), hlive⟩,
    fun _ hc => h.eq_of_mem_versions hr hlive hc.1 hc.2⟩
  live_id := fun c hc hopen => by rw [h.eq_of_mem_versions hr hlive hc hopen]
  disjoint := h.pairwiseDisjoint_versions hr hlive
  covers := by
    obtain ⟨first, hfirst, hlower, hcover⟩ := h.versions_cover hr hlive
    exact ⟨first, hfirst, hlower, fun time htime => hcover htime.1⟩

end Versions

theorem empty (now : Timestamp) : Versioned now (⟨[], List.nodup_nil⟩ : RowTable B) where
  live := fun _ hr => (List.not_mem_nil hr).elim
  closed := fun _ hc => (List.not_mem_nil hc).elim
  tiles := fun _ hr => (List.not_mem_nil hr).elim

theorem insert (h : Versioned now t) (hinsert : t.insertMany [r] = some t')
    (hopen : r.isLive = true) (hlineage : r.lineageId = none) (hsnapshot : r.snapshotId = none)
    (hfrom : r.validFrom ≤ now) : Versioned now t' := by
  have hfresh : ∀ r' ∈ t, r'.id ≠ r.id :=
    fun r' hr' => (Table.insertMany_eq_some hinsert).2.2 r' hr' r List.mem_cons_self
  have hmem : ∀ c, c ∈ t' ↔ c ∈ t ∨ c = r := by
    intro c
    rw [Table.mem_insertMany hinsert, List.mem_singleton]
  have hcopies : ∀ id, t'.copies id = t.copies id := by
    intro id
    ext c
    constructor
    · rintro ⟨hc, hid⟩
      rcases (hmem c).mp hc with hc | rfl
      · exact ⟨hc, hid⟩
      · rw [hlineage] at hid
        exact absurd hid nofun
    · exact fun hc => ⟨(hmem c).mpr (.inl hc.1), hc.2⟩
  refine ⟨fun r' hr' hlive => ?_, fun c hc hclosed => ?_, fun r' hr' hlive => ?_⟩
  · rcases (hmem r').mp hr' with hr' | rfl
    · exact h.live r' hr' hlive
    · exact ⟨hlineage, hsnapshot, hfrom⟩
  · rcases (hmem c).mp hc with hc | rfl
    · obtain ⟨r', hr', hlive, hid⟩ := h.closed c hc hclosed
      exact ⟨r', (hmem r').mpr (.inl hr'), hlive, hid⟩
    · exact absurd (hclosed.symm.trans hopen) Bool.false_ne_true
  · rw [hcopies]
    rcases (hmem r').mp hr' with hr' | rfl
    · exact h.tiles r' hr' hlive
    · have hnone : t.copies r'.id = ∅ := by
        refine Set.eq_empty_iff_forall_notMem.mpr fun c hc => ?_
        obtain ⟨live, hmem, -, hid⟩ := h.exists_of_mem_copies hc
        exact hfresh live hmem hid
      rw [hnone]
      exact ⟨r'.validFrom, le_rfl, Tiles.empty _ _ _, .inl rfl⟩

theorem map (h : Versioned now t) {f : StoredRow B → StoredRow B} (hrows : t'.rows = t.rows.map f)
    (hf : ∀ r, ∃ base, f r = { r with base }) : Versioned now t' := by
  choose base hbase using hf
  have hid : ∀ r, (f r).id = r.id := fun r => by rw [hbase]
  have hfrom : ∀ r, (f r).validFrom = r.validFrom := fun r => by rw [hbase]
  have hto : ∀ r, (f r).validTo = r.validTo := fun r => by rw [hbase]
  have hlineage : ∀ r, (f r).lineageId = r.lineageId := fun r => by rw [hbase]
  have hsnapshot : ∀ r, (f r).snapshotId = r.snapshotId := fun r => by rw [hbase]
  have hlive : ∀ r, (f r).isLive = r.isLive := fun r => congrArg Option.isNone (hto r)
  have hend : ∀ r, (f r).endTime = r.endTime := fun r => by
    rw [endTime, hto, hfrom]
    rfl
  have hmem : ∀ c, c ∈ t' ↔ ∃ r ∈ t, f r = c := by
    intro c
    show c ∈ t'.rows ↔ _
    rw [hrows, List.mem_map]
    rfl
  have hcopies : ∀ id, t'.copies id = Set.image f (t.copies id) := by
    intro id
    ext c
    constructor
    · rintro ⟨hc, hcid⟩
      obtain ⟨r, hr, rfl⟩ := (hmem c).mp hc
      rw [hlineage] at hcid
      exact ⟨r, ⟨hr, hcid⟩, rfl⟩
    · rintro ⟨r, ⟨hr, hrid⟩, rfl⟩
      refine ⟨(hmem _).mpr ⟨r, hr, rfl⟩, ?_⟩
      rw [hlineage]
      exact hrid
  refine ⟨fun c hc hopen => ?_, fun c hc hclosed => ?_, fun c hc hopen => ?_⟩
  · obtain ⟨r, hr, rfl⟩ := (hmem c).mp hc
    rw [hlineage, hsnapshot, hfrom]
    rw [hlive] at hopen
    exact h.live r hr hopen
  · obtain ⟨r, hr, rfl⟩ := (hmem c).mp hc
    rw [hlive] at hclosed
    obtain ⟨live, hmem', hopen, hid'⟩ := h.closed r hr hclosed
    refine ⟨f live, (hmem _).mpr ⟨live, hmem', rfl⟩, ?_, ?_⟩
    · rw [hlive]
      exact hopen
    · rw [hlineage, hid]
      exact hid'
  · obtain ⟨r, hr, rfl⟩ := (hmem c).mp hc
    rw [hlive] at hopen
    obtain ⟨first, hfirst, htiles, hattained⟩ := h.tiles r hr hopen
    rw [hcopies, hid, hfrom]
    refine ⟨first, hfirst, htiles.image hfrom hend, ?_⟩
    rcases hattained with heq | ⟨c', hc', hfirst'⟩
    · exact .inl heq
    · refine .inr ⟨f c', Set.mem_image_of_mem f hc', ?_⟩
      rw [hfrom]
      exact hfirst'

section CloseAndClone
variable [Snapshotable B] {filter : B → Bool} {takenAt : Timestamp} {snapshotId : Uuid}
  {maps : FkMaps} {newId : Uuid → Uuid} {mapping : HashMap Uuid Uuid}
variable {c : StoredRow B}

theorem isLive_cases
    (hclone : t.closeAndCloneFor filter takenAt snapshotId maps newId = some (t', mapping))
    (hc : c ∈ t') (hopen : c.isLive = true) : ∃ r ∈ t, r.isLive = true ∧
      ((isCloned filter r = true ∧ c = advance takenAt r) ∨
        (¬isCloned filter r = true ∧ c = r)) := by
  rcases (mem_closeAndCloneFor hclone).mp hc with ⟨r, hr, hcloned, rfl⟩ | ⟨hc, hcloned⟩ |
    ⟨r, hr, hcloned, rfl⟩
  · exact ⟨r, hr, (Bool.and_eq_true_iff.mp hcloned).1, .inl ⟨hcloned, rfl⟩⟩
  · exact ⟨c, hc, hopen, .inr ⟨hcloned, rfl⟩⟩
  · exact absurd hopen Bool.false_ne_true

theorem exists_of_isLive
    (hclone : t.closeAndCloneFor filter takenAt snapshotId maps newId = some (t', mapping))
    {r : StoredRow B} (hr : r ∈ t) : ∃ validFrom, { r with validFrom } ∈ t' := by
  by_cases hcloned : isCloned filter r = true
  · exact ⟨takenAt, (mem_closeAndCloneFor hclone).mpr (.inl ⟨r, hr, hcloned, rfl⟩)⟩
  · exact ⟨r.validFrom, (mem_closeAndCloneFor hclone).mpr (.inr (.inl ⟨hr, hcloned⟩))⟩

theorem mem_copies_iff (h : Versioned takenAt t)
    (hclone : t.closeAndCloneFor filter takenAt snapshotId maps newId = some (t', mapping))
    {id : Uuid} :
    c ∈ t'.copies id ↔ c ∈ t.copies id ∨ ∃ r ∈ t, isCloned filter r = true ∧ r.id = id ∧
      c = closedRow takenAt snapshotId maps newId mapping r := by
  constructor
  · rintro ⟨hc, hid⟩
    rcases (mem_closeAndCloneFor hclone).mp hc with ⟨r, hr, hcloned, rfl⟩ | ⟨hc, -⟩ |
      ⟨r, hr, hcloned, rfl⟩
    · have hnone : (advance takenAt r).lineageId = none :=
        (h.live r hr (Bool.and_eq_true_iff.mp hcloned).1).1
      exact absurd (hnone.symm.trans hid) nofun
    · exact .inl ⟨hc, hid⟩
    · exact .inr ⟨r, hr, hcloned, some.inj hid, rfl⟩
  · rintro (hc | ⟨r, hr, hcloned, rfl, rfl⟩)
    · refine ⟨(mem_closeAndCloneFor hclone).mpr (.inr (.inl ⟨hc.1, fun hcloned => ?_⟩)), hc.2⟩
      have hopen := (Bool.and_eq_true_iff.mp hcloned).1
      exact absurd ((h.isLive_eq_false hc).symm.trans hopen) Bool.false_ne_true
    · exact ⟨(mem_closeAndCloneFor hclone).mpr (.inr (.inr ⟨r, hr, hcloned, rfl⟩)), rfl⟩

theorem closeAndCloneFor (h : Versioned takenAt t)
    (hclone : t.closeAndCloneFor filter takenAt snapshotId maps newId = some (t', mapping)) :
    Versioned takenAt t' := by
  refine ⟨fun c hc hopen => ?_, fun c hc hclosed => ?_, fun c hc hopen => ?_⟩
  · obtain ⟨r, hr, hropen, ⟨-, rfl⟩ | ⟨-, rfl⟩⟩ := isLive_cases hclone hc hopen
    · obtain ⟨hlineage, hsnapshot, -⟩ := h.live r hr hropen
      exact ⟨hlineage, hsnapshot, le_rfl⟩
    · exact h.live c hr hropen
  · rcases (mem_closeAndCloneFor hclone).mp hc with ⟨r, hr, hcloned, rfl⟩ | ⟨hc, -⟩ |
      ⟨r, hr, hcloned, rfl⟩
    · have hropen := (Bool.and_eq_true_iff.mp hcloned).1
      exact absurd (hclosed.symm.trans hropen) Bool.false_ne_true
    · obtain ⟨r, hr, hropen, hlineage⟩ := h.closed c hc hclosed
      obtain ⟨validFrom, hkept⟩ := exists_of_isLive hclone hr
      exact ⟨_, hkept, hropen, hlineage⟩
    · obtain ⟨validFrom, hkept⟩ := exists_of_isLive hclone hr
      exact ⟨_, hkept, (Bool.and_eq_true_iff.mp hcloned).1, rfl⟩
  · obtain ⟨r, hr, hropen, ⟨hcloned, rfl⟩ | ⟨hcloned, rfl⟩⟩ := isLive_cases hclone hc hopen
    · obtain ⟨first, hfirst, htiles, hattained⟩ := h.tiles r hr hropen
      have hinsert : t'.copies r.id = Insert.insert
          (closedRow takenAt snapshotId maps newId mapping r) (t.copies r.id) := by
        ext c
        rw [h.mem_copies_iff hclone, Set.mem_insert_iff, or_comm]
        refine or_congr_left ⟨?_, fun hc => ⟨r, hr, hcloned, rfl, hc⟩⟩
        rintro ⟨r', hr', -, hid, rfl⟩
        rw [t.eq_of_key hr' hr hid]
      have hstart : r.validFrom ≤ takenAt := (h.live r hr hropen).2.2
      refine ⟨first, hfirst.trans hstart, ?_, .inr ?_⟩
      · show Tiles (t'.copies r.id) _ _ _ takenAt
        rw [hinsert]
        exact htiles.insert hfirst rfl rfl hstart
      · show ∃ c ∈ t'.copies r.id, c.validFrom = first
        rw [hinsert]
        rcases hattained with heq | ⟨c, hc, hcfirst⟩
        · exact ⟨_, Set.mem_insert _ _, heq.symm⟩
        · exact ⟨c, Set.mem_insert_of_mem _ hc, hcfirst⟩
    · have hsame : t'.copies c.id = t.copies c.id := by
        ext c'
        rw [h.mem_copies_iff hclone]
        refine or_iff_left ?_
        rintro ⟨r', hr', hcloned', hid, -⟩
        rw [t.eq_of_key hr' hr hid] at hcloned'
        exact hcloned hcloned'
      rw [hsame]
      exact h.tiles c hr hropen

end CloseAndClone

theorem remapVirtualizationServiceIds [VirtualizationServiceRef B] (h : Versioned now t)
    (snapshotId : Uuid) (services : HashMap Uuid Uuid) :
    Versioned now (t.remapVirtualizationServiceIds snapshotId services) := by
  refine h.map (rows_remapVirtualizationServiceIds t snapshotId services) fun r => ?_
  split_ifs
  · exact ⟨remappedBase services r.base, rfl⟩
  · exact ⟨r.base, rfl⟩

end Versioned

namespace KeepsLive

theorem refl (t : RowTable B) : KeepsLive t t :=
  ⟨fun r hr _ => ⟨r.validFrom, hr⟩, fun r hr hopen => ⟨r, hr, hopen, rfl⟩⟩

theorem trans {t'' : RowTable B} (h : KeepsLive t t') (h' : KeepsLive t' t'') :
    KeepsLive t t'' := by
  refine ⟨fun r hr hopen => ?_, fun r hr hopen => ?_⟩
  · obtain ⟨validFrom, hkept⟩ := h.kept r hr hopen
    exact h'.kept { r with validFrom } hkept hopen
  · obtain ⟨r', hr', hopen', heq⟩ := h'.origin r hr hopen
    obtain ⟨r₀, hr₀, hopen₀, heq₀⟩ := h.origin r' hr' hopen'
    refine ⟨r₀, hr₀, hopen₀, ?_⟩
    rw [heq, heq₀]

theorem closeAndCloneFor [Snapshotable B] {filter : B → Bool} {takenAt : Timestamp}
    {snapshotId : Uuid} {maps : FkMaps} {newId : Uuid → Uuid} {mapping : HashMap Uuid Uuid}
    (hclone : t.closeAndCloneFor filter takenAt snapshotId maps newId = some (t', mapping)) :
    KeepsLive t t' := by
  refine ⟨fun r hr _ => Versioned.exists_of_isLive hclone hr, fun c hc hopen => ?_⟩
  obtain ⟨r, hr, hropen, ⟨-, rfl⟩ | ⟨-, rfl⟩⟩ := Versioned.isLive_cases hclone hc hopen
  · exact ⟨r, hr, hropen, rfl⟩
  · exact ⟨c, hr, hropen, rfl⟩

theorem remapVirtualizationServiceIds [VirtualizationServiceRef B] (h : Versioned now t)
    (snapshotId : Uuid) (services : HashMap Uuid Uuid) :
    KeepsLive t (t.remapVirtualizationServiceIds snapshotId services) := by
  have hmem : ∀ c, c ∈ t.remapVirtualizationServiceIds snapshotId services ↔
      ∃ r ∈ t, (if r.snapshotId = some snapshotId then
        { r with base := remappedBase services r.base } else r) = c := by
    intro c
    show c ∈ (t.remapVirtualizationServiceIds snapshotId services).rows ↔ _
    rw [rows_remapVirtualizationServiceIds, List.mem_map]
    rfl
  have hsnapshot : ∀ r ∈ t, r.isLive = true → r.snapshotId ≠ some snapshotId := by
    intro r hr hopen hsome
    exact absurd ((h.live r hr hopen).2.1.symm.trans hsome) nofun
  refine ⟨fun r hr hopen => ⟨r.validFrom, ?_⟩, fun c hc hopen => ?_⟩
  · exact (hmem r).mpr ⟨r, hr, if_neg (hsnapshot r hr hopen)⟩
  · obtain ⟨r, hr, rfl⟩ := (hmem c).mp hc
    split_ifs at hopen with hsome
    · exact absurd hsome (hsnapshot r hr hopen)
    · refine ⟨r, hr, hopen, ?_⟩
      rw [if_neg hsome]

end KeepsLive
end RowTable

namespace SnapshotRun
variable {run : SnapshotRun} {P : ∀ k : SnapshotTable, RowTable k.Base → Prop}
variable {after rows : NetworkRows}

theorem holds_update {k : SnapshotTable} {t : RowTable k.Base}
    (h : ∀ j, P j (rows j)) (ht : P k t) : ∀ j, P j (Function.update rows k t j) := by
  intro j
  by_cases hj : j = k
  · subst hj
    rw [update_self]
    exact ht
  · rw [update_of_ne hj]
    exact h j

/-- A property of tables that the clone of a table and the second pass keep holds of every table
after a snapshot. -/
theorem runCloseAndClone_invariant
    (hclone : ∀ (k : SnapshotTable) [Snapshotable k.Base] (filter : k.Base → Bool) (maps : FkMaps)
      (t t' : RowTable k.Base) (m : HashMap Uuid Uuid), P k t →
      t.closeAndCloneFor filter run.takenAt run.snapshotId maps (run.newId k) = some (t', m) →
      P k t')
    (hremap : ∀ (k : SnapshotTable) [VirtualizationServiceRef k.Base] (services : HashMap Uuid Uuid)
      (t : RowTable k.Base), P k t →
      P k (t.remapVirtualizationServiceIds run.snapshotId services))
        (hrun : run.runCloseAndClone rows = some after)
    (h : ∀ k, P k (rows k)) : ∀ k, P k (after k) := by
  have hstep : ∀ (k : SnapshotTable) [Snapshotable k.Base] {filter : k.Base → Bool}
      {setMap : FkMaps → HashMap Uuid Uuid → FkMaps} {s s' : CloneState},
      run.clone k filter setMap s = some s' → (∀ j, P j (s.rows j)) → ∀ j, P j (s'.rows j) := by
    intro k _ filter setMap s s' hs h
    obtain ⟨⟨t, m⟩, ht, rfl⟩ := map_eq_some_iff.mp hs
    exact holds_update h (hclone k filter s.maps (s.rows k) t m (h k) ht)
  have hpass : ∀ (k : SnapshotTable) [VirtualizationServiceRef k.Base] {s : CloneState},
      (∀ j, P j (s.rows j)) → ∀ j, P j ((run.remapVirtualization k s).rows j) := by
    intro k _ s h
    exact holds_update h (hremap k s.maps.services (s.rows k) (h k))
  rw [runCloseAndClone] at hrun
  obtain ⟨s₁, h₁, hrun⟩ := bind_eq_some_iff.mp hrun
  obtain ⟨s₂, h₂, hrun⟩ := bind_eq_some_iff.mp hrun
  obtain ⟨s₃, h₃, hrun⟩ := bind_eq_some_iff.mp hrun
  obtain ⟨s₄, h₄, hrun⟩ := bind_eq_some_iff.mp hrun
  obtain ⟨s₅, h₅, hrun⟩ := bind_eq_some_iff.mp hrun
  obtain ⟨s₆, h₆, hrun⟩ := bind_eq_some_iff.mp hrun
  obtain ⟨s₇, h₇, hrun⟩ := bind_eq_some_iff.mp hrun
  obtain ⟨s₈, h₈, hrun⟩ := bind_eq_some_iff.mp hrun
  obtain ⟨s₉, h₉, hrun⟩ := bind_eq_some_iff.mp hrun
  obtain ⟨s₁₀, h₁₀, hrun⟩ := bind_eq_some_iff.mp hrun
  obtain ⟨s₁₁, h₁₁, hrun⟩ := bind_eq_some_iff.mp hrun
  obtain ⟨s₁₂, h₁₂, hrun⟩ := bind_eq_some_iff.mp hrun
  cases hrun
  have hs₃ := hstep .host h₃ (hstep .vlan h₂ (hstep .subnet h₁ h))
  have hs₆ := hstep .service h₆ (hstep .port h₅ (hstep .ipAddress h₄ hs₃))
  have hs₆ := hpass .subnet (hpass .service (hpass .host hs₆))
  have hs₉ := hstep .subnetVlan h₉ (hstep .binding h₈ (hstep .interface h₇ hs₆))
  exact hstep .entityTag h₁₂ (hstep .dependencyMember h₁₁ (hstep .dependency h₁₀ hs₉))

theorem versioned_runCloseAndClone {now : Timestamp}
    (hrun : run.runCloseAndClone rows = some after) (hnow : now ≤ run.takenAt)
    (h : ∀ k, (rows k).Versioned now) :
    ∀ k, (after k).Versioned run.takenAt ∧ (rows k).KeepsLive (after k) := by
  refine runCloseAndClone_invariant
    (P := fun k t => t.Versioned run.takenAt ∧ (rows k).KeepsLive t) ?_ ?_ hrun ?_
  · intro k _ filter maps t t' m ht hclone
    exact ⟨ht.1.closeAndCloneFor hclone, ht.2.trans (.closeAndCloneFor hclone)⟩
  · intro k _ services t ht
    exact ⟨ht.1.remapVirtualizationServiceIds run.snapshotId services,
      ht.2.trans (.remapVirtualizationServiceIds ht.1 run.snapshotId services)⟩
  · exact fun k => ⟨(h k).mono hnow, .refl (rows k)⟩

end SnapshotRun

/-- The tables of the server, and the time of the last event. -/
structure VersionedRows where
  rows : NetworkRows
  now : Timestamp

inductive VersionEvent
  | create (k : SnapshotTable) (id : Uuid) (createdAt validFrom : Timestamp) (base : k.Base)
  | snapshot (run : SnapshotRun)

namespace VersionEvent

def time : VersionEvent → Timestamp
  | create _ _ _ validFrom _ => validFrom
  | snapshot run => run.takenAt

/-- A new row is live and of no lineage. An insert or a snapshot that fails is rolled back. -/
def apply (rows : NetworkRows) : VersionEvent → Option NetworkRows
  | create k id createdAt validFrom base =>
    ((rows k).insertMany [⟨⟨id, createdAt, validFrom, none, none, base⟩, none⟩]).map
      (Function.update rows k)
  | snapshot run => run.runCloseAndClone rows

def NotBefore (s : VersionedRows) (e : VersionEvent) : Prop := s.now ≤ e.time

end VersionEvent

/-- The runs of row creations and snapshots from empty tables. -/
def versionHistory (start : Timestamp) : Lts VersionedRows VersionEvent where
  init := ⟨fun _ => ⟨[], List.nodup_nil⟩, start⟩
  step s e := some ⟨(e.apply s.rows).getD s.rows, e.time⟩

namespace VersionedRows
variable {start : Timestamp} {s : VersionedRows}

theorem versioned_of_reachable
    (hs : (versionHistory start).ReachableVia VersionEvent.NotBefore s) :
    ∀ k, (s.rows k).Versioned s.now := by
  refine hs.invariant (P := fun s => ∀ k, (s.rows k).Versioned s.now)
    (fun k => .empty start) ?_
  intro s e s' _ h hnow hstep
  cases hstep
  cases happly : e.apply s.rows with
  | none => exact fun k => (h k).mono hnow
  | some after =>
    cases e with
    | create k id createdAt validFrom base =>
      obtain ⟨t, ht, rfl⟩ := map_eq_some_iff.mp happly
      have hk := ((h k).mono hnow).insert ht rfl rfl rfl le_rfl
      exact SnapshotRun.holds_update (fun j => (h j).mono hnow) hk
    | snapshot run =>
      exact fun k => (SnapshotRun.versioned_runCloseAndClone happly hnow h k).1

/-- In every run with times that do not decrease, the versions of every row tile the time since
the first of them, and a snapshot changes the start of a live row and nothing else of it. -/
theorem versions_tile (hs : (versionHistory start).ReachableVia VersionEvent.NotBefore s) :
    (∀ k, ∀ r ∈ s.rows k, (s.rows k).VersionsTile s.now r.lineage) ∧
      ∀ run s', VersionEvent.NotBefore s (.snapshot run) →
        (versionHistory start).step s (.snapshot run) = some s' →
        ∀ k, (s.rows k).KeepsLive (s'.rows k) := by
  have hversioned := versioned_of_reachable hs
  refine ⟨fun k r hr => ?_, fun run s' hnow hstep k => ?_⟩
  · obtain ⟨live, hlive, hopen, hlineage⟩ := (hversioned k).exists_live hr
    rw [hlineage]
    exact (hversioned k).versionsTile hlive hopen
  · cases hstep
    cases happly : run.runCloseAndClone s.rows with
    | none =>
      show (s.rows k).KeepsLive ((run.runCloseAndClone s.rows).getD s.rows k)
      rw [happly]
      exact .refl _
    | some after =>
      show (s.rows k).KeepsLive ((run.runCloseAndClone s.rows).getD s.rows k)
      rw [happly]
      exact (SnapshotRun.versioned_runCloseAndClone happly hnow hversioned k).2

def nightlyEvents : List VersionEvent :=
  [.create .host 1 1 1 ⟨"web", 9, none, none, none, false, []⟩,
    .snapshot ⟨9, 5, 100, fun _ _ => 2⟩, .snapshot ⟨9, 8, 101, fun _ _ => 3⟩]

def nightlyRows : VersionedRows :=
  ((versionHistory 0).run (versionHistory 0).init nightlyEvents).getD (versionHistory 0).init

theorem reachable_nightlyRows :
    (versionHistory 0).ReachableVia VersionEvent.NotBefore nightlyRows := by
  have hrun : (versionHistory 0).run (versionHistory 0).init nightlyEvents = some nightlyRows := rfl
  refine Lts.reachableVia_of_run .init ?_ hrun
  refine ⟨(by decide : (0 : ℤ) ≤ 1), fun s₁ h₁ => ?_⟩
  cases h₁
  refine ⟨(by decide : (1 : ℤ) ≤ 5), fun s₂ h₂ => ?_⟩
  cases h₂
  exact ⟨(by decide : (5 : ℤ) ≤ 8), fun _ _ => trivial⟩

theorem versions_tile_nightly :
    (nightlyRows.rows .host).rows.map (fun r => (r.validFrom, r.validTo)) =
        [(8, none), (1, some 5), (5, some 8)] ∧
      ∀ k, ∀ r ∈ nightlyRows.rows k, (nightlyRows.rows k).VersionsTile nightlyRows.now r.lineage :=
  ⟨by decide +kernel, (versions_tile reachable_nightlyRows).1⟩

end VersionedRows

end Scanopy
