import Scanopy.Snmp.Agents
import Scanopy.Snmp.Authority

/-! Which interfaces a walk of the interface table accounts for. The index column decides the set; a
row of another column for an interface that it does not list withdraws the set. -/

namespace Scanopy

open List Option

def ifIndexes (rows : List (List ℕ × SnmpValue)) : List ℤ :=
  rows.filterMap fun row => row.1.getLast?.map asI32

structure Walks.Reads (walks : Walks) (agent : SnmpAgent) : Prop where
  rows : ∀ c, (walks c).rows <+: agent.rows c
  complete : ∀ c, (walks c).stop.isComplete = true → (walks c).rows = agent.rows c

def WalkResult.columnWalk {σ : Type*} (base : Oid) (r : WalkResult σ) : ColumnWalk :=
  ⟨r.entries.map fun e => (e.1.drop base.length, e.2), r.stop⟩

def MibTable.column (mib : MibTable) (base : Oid) : List (List ℕ × SnmpValue) :=
  (mib.subtree base).map fun row => (row.1.drop base.length, row.2)

theorem IfTableEntry.ifIndex_read (column : SnmpColumn) (value : SnmpValue) (e : IfTableEntry) :
    (e.read column value).ifIndex = e.ifIndex := by
  cases column with
  | ifSpeed =>
    simp only [read]
    split_ifs <;> rfl
  | ifHighSpeed =>
    simp only [read]
    split <;> rfl
  | _ => rfl

theorem BTreeMap.get_foldl_read (column : SnmpColumn) (rows : List (ℤ × SnmpValue))
    (m : BTreeMap ℤ IfTableEntry) (hm : ∀ i e, m.get i = some e → e.ifIndex = i) :
    let m' := rows.foldl (fun m row => m.alter row.1 { ifIndex := row.1 }
      (IfTableEntry.read column row.2)) m
    (∀ i e, m'.get i = some e → e.ifIndex = i) ∧
      ∀ i, (m'.get i).isSome = true ↔ (m.get i).isSome = true ∨ i ∈ rows.map Prod.fst := by
  induction rows generalizing m with
  | nil => exact ⟨hm, fun i => by simp⟩
  | cons row rows ih =>
    have hm' : ∀ i e, (m.alter row.1 { ifIndex := row.1 }
        (IfTableEntry.read column row.2)).get i = some e → e.ifIndex = i := by
      intro i e he
      rw [BTreeMap.get_alter] at he
      split_ifs at he with hi
      · subst hi
        rw [← some.inj he, IfTableEntry.ifIndex_read]
        cases hrow : m.get row.1 with
        | none => rfl
        | some e' => exact hm row.1 e' hrow
      · exact hm i e he
    obtain ⟨hnamed, hkeys⟩ := ih _ hm'
    refine ⟨hnamed, fun i => ?_⟩
    rw [foldl_cons, hkeys, BTreeMap.get_alter, map_cons, mem_cons]
    split_ifs with hi
    · simp [hi]
    · simp [hi]

namespace IfTableStage
variable {walks : Walks}
variable {s : IfTableStage} {read : List SnmpColumn}

def indexed (walk : ColumnWalk) : List (ℤ × SnmpValue) :=
  walk.rows.filterMap fun row => row.1.getLast?.map fun i => (asI32 i, row.2)

theorem map_fst_indexed (walk : ColumnWalk) : (indexed walk).map Prod.fst = ifIndexes walk.rows := by
  rw [indexed, ifIndexes, map_filterMap]
  refine filterMap_congr fun row _ => ?_
  rw [Option.map_map]
  rfl

structure Ok (s : IfTableStage) (read : List SnmpColumn) (walks : Walks) : Prop where
  named : ∀ i e, s.entries.get i = some e → e.ifIndex = i
  covers : s.foreignRows = 0 → ∀ c ∈ read, ∀ i ∈ ifIndexes (walks c).rows,
    (s.entries.get i).isSome = true

def isKnown (s : IfTableStage) (row : ℤ × SnmpValue) : Bool :=
  s.knownIfIndexes.all fun listed => row.1 ∈ listed

theorem entries_walkColumn (s : IfTableStage) (column : SnmpColumn) :
    (s.walkColumn walks column).entries =
      ((indexed (walks column)).filter s.isKnown).foldl (fun m row =>
        m.alter row.1 { ifIndex := row.1 } (IfTableEntry.read column row.2)) s.entries := by
  rw [walkColumn, partition_eq_filter_filter]
  rfl

theorem foreignRows_walkColumn (s : IfTableStage) (column : SnmpColumn) :
    (s.walkColumn walks column).foreignRows =
      s.foreignRows + ((indexed (walks column)).filter fun row => !s.isKnown row).length := by
  rw [walkColumn, partition_eq_filter_filter]
  rfl

theorem Ok.walkColumn (hs : s.Ok read walks)
    (column : SnmpColumn) : (s.walkColumn walks column).Ok (read ++ [column]) walks := by
  obtain ⟨hnamed, hkeys⟩ := BTreeMap.get_foldl_read column
    ((indexed (walks column)).filter s.isKnown) s.entries hs.named
  rw [← entries_walkColumn] at hnamed hkeys
  refine ⟨hnamed, fun hforeign c hc i hi => (hkeys i).mpr ?_⟩
  rw [foreignRows_walkColumn, Nat.add_eq_zero_iff, length_eq_zero_iff,
    filter_eq_nil_iff] at hforeign
  obtain hc | hc := mem_append.mp hc
  · exact .inl (hs.covers hforeign.1 c hc i hi)
  · -- no row of the column is foreign, so that each one has entered the map
    rw [mem_singleton.mp hc, ← map_fst_indexed] at hi
    obtain ⟨row, hrow, rfl⟩ := List.mem_map.mp hi
    have hknown : s.isKnown row = true := by simpa using hforeign.2 row hrow
    exact .inr (List.mem_map_of_mem (mem_filter.mpr ⟨hrow, hknown⟩))

theorem Ok.foldl (hs : s.Ok read walks)
    (columns : List SnmpColumn) :
    (columns.foldl (IfTableStage.walkColumn walks) s).Ok (read ++ columns) walks := by
  induction columns generalizing s read with
  | nil =>
    rw [append_nil]
    exact hs
  | cons c columns ih =>
    have hrest := ih (hs.walkColumn c)
    rw [append_assoc] at hrest
    exact hrest

theorem Ok.start (walks : Walks) : ({} : IfTableStage).Ok [] walks :=
  ⟨fun i _ he => absurd (BTreeMap.get_empty (V := IfTableEntry) i ▸ he) nofun,
    fun _ _ hc => nomatch hc⟩

theorem Ok.existsUnique (hs : s.Ok read walks)
    (hforeign : s.foreignRows = 0) {c : SnmpColumn} (hc : c ∈ read) {i : ℤ}
    (hi : i ∈ ifIndexes (walks c).rows) : ∃! e, e ∈ s.entries.values ∧ e.ifIndex = i := by
  obtain ⟨e, he⟩ := isSome_iff_exists.mp (hs.covers hforeign c hc i hi)
  refine ⟨e, ⟨BTreeMap.mem_values.mpr ⟨i, he⟩, hs.named i e he⟩, fun e' he' => ?_⟩
  obtain ⟨k, hk⟩ := BTreeMap.mem_values.mp he'.1
  rw [← hs.named k e' hk, he'.2] at hk
  exact some.inj (hk.symm.trans he)

theorem indexColumnComplete_foldl (s : IfTableStage) {columns : List SnmpColumn}
    (h : .ifIndex ∉ columns) :
    (columns.foldl (walkColumn walks) s).indexColumnComplete = s.indexColumnComplete := by
  induction columns generalizing s with
  | nil => rfl
  | cons c columns ih =>
    rw [mem_cons, not_or] at h
    rw [foldl_cons, ih _ h.2]
    exact if_neg (Ne.symm h.1)

end IfTableStage

theorem setComplete_walkIfTable (walks : Walks) (h : (walkIfTable walks).setComplete = true) :
    (walks .ifIndex).stop.isComplete = true ∧
      (ifColumns.foldl (IfTableStage.walkColumn walks) {}).foreignRows = 0 := by
  have hindex : (ifColumns.foldl (IfTableStage.walkColumn walks) {}).indexColumnComplete =
      some (walks .ifIndex).stop.isComplete := by
    rw [ifColumns, foldl_cons, IfTableStage.indexColumnComplete_foldl _ (by decide)]
    rfl
  rw [walkIfTable] at h
  simp only [hindex] at h
  cases hstop : (walks .ifIndex).stop.isComplete with
  | true =>
    rw [hstop] at h
    exact ⟨rfl, of_decide_eq_true h⟩
  | false =>
    rw [hstop] at h
    exact absurd h nofun

theorem exists_entry_of_setComplete {walks : Walks} {agent : SnmpAgent} (hreads : walks.Reads agent)
    (h : (walkIfTable walks).setComplete = true) {c : SnmpColumn} (hc : c ∈ ifColumns) {i : ℤ}
    (hi : i ∈ ifIndexes (agent.rows c))
    (hread : c = .ifIndex ∨ (walks c).stop.isComplete = true ∨ i ∈ ifIndexes (walks c).rows) :
    ∃! e, e ∈ (walkIfTable walks).entries ∧ e.ifIndex = i := by
  obtain ⟨hindex, hforeign⟩ := setComplete_walkIfTable walks h
  have hwalked : i ∈ ifIndexes (walks c).rows := by
    obtain rfl | hcomplete | hread := hread
    · rw [hreads.complete _ hindex]
      exact hi
    · rw [hreads.complete _ hcomplete]
      exact hi
    · exact hread
  have hstage := (IfTableStage.Ok.start walks).foldl ifColumns
  rw [nil_append] at hstage
  exact hstage.existsUnique hforeign hc hwalked

def unlistedPort : SnmpAgent :=
  ⟨fun c => match c with
    | .ifIndex => [([1], .integer 1)]
    | .ifDescr => [([1], .octetString []), ([2], .octetString [])]
    | _ => []⟩

/-- The description column is cut short before the interface that is not listed. -/
def shortDescr : Walks
  | .ifDescr => ⟨[([1], .octetString [])], .transport⟩
  | c => ⟨unlistedPort.rows c, .endOfSubtree⟩

theorem reads_shortDescr : shortDescr.Reads unlistedPort where
  rows c := by cases c <;> decide
  complete c := by cases c <;> first | exact fun _ => rfl | exact fun h => absurd h nofun

theorem exists_entry_of_setComplete_shortDescr :
    ∃! e, e ∈ (walkIfTable shortDescr).entries ∧ e.ifIndex = 1 :=
  exists_entry_of_setComplete reads_shortDescr (by decide) (c := .ifIndex) (by decide) (by decide)
    (.inl rfl)

theorem not_exists_entry_shortDescr :
    ¬ ∀ (walks : Walks) (agent : SnmpAgent), walks.Reads agent →
      (walkIfTable walks).setComplete = true → ∀ c ∈ ifColumns, ∀ i ∈ ifIndexes (agent.rows c),
        ∃ e ∈ (walkIfTable walks).entries, e.ifIndex = i := by
  intro h
  obtain ⟨e, he, hindex⟩ := h shortDescr unlistedPort reads_shortDescr (by decide) .ifDescr
    (by decide) 2 (by decide)
  have hentries : ∀ e ∈ (walkIfTable shortDescr).entries, e.ifIndex = 1 := by decide
  rw [hentries e he] at hindex
  exact absurd hindex (by decide)

end Scanopy
