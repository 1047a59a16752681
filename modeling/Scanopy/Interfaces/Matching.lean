import Scanopy.Interfaces.Service

/-! The interfaces of a batch, matched one after the other with the stored rows of a host. No row is
matched twice; but a report that no row has the name of may claim the row of a later one. -/

namespace Scanopy
open List Option Lookup SnmpInterface

def namedRow (entry : SnmpInterface) (rows : List SnmpInterface) : Option SnmpInterface :=
  entry.base.ifName.bind fun ifName => rows.find? fun e => e.base.ifName = some ifName

def fallbackRow (entry : SnmpInterface) (rows : List SnmpInterface) : Option SnmpInterface :=
  (rows.find? fun e => e.base.ifIndex = entry.base.ifIndex).or
    (entry.base.macAddress.bind fun mac => onlyMatch (rows.filter fun e =>
      e.base.macAddress = some mac))

def unclaimed (existing : List SnmpInterface) (claimed : List Uuid) : List SnmpInterface :=
  existing.filter fun e => !claimed.contains e.id

/-- What each report of a batch is matched with. A report that nothing matches is stored as a row
of its own, which is claimed as well. -/
def matchBatch (existing : List SnmpInterface) : List Uuid → List SnmpInterface →
    List (Option Uuid)
  | _, [] => []
  | claimed, entry :: batch =>
    let matched := matchExistingInterface (SnmpInterface.normalizeBlankIdentity entry) existing
      claimed
    matched :: matchBatch existing (matched.getD entry.id :: claimed) batch

variable {existing rows : List SnmpInterface} {claimed : List Uuid} {entry : SnmpInterface}
  {batch : List SnmpInterface} {id : Uuid}

theorem matchExistingInterface_eq (entry : SnmpInterface) (existing : List SnmpInterface)
    (claimed : List Uuid) : matchExistingInterface entry existing claimed =
      ((namedRow entry (unclaimed existing claimed)).or
        (fallbackRow entry (unclaimed existing claimed))).map (·.id) := by
  unfold matchExistingInterface namedRow fallbackRow unclaimed
  cases entry.base.ifName <;> cases entry.base.macAddress <;> simp [map_or]

variable {row : SnmpInterface}

theorem mem_of_namedRow (h : namedRow entry rows = some row) :
    row ∈ rows := by
  obtain ⟨ifName, -, hfind⟩ := bind_eq_some_iff.mp h
  exact mem_of_find?_eq_some hfind

theorem mem_of_fallbackRow (h : fallbackRow entry rows = some row) :
    row ∈ rows := by
  unfold fallbackRow at h
  rcases or_eq_some_iff.mp h with hindex | ⟨-, hmac⟩
  · exact mem_of_find?_eq_some hindex
  · obtain ⟨mac, -, honly⟩ := bind_eq_some_iff.mp hmac
    have hrow : row ∈ rows.filter fun e => e.base.macAddress = some mac := by
      rw [onlyMatch_eq_some.mp honly]
      exact mem_singleton_self row
    exact mem_of_mem_filter hrow

theorem mem_unclaimed :
    row ∈ unclaimed existing claimed ↔ row ∈ existing ∧ row.id ∉ claimed := by
  simp [unclaimed]

theorem not_claimed_of_matchExistingInterface
    (h : matchExistingInterface entry existing claimed = some id) :
    id ∉ claimed ∧ ∃ row ∈ existing, row.id = id := by
  rw [matchExistingInterface_eq] at h
  obtain ⟨row, hrow, rfl⟩ := map_eq_some_iff.mp h
  have hmem : row ∈ unclaimed existing claimed := by
    rcases or_eq_some_iff.mp hrow with hnamed | ⟨-, hfallback⟩
    · exact mem_of_namedRow hnamed
    · exact mem_of_fallbackRow hfallback
  obtain ⟨hexisting, hclaimed⟩ := mem_unclaimed.mp hmem
  exact ⟨hclaimed, row, hexisting, rfl⟩

theorem not_claimed_of_matchBatch (h : some id ∈ matchBatch existing claimed batch) :
    id ∉ claimed := by
  induction batch generalizing claimed with
  | nil => exact absurd h not_mem_nil
  | cons entry batch ih =>
    rcases mem_cons.mp h with hhead | htail
    · exact (not_claimed_of_matchExistingInterface hhead.symm).1
    · exact fun hid => ih htail (mem_cons_of_mem _ hid)

/-- No two reports of a batch are matched with the same row. -/
theorem matchBatch_injective (existing : List SnmpInterface) (claimed : List Uuid)
    (batch : List SnmpInterface) :
    (matchBatch existing claimed batch).Pairwise fun m m' => ∀ id, m = some id → m' ≠ some id := by
  induction batch generalizing claimed with
  | nil => exact List.Pairwise.nil
  | cons entry batch ih =>
    refine List.Pairwise.cons ?_ (ih _)
    rintro m hm id hid rfl
    have hnot := not_claimed_of_matchBatch hm
    rw [hid] at hnot
    exact hnot mem_cons_self

section Names

def SameName (entry row : SnmpInterface) : Prop :=
  ∃ name, trim name ≠ "" ∧ entry.base.ifName = some name ∧ row.base.ifName = some name

def KeepsNamedRows (existing : List SnmpInterface) (claimed : List Uuid)
    (batch : List SnmpInterface) : Prop :=
  ∀ p ∈ batch.zip (matchBatch existing claimed batch), ∀ row ∈ unclaimed existing claimed,
    SameName p.1 row → p.2 = some row.id

/-- No report that none of the rows has the name of falls back on a row that has the name of a later
report. The rows are those that are left when the report is matched. -/
def FallbacksSpareNames : List SnmpInterface → List SnmpInterface → Prop
  | _, [] => True
  | rows, entry :: batch =>
    match namedRow (SnmpInterface.normalizeBlankIdentity entry) rows with
    | some named => FallbacksSpareNames (rows.filter (·.id ≠ named.id)) batch
    | none =>
      let taken := ((fallbackRow (SnmpInterface.normalizeBlankIdentity entry) rows).map
        (·.id)).getD entry.id
      (∀ row ∈ rows, row.id = taken → ∀ later ∈ batch, ¬ SameName later row) ∧
        FallbacksSpareNames (rows.filter (·.id ≠ taken)) batch

theorem ifName_normalizeBlankIdentity {name : String} :
    (SnmpInterface.normalizeBlankIdentity entry).base.ifName = some name ↔
      entry.base.ifName = some name ∧ trim name ≠ "" := by
  simp [normalizeBlankIdentity, filter_eq_some_iff]

theorem unclaimed_cons (existing : List SnmpInterface) (claimed : List Uuid) (id : Uuid) :
    unclaimed existing (id :: claimed) = (unclaimed existing claimed).filter (·.id ≠ id) := by
  simp [unclaimed, List.filter_filter]

variable {row : SnmpInterface}

theorem sameName_of_namedRow
    (h : namedRow (SnmpInterface.normalizeBlankIdentity entry) rows = some row) :
    SameName entry row := by
  obtain ⟨name, hname, hfind⟩ := bind_eq_some_iff.mp h
  obtain ⟨hentry, hblank⟩ := ifName_normalizeBlankIdentity.mp hname
  exact ⟨name, hblank, hentry, (mem_of_find?_key hfind).2⟩

theorem eq_of_sameName (hnames : (rows.filterMap fun row => row.base.ifName).Nodup)
    {row' : SnmpInterface} (hrow : row ∈ rows) (hrow' : row' ∈ rows)
    (h : SameName entry row) (h' : SameName entry row') : row = row' := by
  obtain ⟨name, -, hentry, hname⟩ := h
  obtain ⟨name', -, hentry', hname'⟩ := h'
  obtain rfl : name = name' := some.inj (hentry.symm.trans hentry')
  exact eq_of_nodup_filterMap hnames hrow hrow' hname hname'

theorem namedRow_of_sameName (hnames : (rows.filterMap fun row => row.base.ifName).Nodup)
    (hrow : row ∈ rows) (h : SameName entry row) :
    namedRow (SnmpInterface.normalizeBlankIdentity entry) rows = some row := by
  have h₀ := h
  obtain ⟨name, hblank, hentry, hname⟩ := h
  have hnormal := ifName_normalizeBlankIdentity.mpr ⟨hentry, hblank⟩
  cases hnamed : namedRow (normalizeBlankIdentity entry) rows with
  | none =>
    unfold namedRow at hnamed
    rw [hnormal] at hnamed
    exact absurd hname (find?_key_eq_none.mp hnamed row hrow)
  | some row' =>
    rw [eq_of_sameName hnames (mem_of_namedRow hnamed) hrow (sameName_of_namedRow hnamed) h₀]

theorem length_matchBatch (existing : List SnmpInterface) (claimed : List Uuid)
    (batch : List SnmpInterface) : (matchBatch existing claimed batch).length = batch.length := by
  induction batch generalizing claimed with
  | nil => rfl
  | cons entry batch ih => exact congrArg (· + 1) (ih _)

theorem keepsNamedRows_claim (existing : List SnmpInterface) (claimed : List Uuid) (taken : Uuid)
    (batch : List SnmpInterface) :
    (∀ p ∈ batch.zip (matchBatch existing (taken :: claimed) batch),
      ∀ row ∈ unclaimed existing claimed, SameName p.1 row → p.2 = some row.id) ↔
      (∀ row ∈ unclaimed existing claimed, row.id = taken → ∀ later ∈ batch, ¬ SameName later row) ∧
      KeepsNamedRows existing (taken :: claimed) batch := by
  constructor
  · intro h
    refine ⟨fun row hrow hid later hlater hname => ?_, fun p hp row hrow => ?_⟩
    · -- the report cannot be matched with the row of its name, which is claimed
      have hlen := length_matchBatch existing (taken :: claimed) batch
      rw [← map_fst_zip hlen.ge] at hlater
      obtain ⟨p, hp, rfl⟩ := List.mem_map.mp hlater
      have hmatched := (of_mem_zip hp).2
      rw [h p hp row hrow hname, hid] at hmatched
      exact not_claimed_of_matchBatch hmatched mem_cons_self
    · rw [unclaimed_cons] at hrow
      exact h p hp row (mem_of_mem_filter hrow)
  · rintro ⟨hspared, hkeeps⟩ p hp row hrow hname
    by_cases hid : row.id = taken
    · exact absurd hname (hspared row hrow hid p.1 (of_mem_zip hp).1)
    · refine hkeeps p hp row ?_ hname
      rw [unclaimed_cons]
      exact mem_filter.mpr ⟨hrow, decide_eq_true hid⟩

theorem keepsNamedRows_cons (hnames : (existing.filterMap fun row => row.base.ifName).Nodup)
    (claimed : List Uuid) (entry : SnmpInterface) (batch : List SnmpInterface) :
    KeepsNamedRows existing claimed (entry :: batch) ↔ (∀ row ∈ unclaimed existing claimed,
        row.id = (matchExistingInterface (SnmpInterface.normalizeBlankIdentity entry) existing
          claimed).getD entry.id → ∀ later ∈ batch, ¬ SameName later row) ∧
      KeepsNamedRows existing ((matchExistingInterface
        (SnmpInterface.normalizeBlankIdentity entry) existing claimed).getD entry.id :: claimed)
        batch := by
  rw [← keepsNamedRows_claim]
  unfold KeepsNamedRows
  rw [matchBatch, zip_cons_cons, forall_mem_cons]
  refine and_iff_right fun row hrow hname => ?_
  -- a row that has the name is matched first, and it is the only one
  have hleft : ((unclaimed existing claimed).filterMap fun row => row.base.ifName).Nodup :=
    hnames.sublist (filter_sublist.filterMap _)
  show matchExistingInterface _ existing claimed = some row.id
  rw [matchExistingInterface_eq, namedRow_of_sameName hleft hrow hname]
  rfl

theorem not_sameName_of_later {later : SnmpInterface}
    (hbatch : ((entry :: batch).filterMap fun entry =>
      (SnmpInterface.normalizeBlankIdentity entry).base.ifName).Nodup)
    (hnamed : namedRow (SnmpInterface.normalizeBlankIdentity entry) rows = some row)
    (hlater : later ∈ batch) : ¬ SameName later row := by
  rintro ⟨name, hblank, hlatername, hrowname⟩
  obtain ⟨name', -, hentryname, hrowname'⟩ := sameName_of_namedRow hnamed
  obtain rfl : name = name' := some.inj (hrowname.symm.trans hrowname')
  have hentry := ifName_normalizeBlankIdentity.mpr ⟨hentryname, hblank⟩
  simp only [filterMap_cons, hentry] at hbatch
  refine (nodup_cons.mp hbatch).1 (mem_filterMap.mpr ⟨later, hlater, ?_⟩)
  exact ifName_normalizeBlankIdentity.mpr ⟨hlatername, hblank⟩

theorem keepsNamedRows_iff_of_claimed (hids : (existing.map (·.id)).Nodup)
    (hnames : (existing.filterMap fun row => row.base.ifName).Nodup)
    (hbatch : (batch.filterMap fun entry =>
      (SnmpInterface.normalizeBlankIdentity entry).base.ifName).Nodup) (claimed : List Uuid) :
    KeepsNamedRows existing claimed batch ↔
      FallbacksSpareNames (unclaimed existing claimed) batch := by
  induction batch generalizing claimed with
  | nil => exact iff_of_true (fun p hp => absurd hp not_mem_nil) trivial
  | cons entry batch ih =>
    have hrest : (batch.filterMap fun entry =>
        (normalizeBlankIdentity entry).base.ifName).Nodup :=
      hbatch.sublist ((sublist_cons_self entry batch).filterMap _)
    rw [keepsNamedRows_cons hnames, ih hrest, unclaimed_cons, FallbacksSpareNames,
      matchExistingInterface_eq]
    cases hnamed : namedRow (normalizeBlankIdentity entry)
        (unclaimed existing claimed) with
    | none => rfl
    | some named =>
      refine and_iff_right fun row hrow hid later hlater hname => ?_
      -- the row is the one that has the name of the report, which no later one has
      have hmem := mem_of_namedRow hnamed
      obtain rfl : row = named := inj_on_of_nodup_map hids (mem_unclaimed.mp hrow).1
        (mem_unclaimed.mp hmem).1 hid
      exact not_sameName_of_later hbatch hnamed hlater hname

theorem fallbacksSpareNames_of_known (hids : (rows.map (·.id)).Nodup)
    (hnames : (rows.filterMap fun row => row.base.ifName).Nodup)
    (hbatch : (batch.filterMap fun entry =>
      (SnmpInterface.normalizeBlankIdentity entry).base.ifName).Nodup)
    (hknown : ∀ entry ∈ batch, ∃ row ∈ rows, SameName entry row) :
    FallbacksSpareNames rows batch := by
  induction batch generalizing rows with
  | nil => exact trivial
  | cons entry batch ih =>
    obtain ⟨⟨row, hrow, hname⟩, hrest⟩ := forall_mem_cons.mp hknown
    have hnamed := namedRow_of_sameName hnames hrow hname
    rw [FallbacksSpareNames, hnamed]
    refine ih (hids.sublist (filter_sublist.map _))
      (hnames.sublist (filter_sublist.filterMap _))
      (hbatch.sublist ((sublist_cons_self entry batch).filterMap _)) fun later hlater => ?_
    obtain ⟨row', hrow', hlatername⟩ := hrest later hlater
    refine ⟨row', mem_filter.mpr ⟨hrow', decide_eq_true fun hid => ?_⟩, hlatername⟩
    obtain rfl := inj_on_of_nodup_map hids hrow' hrow hid
    exact not_sameName_of_later hbatch hnamed hlater hlatername

def etherInterface (id : Uuid) (ifIndex : ℤ) (ifName : String) : SnmpInterface :=
  ⟨id, 0, 0, none, none, {
    hostId := 1, networkId := 1, ifIndex, ifDescr := ifName, macAddress := none
    ipAddressId := none, neighbor := none, nativeVlanId := none, vlanIds := none
    ifName := some ifName }⟩

/-- When the reports of a batch keep the rows of their names. -/
theorem keepsNamedRows_iff (hids : (existing.map (·.id)).Nodup)
    (hnames : (existing.filterMap fun row => row.base.ifName).Nodup)
    (hbatch : (batch.filterMap fun entry =>
      (SnmpInterface.normalizeBlankIdentity entry).base.ifName).Nodup) :
    KeepsNamedRows existing [] batch ↔ FallbacksSpareNames existing batch := by
  have hall : unclaimed existing [] = existing := by simp [unclaimed]
  rw [keepsNamedRows_iff_of_claimed hids hnames hbatch, hall]

theorem keepsNamedRows_swapped :
    KeepsNamedRows [etherInterface 1 1 "eth0", etherInterface 2 2 "eth1"] []
      [etherInterface 3 1 "eth1", etherInterface 4 2 "eth0"] :=
  (keepsNamedRows_iff (by decide) (by decide) (by decide)).mpr <|
    fallbacksSpareNames_of_known (by decide) (by decide) (by decide) fun entry hentry => by
      rcases mem_pair.mp hentry with rfl | rfl
      · exact ⟨_, mem_cons_of_mem _ mem_cons_self, "eth1", by decide, rfl, rfl⟩
      · exact ⟨_, mem_cons_self, "eth0", by decide, rfl, rfl⟩

/-- A new interface that comes first and has the old index takes the row. -/
theorem not_keepsNamedRows_renumbered :
    ¬ ∀ existing batch : List SnmpInterface, (existing.map (·.id)).Nodup →
      (existing.filterMap fun row => row.base.ifName).Nodup →
      (batch.filterMap fun entry =>
        (SnmpInterface.normalizeBlankIdentity entry).base.ifName).Nodup →
      KeepsNamedRows existing [] batch := by
  intro h
  have hkeeps := h [etherInterface 1 1 "eth0"]
    [etherInterface 2 1 "eth9", etherInterface 3 2 "eth0"] (by decide) (by decide) (by decide)
  have hmatched := hkeeps (etherInterface 3 2 "eth0", none) (by decide) (etherInterface 1 1 "eth0")
    (by decide) ⟨"eth0", by decide, rfl, rfl⟩
  exact some_ne_none _ hmatched.symm

end Names

end Scanopy
