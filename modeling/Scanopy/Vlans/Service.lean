import Scanopy.Lib.UniqueIndex
import Scanopy.Shared.Freshness
import Scanopy.Snapshots.TableEffects

/-! The VLANs of the networks, which daemons report and users create. Both look for a VLAN of the
number first and write afterwards; an index of the table keeps the live numbers of a network apart.
-/

namespace Scanopy

open List Option Bool

structure TrackedVlanBase extends VlanBase where
  source : EntitySource
  updatedAt : Timestamp
  lastSeenAt : Timestamp
  deriving DecidableEq

abbrev TrackedVlan := Row TrackedVlanBase

instance : Snapshotable TrackedVlanBase := { columnCount := columnCount VlanBase }

instance : Sighted TrackedVlanBase where
  lastSeenAt := (·.lastSeenAt)
  isDiscoveryManaged b := b.source.isFromDiscovery

abbrev VlanTable := RowTable TrackedVlanBase

def TrackedVlanBase.place (b : TrackedVlanBase) : Uuid × BitVec 16 := (b.networkId, b.vlanNumber)

/-- `idx_vlans_network_number_live`. -/
def liveNumbers : UniqueIndex (StoredRow TrackedVlanBase) (Uuid × BitVec 16) :=
  ⟨fun r => r.isLive, fun r => r.base.place⟩

def TrackedVlan.new (newId : Uuid) (now : Timestamp) (base : VlanBase) (source : EntitySource) :
    TrackedVlan :=
  ⟨newId, now, now, none, none,
    { toVlanBase := base, source, updatedAt := now, lastSeenAt := now }⟩

def TrackedVlan.refreshScanTimestamps (v : TrackedVlan) (scanTime : Timestamp) : TrackedVlan :=
  { v with base := { v.base with lastSeenAt := scanTime, updatedAt := scanTime } }

def TrackedVlan.originateScanTimestamps (v : TrackedVlan) (scanTime : Timestamp) : TrackedVlan :=
  { v with createdAt := scanTime, validFrom := scanTime }

structure VlanReport where
  networkId : Uuid
  organizationId : Uuid
  vlanNumber : BitVec 16
  name : String
  scanTime : Option Timestamp
  deriving DecidableEq

/-- What is left to write when the lookup of a report has come back. -/
inductive VlanWrite
  | none (existing : TrackedVlan)
  | update (row : TrackedVlan)
  | insert (row : TrackedVlan)
  deriving DecidableEq

namespace VlanTable

def findLive (vlans : VlanTable) (place : Uuid × BitVec 16) : Option (StoredRow TrackedVlanBase) :=
  vlans.rows.find? fun r => r.isLive && r.base.place = place

def reportedRow (newId : Uuid) (now : Timestamp) (report : VlanReport) : TrackedVlan :=
  let vlan := TrackedVlan.new newId now
    ⟨report.vlanNumber, report.name, none, report.networkId, report.organizationId⟩ .discovery
  match report.scanTime with
  | some t => vlan.originateScanTimestamps t
  | none => vlan

/-- `upsert_from_discovery` up to its write. -/
def lookupReport (vlans : VlanTable) (newId : Uuid) (now : Timestamp) (report : VlanReport) :
    VlanWrite :=
  match vlans.findLive (report.networkId, report.vlanNumber) with
  | some existing =>
    if existing.base.name ≠ report.name then
      let updated : TrackedVlan := { existing.toRow with
        base := { existing.base with name := report.name, updatedAt := now } }
      .update (match report.scanTime with
        | some t => updated.refreshScanTimestamps t
        | none => updated)
    else .none existing.toRow
  | none => .insert (reportedRow newId now report)

/-- Every column but `snapshot_id`, by id; a row that is gone stays gone. -/
def updateVlan (vlans : VlanTable) (row : TrackedVlan) : Option VlanTable :=
  match vlans.find row.id with
  | some stored => liveNumbers.set vlans ⟨row, stored.snapshotId⟩
  | none => some vlans

def insertVlan (vlans : VlanTable) (row : TrackedVlan) : Option VlanTable :=
  liveNumbers.insert vlans ⟨row, none⟩

def writeReport (vlans : VlanTable) : VlanWrite → Option VlanTable
  | .none _ => some vlans
  | .update row => vlans.updateVlan row
  | .insert row => vlans.insertVlan row

end VlanTable

/-- What `create_vlan` answers. -/
inductive CreateVlanAnswer
  | conflict
  | badRequest
  | created
  deriving DecidableEq

def validVlanName (name : String) : Bool := 1 ≤ name.length && name.length ≤ 100

/-- The row that `create_handler` and `create_base` make of a request: its own row, or a new one if
the request has no id. -/
def TrackedVlan.requested (newId : Uuid) (now : Timestamp) (vlan : TrackedVlan) : TrackedVlan :=
  if vlan.id = Uuid.nil then .new newId now vlan.base.toVlanBase .manual
  else { vlan with base := { vlan.base with source := .manual } }

/-- The calls that wait for their write, by a number that tells them apart. -/
structure VlanSystem where
  vlans : VlanTable
  reports : List (ℕ × VlanWrite) := []
  creates : List (ℕ × TrackedVlan) := []

inductive VlanStep
  | lookup (call : ℕ) (report : VlanReport) (newId : Uuid) (now : Timestamp)
  | write (call : ℕ)
  | check (call : ℕ) (vlan : TrackedVlan) (newId : Uuid) (now : Timestamp)
  | insert (call : ℕ)
  | delete (id : Uuid)
  | snapshot (networkId : Uuid) (takenAt : Timestamp) (snapshotId : Uuid) (newId : Uuid → Uuid)

namespace VlanSystem
variable (s : VlanSystem)

def hasRow (place : Uuid × BitVec 16) : Bool := s.vlans.rows.any fun r => r.base.place = place

def hasLive (place : Uuid × BitVec 16) : Bool :=
  s.vlans.rows.any fun r => r.isLive && r.base.place = place

def pendingReport (call : ℕ) : Option VlanWrite := (s.reports.find? (·.1 = call)).map Prod.snd

def pendingCreate (call : ℕ) : Option TrackedVlan := (s.creates.find? (·.1 = call)).map Prod.snd

/-- What the check of `create_vlan` answers, if it does not go on to the insert. The check asks for
a row of the number, closed or not. -/
def checkAnswer (vlan : TrackedVlan) : Option CreateVlanAnswer :=
  if s.hasRow vlan.base.place then some .conflict
  else if !validVlanName vlan.base.name then some .badRequest
  else none

def insertAnswer (row : TrackedVlan) : CreateVlanAnswer :=
  if (s.vlans.insertVlan row).isSome then .created else .badRequest

def answer : VlanStep → Option ((Uuid × BitVec 16) × CreateVlanAnswer)
  | .check _ vlan _ _ => (s.checkAnswer vlan).map (vlan.base.place, ·)
  | .insert call => (s.pendingCreate call).map fun row => (row.base.place, s.insertAnswer row)
  | _ => none

def step : VlanStep → Option VlanSystem
  | .lookup call report newId now =>
    if (s.pendingReport call).isSome then none
    else some { s with reports := (call, s.vlans.lookupReport newId now report) :: s.reports }
  | .write call => (s.pendingReport call).map fun write =>
    { s with
      vlans := (s.vlans.writeReport write).getD s.vlans
      reports := s.reports.filter (·.1 ≠ call) }
  | .check call vlan newId now =>
    if (s.pendingCreate call).isSome then none
    else some (if (s.checkAnswer vlan).isSome then s
      else { s with creates := (call, vlan.requested newId now) :: s.creates })
  | .insert call => (s.pendingCreate call).map fun row =>
    { s with
      vlans := (s.vlans.insertVlan row).getD s.vlans
      creates := s.creates.filter (·.1 ≠ call) }
  | .delete id => some { s with vlans := s.vlans.delete (·.id = id) }
  | .snapshot networkId takenAt snapshotId newId =>
    (s.vlans.closeAndCloneFor (·.networkId = networkId) takenAt snapshotId {} newId).map
      fun (vlans, _) => { s with vlans }

end VlanSystem

def vlanLts (vlans : VlanTable) : Lts VlanSystem VlanStep := ⟨{ vlans }, VlanSystem.step⟩

namespace VlanTable
variable {vlans vlans' : VlanTable}

theorem holds_updateVlan {row : TrackedVlan} (hold : liveNumbers.Holds vlans)
    (h : vlans.updateVlan row = some vlans') : liveNumbers.Holds vlans' := by
  unfold updateVlan at h
  cases hfind : vlans.find row.id with
  | none =>
    rw [hfind] at h
    cases h
    exact hold
  | some stored =>
    rw [hfind] at h
    exact hold.set h

theorem holds_writeReport {write : VlanWrite} (hold : liveNumbers.Holds vlans)
    (h : vlans.writeReport write = some vlans') : liveNumbers.Holds vlans' := by
  cases write with
  | none existing =>
    cases h
    exact hold
  | update row => exact holds_updateVlan hold h
  | insert row => exact hold.insert h

theorem holds_closeAndCloneFor {filter : TrackedVlanBase → Bool} {takenAt : Timestamp}
    {snapshotId : Uuid} {maps : FkMaps} {newId : Uuid → Uuid} {mapping : HashMap Uuid Uuid}
    (hold : liveNumbers.Holds vlans)
    (h : vlans.closeAndCloneFor filter takenAt snapshotId maps newId = some (vlans', mapping)) :
    liveNumbers.Holds vlans' := by
  refine hold.mono fun r' hr' hlive => ?_
  rcases (RowTable.mem_closeAndCloneFor h).mp hr' with ⟨r, hr, hcloned, rfl⟩ | ⟨hr, -⟩ |
    ⟨r, -, -, rfl⟩
  · exact ⟨r, hr, (and_eq_true_iff.mp hcloned).1, rfl, rfl⟩
  · exact ⟨r', hr, hlive, rfl, rfl⟩
  · exact absurd hlive Bool.false_ne_true

end VlanTable

namespace VlanSystem
variable {s s' : VlanSystem}
variable {vlan : TrackedVlan} {call : ℕ}

def UniqueLive (s : VlanSystem) : Prop := liveNumbers.Holds s.vlans

theorem UniqueLive.step (hunique : s.UniqueLive) {l : VlanStep} (h : s.step l = some s') :
    s'.UniqueLive := by
  cases l with
  | lookup call report newId now =>
    rw [VlanSystem.step] at h
    split_ifs at h
    cases h
    exact hunique
  | write call =>
    obtain ⟨write, -, rfl⟩ := map_eq_some_iff.mp h
    show liveNumbers.Holds ((s.vlans.writeReport write).getD s.vlans)
    cases hwrite : s.vlans.writeReport write with
    | none => exact hunique
    | some vlans => exact VlanTable.holds_writeReport hunique hwrite
  | check call vlan newId now =>
    rw [VlanSystem.step] at h
    split_ifs at h
    · cases h
      exact hunique
    · cases h
      exact hunique
  | insert call =>
    obtain ⟨row, -, rfl⟩ := map_eq_some_iff.mp h
    show liveNumbers.Holds ((s.vlans.insertVlan row).getD s.vlans)
    cases hinsert : s.vlans.insertVlan row with
    | none => exact hunique
    | some vlans => exact UniqueIndex.Holds.insert hunique hinsert
  | delete id =>
    cases h
    exact UniqueIndex.Holds.delete hunique _
  | snapshot networkId takenAt snapshotId newId =>
    obtain ⟨⟨vlans, mapping⟩, hclone, rfl⟩ := map_eq_some_iff.mp h
    exact VlanTable.holds_closeAndCloneFor hunique hclone

def Truthful (s : VlanSystem) (l : VlanStep) : Prop :=
  ∀ place a, s.answer l = some (place, a) → (a = .conflict ↔ s.hasLive place = true)

def NotOvertaken (s : VlanSystem) : VlanStep → Prop
  | .check _ vlan _ _ => s.hasRow vlan.base.place = true → s.hasLive vlan.base.place = true
  | .insert call => ∀ row ∈ s.pendingCreate call, s.hasLive row.base.place = false
  | _ => True

instance (s : VlanSystem) : DecidablePred s.NotOvertaken
  | .check _ vlan _ _ => inferInstanceAs (Decidable (s.hasRow vlan.base.place = true → _))
  | .insert call => inferInstanceAs (Decidable (∀ row ∈ s.pendingCreate call, _))
  | .lookup .. | .write _ | .delete _ | .snapshot .. => inferInstanceAs (Decidable True)

theorem hasRow_of_hasLive {place : Uuid × BitVec 16} (h : s.hasLive place = true) :
    s.hasRow place = true := by
  obtain ⟨r, hr, hand⟩ := List.any_eq_true.mp h
  exact List.any_eq_true.mpr ⟨r, hr, (and_eq_true_iff.mp hand).2⟩

theorem insertAnswer_ne_conflict (row : TrackedVlan) : s.insertAnswer row ≠ .conflict := by
  unfold insertAnswer
  split_ifs <;> nofun

theorem checkAnswer_eq_conflict :
    s.checkAnswer vlan = some .conflict ↔ s.hasRow vlan.base.place = true := by
  unfold checkAnswer
  split_ifs with hrow
  · exact iff_of_true rfl hrow
  · exact iff_of_false nofun hrow
  · exact iff_of_false nofun hrow

theorem truthful_check_iff {newId : Uuid} {now : Timestamp} :
    s.Truthful (.check call vlan newId now) ↔ s.NotOvertaken (.check call vlan newId now) := by
  show (∀ place a, (s.checkAnswer vlan).map (vlan.base.place, ·) = some (place, a) →
    (a = .conflict ↔ s.hasLive place = true)) ↔
      (s.hasRow vlan.base.place = true → s.hasLive vlan.base.place = true)
  constructor
  · intro h hrow
    refine (h vlan.base.place .conflict ?_).mp rfl
    rw [checkAnswer_eq_conflict.mpr hrow]
    rfl
  · intro h place a hanswer
    obtain ⟨a', ha', heq⟩ := map_eq_some_iff.mp hanswer
    cases heq
    constructor
    · rintro rfl
      exact h (checkAnswer_eq_conflict.mp ha')
    · intro hlive
      rw [checkAnswer_eq_conflict.mpr (hasRow_of_hasLive hlive)] at ha'
      exact (some.inj ha').symm

theorem truthful_insert_iff :
    s.Truthful (.insert call) ↔ s.NotOvertaken (.insert call) := by
  show (∀ place a, (s.pendingCreate call).map (fun row => (row.base.place, s.insertAnswer row)) =
    some (place, a) → (a = .conflict ↔ s.hasLive place = true)) ↔
      ∀ row ∈ s.pendingCreate call, s.hasLive row.base.place = false
  constructor
  · intro h row hrow
    have hiff := h row.base.place (s.insertAnswer row) (by rw [mem_def.mp hrow]; rfl)
    rw [eq_false_iff]
    exact fun hlive => insertAnswer_ne_conflict row (hiff.mpr hlive)
  · intro h place a hanswer
    obtain ⟨row, hrow, heq⟩ := map_eq_some_iff.mp hanswer
    cases heq
    rw [h row hrow]
    exact iff_of_false (insertAnswer_ne_conflict row) Bool.false_ne_true

theorem truthful_iff (s : VlanSystem) (l : VlanStep) : s.Truthful l ↔ s.NotOvertaken l := by
  cases l with
  | check => exact truthful_check_iff
  | insert => exact truthful_insert_iff
  | lookup | write | delete | snapshot => exact iff_of_true (fun _ _ h => absurd h nofun) trivial

end VlanSystem

theorem uniqueLive_of_run {vlans : VlanTable} (hunique : liveNumbers.Holds vlans)
    {ls : List VlanStep} {s : VlanSystem}
    (h : (vlanLts vlans).run (vlanLts vlans).init ls = some s) : s.UniqueLive :=
  (Lts.reachable_of_run h).invariant hunique fun _ _ _ _ hs _ hstep => hs.step hstep

/-- In every run of the calls the live numbers of a network stay apart; and a user is told of a
conflict exactly if there is one, at every step of a run, exactly if every number that is asked for
and has a history is live, and nothing comes between the question and the insert. -/
theorem conflicts_told_iff (vlans : VlanTable) (hunique : liveNumbers.Holds vlans)
    (ls : List VlanStep) (s : VlanSystem)
    (h : (vlanLts vlans).run (vlanLts vlans).init ls = some s) :
    s.UniqueLive ∧ ((vlanLts vlans).Guarded VlanSystem.Truthful (vlanLts vlans).init ls ↔
      (vlanLts vlans).Guarded VlanSystem.NotOvertaken (vlanLts vlans).init ls) :=
  ⟨uniqueLive_of_run hunique h, Lts.guarded_congr VlanSystem.truthful_iff _ _⟩

section Office

def usersReport : VlanReport := ⟨5, 1, 10, "users", some 3⟩

def usersVlan : TrackedVlan :=
  ⟨Uuid.nil, 0, 0, none, none,
    { toVlanBase := ⟨10, "users", none, 5, 1⟩, source := .manual, updatedAt := 0, lastSeenAt := 0 }⟩

def noVlans : VlanTable := ⟨[], List.nodup_nil⟩

def officeRun : List VlanStep :=
  [.lookup 0 usersReport 100 4, .write 0, .check 1 usersVlan 101 5, .snapshot 5 6 200 fun _ => 300]

theorem conflicts_told_office : ∃ s, (vlanLts noVlans).run (vlanLts noVlans).init officeRun = some s ∧
    s.UniqueLive ∧ (vlanLts noVlans).Guarded VlanSystem.Truthful (vlanLts noVlans).init officeRun := by
  have hnone : liveNumbers.Holds noVlans := fun r hr => absurd hr not_mem_nil
  obtain ⟨s, hs⟩ : ∃ s, (vlanLts noVlans).run (vlanLts noVlans).init officeRun = some s :=
    isSome_iff_exists.mp (by decide +kernel)
  obtain ⟨hunique, htold⟩ := conflicts_told_iff noVlans hnone officeRun s hs
  exact ⟨s, hs, hunique, htold.mpr (by decide +kernel)⟩

def deletedRun : List VlanStep :=
  [.lookup 0 usersReport 100 4, .write 0, .snapshot 5 6 200 fun _ => 300, .delete 100,
    .check 1 usersVlan 101 7]

/-- After a snapshot, a VLAN that is deleted cannot be created again. -/
theorem not_conflicts_told : ¬ ∀ (vlans : VlanTable), liveNumbers.Holds vlans →
    ∀ (ls : List VlanStep) (s : VlanSystem), (vlanLts vlans).run (vlanLts vlans).init ls = some s →
        s.UniqueLive ∧ (vlanLts vlans).Guarded VlanSystem.Truthful (vlanLts vlans).init ls := by
  intro h
  have hnone : liveNumbers.Holds noVlans := fun r hr => absurd hr not_mem_nil
  obtain ⟨s, hs⟩ : ∃ s, (vlanLts noVlans).run (vlanLts noVlans).init deletedRun = some s :=
    isSome_iff_exists.mp (by decide +kernel)
  have htold := (h noVlans hnone deletedRun s hs).2
  rw [Lts.guarded_congr VlanSystem.truthful_iff] at htold
  exact absurd htold (by decide +kernel)

end Office

end Scanopy
