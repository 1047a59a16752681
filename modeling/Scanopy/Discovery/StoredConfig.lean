import Scanopy.Discovery.Scheduling

/-! Which configuration a scheduled run executes. A job passes the copy it was scheduled with, which
is the stored one as long as the row has not changed since. -/

namespace Scanopy

open List Option Nat HashMap

namespace RunType

theorem setLastRun_setLastRun (r : RunType) (t t' : Timestamp) :
    (r.setLastRun t).setLastRun t' = r.setLastRun t' := by
  cases r <;> rfl

end RunType

namespace DiscoveryRow

def unstamped (d : DiscoveryRow) : DiscoveryRow := d.stamped 0 0

@[simp] theorem stamped_id (d : DiscoveryRow) (t u : Timestamp) : (d.stamped t u).id = d.id := rfl

theorem unstamped_stamped (d : DiscoveryRow) (t u : Timestamp) :
    (d.stamped t u).unstamped = d.unstamped := by
  rw [unstamped, unstamped, stamped, stamped, stamped]
  simp only [RunType.setLastRun_setLastRun]

end DiscoveryRow

namespace Scheduling
variable {known : String → Bool} {s s' : Scheduling} {d : DiscoveryRow} {id : Uuid}
variable {entity old : DiscoveryRow} {env : FireEnv} {rows : HashMap Uuid DiscoveryRow} {job : Job}
  {add : Option Uuid} {j jobId : Uuid} {visit : Uuid × Option Uuid}

theorem get_rows_storageUpdate (s : Scheduling) (d : DiscoveryRow) (id : Uuid) :
    (s.storageUpdate d).rows.get id =
      if id = d.id then (s.rows.get d.id).map fun _ => d else s.rows.get id :=
  get_replace s.rows d.id id d

theorem scheduleDiscovery_ok
    (h : s.scheduleDiscovery known d add = .ok s') :
    ∃ schedule jobId, d.runType.schedule = some schedule ∧ schedule.enabled = true ∧
      add = some jobId ∧ s' = { s with
        jobs := s.jobs.insert jobId ⟨schedule.cronSchedule, timezoneOf known schedule.timezone, d⟩
        jobIds := s.jobIds.insert d.id jobId } := by
  rw [scheduleDiscovery] at h
  cases hs : d.runType.schedule with
  | none => simp [hs] at h
  | some schedule =>
    cases he : schedule.enabled with
    | false => simp [hs, he] at h
    | true =>
      cases add with
      | none => simp [hs, he] at h
      | some jobId => exact ⟨schedule, jobId, rfl, he, rfl, by simpa [hs, he] using h.symm⟩

@[simp] theorem rows_removeScheduledJob (s : Scheduling) (id : Uuid) (removeOk : Bool) :
    (s.removeScheduledJob id removeOk).rows = s.rows := by
  rw [removeScheduledJob]
  split <;> rfl

theorem get_jobs_of_removeScheduledJob {removeOk : Bool}
    (h : (s.removeScheduledJob id removeOk).jobs.get j = some job) : s.jobs.get j = some job := by
  rw [removeScheduledJob] at h
  split at h
  · exact h
  · simp only at h
    split_ifs at h
    · rw [get_remove] at h
      split_ifs at h
      exact h
    · exact h

def Keyed (s : Scheduling) : Prop := ∀ id d, s.rows.get id = some d → d.id = id

theorem keyed_of_rows (hs : s.Keyed) (h : s'.rows = s.rows) : s'.Keyed := by
  intro id d hd
  rw [h] at hd
  exact hs id d hd

theorem keyed_storageUpdate (hs : s.Keyed) (d : DiscoveryRow) : (s.storageUpdate d).Keyed := by
  intro id row hrow
  rw [get_rows_storageUpdate] at hrow
  split_ifs at hrow with hid
  · obtain ⟨old, -, rfl⟩ := map_eq_some_iff.mp hrow
    exact hid.symm
  · exact hs id row hrow

theorem keyed_insert (hs : s.Keyed) (d : DiscoveryRow) :
    Keyed { s with rows := s.rows.insert d.id d } := by
  intro id row hrow
  simp only [get_insert] at hrow
  split_ifs at hrow with hid
  · cases hrow
    exact hid.symm
  · exact hs id row hrow

theorem keyed_remove (hs : s.Keyed) (id : Uuid) : Keyed { s with rows := s.rows.remove id } := by
  intro id' row hrow
  simp only [get_remove] at hrow
  split_ifs at hrow
  exact hs id' row hrow

theorem keyed_scheduleOrDisable (hs : s.Keyed) (d : DiscoveryRow) (add : Option Uuid) :
    (s.scheduleOrDisable known d add).Keyed := by
  rw [scheduleOrDisable]
  split
  · rename_i s' h
    obtain ⟨_, _, -, -, -, rfl⟩ := scheduleDiscovery_ok h
    exact keyed_of_rows hs rfl
  · exact keyed_storageUpdate hs _

theorem get_rows_scheduleOrDisable (known : String → Bool) (s : Scheduling) (d : DiscoveryRow)
    (add : Option Uuid) (id : Uuid) :
    (s.scheduleOrDisable known d add).rows.get id = s.rows.get id ∨
      id = d.id ∧ (s.scheduleOrDisable known d add).rows.get id =
        (s.rows.get id).map fun _ => d.disable := by
  rw [scheduleOrDisable]
  split
  · rename_i s' h
    obtain ⟨_, _, -, -, -, rfl⟩ := scheduleDiscovery_ok h
    exact .inl rfl
  · rw [get_rows_storageUpdate]
    have hid : d.disable.id = d.id := rfl
    rw [hid]
    split_ifs with h
    · exact .inr ⟨h, by rw [h]⟩
    · exact .inl rfl

theorem get_jobs_of_scheduleOrDisable
    (h : (s.scheduleOrDisable known d add).jobs.get j = some job) :
    s.jobs.get j = some job ∨
      job.discovery = d ∧ (s.scheduleOrDisable known d add).rows = s.rows := by
  rw [scheduleOrDisable] at h ⊢
  split at h
  · rename_i s' hs'
    obtain ⟨_, _, -, -, -, rfl⟩ := scheduleDiscovery_ok hs'
    simp only [get_insert] at h
    split_ifs at h
    · cases h
      exact .inr ⟨rfl, rfl⟩
    · exact .inl h
  · exact .inl h

theorem get_rows_storageUpdate_of_get {row : DiscoveryRow} (h : s.rows.get row.id = some old)
    (id : Uuid) :
    (s.storageUpdate row).rows.get id = if id = row.id then some row else s.rows.get id := by
  rw [get_rows_storageUpdate, h]
  rfl

theorem reschedule_spec (known : String → Bool) (removeOk : Bool) (add : Option Uuid)
    (hold : s.rows.get entity.id = some old) :
    ∃ row : DiscoveryRow, row.id = entity.id ∧ row.scanCount = entity.scanCount ∧
      (∀ id, (s.reschedule known entity removeOk add).rows.get id =
        if id = entity.id then some row else s.rows.get id) ∧
      ∀ j job, (s.reschedule known entity removeOk add).jobs.get j = some job →
        s.jobs.get j = some job ∨ job.discovery = row := by
  rw [reschedule]
  set t := (s.removeScheduledJob entity.id removeOk).storageUpdate entity with ht
  have hrows : ∀ id, t.rows.get id = if id = entity.id then some entity else s.rows.get id := by
    intro id
    rw [ht, get_rows_storageUpdate_of_get (by rw [rows_removeScheduledJob]; exact hold),
      rows_removeScheduledJob]
  have hjobs : ∀ j job, t.jobs.get j = some job → s.jobs.get j = some job :=
    fun j job h => get_jobs_of_removeScheduledJob h
  split
  · rename_i t' hok
    obtain ⟨_, _, -, -, -, rfl⟩ := scheduleDiscovery_ok hok
    refine ⟨entity, rfl, rfl, hrows, fun j job hjob => ?_⟩
    simp only [get_insert] at hjob
    split_ifs at hjob
    · cases hjob
      exact .inr rfl
    · exact .inl (hjobs j job hjob)
  · split_ifs with henabled
    · refine ⟨entity.disable, rfl, rfl, fun id => ?_, fun j job hjob => .inl (hjobs j job hjob)⟩
      have hentity : t.rows.get entity.disable.id = some entity :=
        (hrows entity.id).trans (if_pos rfl)
      rw [get_rows_storageUpdate_of_get hentity, hrows]
      change (if id = entity.id then _ else if id = entity.id then _ else _) = _
      split_ifs <;> rfl
    · exact ⟨entity, rfl, rfl, hrows, fun j job hjob => .inl (hjobs j job hjob)⟩

theorem update_spec (known : String → Bool) (removeOk : Bool) (add : Option Uuid)
    {current : DiscoveryRow} (hcurrent : s.rows.get entity.id = some current) :
    s.update known entity removeOk add = s ∨
      ∃ row : DiscoveryRow, row.id = entity.id ∧ row.scanCount = current.scanCount ∧
        (∀ id, (s.update known entity removeOk add).rows.get id =
          if id = entity.id then some row else s.rows.get id) ∧
        ∀ j job, (s.update known entity removeOk add).jobs.get j = some job →
          s.jobs.get j = some job ∨ job.discovery = row := by
  rw [update]
  simp only [hcurrent]
  set row : DiscoveryRow := { entity with scanCount := current.scanCount } with hrow
  have hstored : s.rows.get row.id = some current := hcurrent
  split_ifs
  · exact .inl rfl
  · exact .inr (reschedule_spec known removeOk add hstored)
  · exact .inr ⟨row, rfl, rfl, get_rows_storageUpdate_of_get hstored, fun j job hjob => .inl hjob⟩

theorem updateHandler_eq (known : String → Bool) (s : Scheduling) (id : Uuid)
    (entity : DiscoveryRow) (removeOk : Bool) (add : Option Uuid) :
    s.updateHandler known id entity removeOk add = s ∨ ∃ existing, s.rows.get id = some existing ∧
        s.updateHandler known id entity removeOk add = s.update known
            { entity with
              id := existing.id, createdAt := existing.createdAt
              scanCount := existing.scanCount } removeOk add := by
  rw [updateHandler]
  cases hid : s.rows.get id with
  | none => exact .inl rfl
  | some existing =>
    simp only
    split_ifs
    · exact .inl rfl
    · exact .inr ⟨existing, rfl, rfl⟩

theorem updateHandler_spec (known : String → Bool) (hs : s.Keyed) (id : Uuid)
    (entity : DiscoveryRow) (removeOk : Bool) (add : Option Uuid) :
    s.updateHandler known id entity removeOk add = s ∨
      ∃ existing row : DiscoveryRow, s.rows.get id = some existing ∧ row.id = id ∧
        row.scanCount = existing.scanCount ∧
        (∀ id', (s.updateHandler known id entity removeOk add).rows.get id' =
          if id' = id then some row else s.rows.get id') ∧
        ∀ j job, (s.updateHandler known id entity removeOk add).jobs.get j = some job →
          s.jobs.get j = some job ∨ job.discovery = row := by
  obtain h | ⟨existing, hexisting, heq⟩ := updateHandler_eq known s id entity removeOk add
  · exact .inl h
  · have hid : existing.id = id := hs id existing hexisting
    rw [heq]
    set entity' : DiscoveryRow := { entity with
      id := existing.id, createdAt := existing.createdAt, scanCount := existing.scanCount }
    have hstored : s.rows.get entity'.id = some existing := by
      rw [show entity'.id = id from hid]
      exact hexisting
    obtain h | ⟨row, hrow, hcount, hrows, hjobs⟩ := update_spec known removeOk add hstored
    · exact .inl h
    · refine .inr ⟨existing, row, hexisting, hrow.trans hid, hcount, ?_, hjobs⟩
      intro id'
      rw [hrows id', show entity'.id = id from hid]

theorem createDiscovery_eq (known : String → Bool) (s : Scheduling) (d : DiscoveryRow)
    (newId : Uuid) (now : Timestamp) (add : Option Uuid) :
    s.createDiscovery known d newId now add = s ∨
      ∃ created : DiscoveryRow, s.rows.get created.id = none ∧
        (s.createDiscovery known d newId now add = { s with
            rows := s.rows.insert created.id created } ∧ created.runType.schedule = none ∨
          s.createDiscovery known d newId now add = scheduleOrDisable known
            { s with rows := s.rows.insert created.id created } created add) := by
  rw [createDiscovery]
  set created : DiscoveryRow := if d.id = Uuid.nil then d.new newId now else d
  split_ifs with hvalid hmem hscheduled
  · exact .inl rfl
  · exact .inl rfl
  · exact .inr ⟨created, contains_eq_false.mp (Bool.eq_false_iff.mpr hmem), .inr rfl⟩
  · exact .inr ⟨created, contains_eq_false.mp (Bool.eq_false_iff.mpr hmem),
      .inl ⟨rfl, not_isSome_iff_eq_none.mp hscheduled⟩⟩

theorem createHandler_eq (s : Scheduling) (d : DiscoveryRow) (newId : Uuid) (now : Timestamp) :
    s.createHandler d newId now = s ∨ ∃ created : DiscoveryRow, s.rows.get created.id = none ∧
        s.createHandler d newId now = { s with rows := s.rows.insert created.id created } := by
  rw [createHandler]
  set created : DiscoveryRow := if d.id = Uuid.nil then d.new newId now else d
  split_ifs with hrefused
  · exact .inl rfl
  · rw [Bool.or_eq_true, not_or] at hrefused
    exact .inr ⟨created, contains_eq_false.mp (Bool.eq_false_iff.mpr hrefused.2), rfl⟩

theorem deleteDiscovery_eq (s : Scheduling) (id : Uuid) (removeOk : Bool) :
    s.deleteDiscovery id removeOk = s ∨ ∃ d, s.rows.get id = some d ∧ (d.runType.schedule = none ∧
            s.deleteDiscovery id removeOk = { s with rows := s.rows.remove id } ∨
          d.runType.schedule ≠ none ∧ s.deleteDiscovery id removeOk =
            { s.removeScheduledJob id removeOk with rows := s.rows.remove id }) := by
  rw [deleteDiscovery]
  cases hd : s.rows.get id with
  | none => exact .inl rfl
  | some d =>
    simp only
    split_ifs with hscheduled
    · exact .inr ⟨d, rfl, .inr ⟨isSome_iff_ne_none.mp hscheduled, by rw [rows_removeScheduledJob]⟩⟩
    · exact .inr ⟨d, rfl, .inl ⟨not_isSome_iff_eq_none.mp hscheduled, rfl⟩⟩

theorem startSession_spec (s : Scheduling) (d : DiscoveryRow) (env : StartEnv) :
    s.startSession d env = (s, false) ∨
      (s.startSession d env).1.rows = (s.storageUpdate (d.stamped env.lastRun env.updatedAt)).rows ∧
        (s.startSession d env).1.jobs = s.jobs ∧ (s.startSession d env).1.jobIds = s.jobIds := by
  rw [startSession]
  split_ifs
  · exact .inl rfl
  · right
    simp only
    split <;> exact ⟨rfl, rfl, rfl⟩

/-- A firing that gets as far as `startSession` leaves the row of its job as it is or replaces it
by the copy in the job, stamped; every other row stays. -/
theorem fire_spec {d : DiscoveryRow}
    (hpassed : s.passed jobId env = some d) :
    (s.fire jobId env).jobs = s.jobs ∧ (s.fire jobId env).jobIds = s.jobIds ∧
      ((s.fire jobId env).rows = s.rows ∨ ∃ t u, ∀ id, (s.fire jobId env).rows.get id =
        if id = d.id then (s.rows.get id).map fun _ => d.stamped t u else s.rows.get id) := by
  rw [fire, hpassed]
  simp only
  obtain hrefused | ⟨hrows, hjobs, hjobIds⟩ := startSession_spec s d env.start
  · rw [hrefused]
    exact ⟨rfl, rfl, .inl rfl⟩
  · set t := (s.startSession d env.start).1
    have hget : ∀ id, t.rows.get id = if id = d.id
        then (s.rows.get id).map fun _ => d.stamped env.start.lastRun env.start.updatedAt
        else s.rows.get id := by
      intro id
      rw [hrows, get_rows_storageUpdate, DiscoveryRow.stamped_id]
      split_ifs with hid
      · rw [hid]
      · rfl
    split_ifs
    · cases hfresh : t.rows.get d.id with
      | none => exact ⟨hjobs, hjobIds, .inr ⟨_, _, hget⟩⟩
      | some fresh =>
        have hstamped : fresh = d.stamped env.start.lastRun env.start.updatedAt := by
          rw [hget, if_pos rfl] at hfresh
          obtain ⟨_, -, h⟩ := map_eq_some_iff.mp hfresh
          exact h.symm
        refine ⟨hjobs, hjobIds, .inr ⟨env.lastRun, env.start.updatedAt, fun id => ?_⟩⟩
        subst hstamped
        simp only [DiscoveryRow.stamped, RunType.setLastRun_setLastRun]
        rw [get_rows_storageUpdate, hget]
        simp only
        split_ifs with hid
        · rw [hid, Option.map_map]
          rfl
        · rw [hget, if_neg hid]
    · exact ⟨hjobs, hjobIds, .inr ⟨_, _, hget⟩⟩

/-- The loop of `startScheduler` from the visits that are left: `rows` is the table as it was
read. -/
def scheduleVisits (known : String → Bool) (rows : HashMap Uuid DiscoveryRow) (s : Scheduling)
    (visits : List (Uuid × Option Uuid)) : Scheduling :=
  visits.foldl
    (fun s' visit =>
      match rows.get visit.1 with
      | none => s'
      | some d => s'.scheduleOrDisable known d visit.2) s

theorem startScheduler_eq (known : String → Bool) (s : Scheduling)
    (visits : List (Uuid × Option Uuid)) :
    s.startScheduler known visits = scheduleVisits known s.rows { rows := s.rows } visits := rfl

theorem scheduleVisits_cons_none
    (h : rows.get visit.1 = none) (visits : List (Uuid × Option Uuid)) :
    scheduleVisits known rows s (visit :: visits) = scheduleVisits known rows s visits := by
  rw [scheduleVisits, foldl_cons, h]
  rfl

theorem scheduleVisits_cons_some
    (h : rows.get visit.1 = some d) (visits : List (Uuid × Option Uuid)) :
    scheduleVisits known rows s (visit :: visits) =
      scheduleVisits known rows (s.scheduleOrDisable known d visit.2) visits := by
  rw [scheduleVisits, foldl_cons, h]
  rfl

theorem get_rows_scheduleOrDisable_of_ne (add : Option Uuid) (h : id ≠ d.id) :
    (s.scheduleOrDisable known d add).rows.get id = s.rows.get id := by
  obtain hsame | ⟨hid, -⟩ := get_rows_scheduleOrDisable known s d add id
  · exact hsame
  · exact absurd hid h

section Visits
variable {rows : HashMap Uuid DiscoveryRow} (hrows : ∀ id d, rows.get id = some d → d.id = id)
include hrows

theorem get_rows_of_visited {visit : Uuid × Option Uuid} {visits : List (Uuid × Option Uuid)}
    (hd : rows.get visit.1 = some d) (hfresh : visit.1 ∉ visits.map (·.1))
    (hread : ∀ v ∈ visits, s.rows.get v.1 = rows.get v.1) :
    ∀ v ∈ visits, (s.scheduleOrDisable known d visit.2).rows.get v.1 = rows.get v.1 := by
  intro v hv
  have hne : v.1 ≠ d.id := by
    rw [hrows _ _ hd]
    exact fun h => hfresh (h ▸ List.mem_map_of_mem hv)
  exact (get_rows_scheduleOrDisable_of_ne visit.2 hne).trans (hread v hv)

theorem get_rows_scheduleVisits (visits : List (Uuid × Option Uuid))
    (hnodup : (visits.map (·.1)).Nodup)
    (hread : ∀ visit ∈ visits, s.rows.get visit.1 = rows.get visit.1) (id : Uuid) :
    (scheduleVisits known rows s visits).rows.get id = s.rows.get id ∨ id ∈ visits.map (·.1) ∧
        (scheduleVisits known rows s visits).rows.get id = (s.rows.get id).map (·.disable) := by
  induction visits generalizing s with
  | nil => exact .inl rfl
  | cons visit visits ih =>
    obtain ⟨hfresh, hnodup⟩ := nodup_cons.mp hnodup
    have hhead := hread visit mem_cons_self
    have htail : ∀ v ∈ visits, s.rows.get v.1 = rows.get v.1 :=
      fun v hv => hread v (mem_cons_of_mem visit hv)
    cases hd : rows.get visit.1 with
    | none =>
      rw [scheduleVisits_cons_none hd]
      obtain h | ⟨hmem, h⟩ := ih hnodup htail
      · exact .inl h
      · exact .inr ⟨mem_cons_of_mem _ hmem, h⟩
    | some d =>
      rw [scheduleVisits_cons_some hd]
      have hrec := ih (s := s.scheduleOrDisable known d visit.2) hnodup
        (get_rows_of_visited hrows hd hfresh htail)
      by_cases hid : id = visit.1
      · -- the visited row is not visited again
        obtain h | ⟨hmem, -⟩ := hrec
        · rw [h]
          obtain hsame | ⟨-, hdisabled⟩ := get_rows_scheduleOrDisable known s d visit.2 id
          · exact .inl hsame
          · refine .inr ⟨hid ▸ mem_cons_self, ?_⟩
            rw [hdisabled, hid, hhead, hd]
            rfl
        · rw [hid] at hmem
          exact absurd hmem hfresh
      · have hother : id ≠ d.id := by
          rw [hrows _ _ hd]
          exact hid
        rw [get_rows_scheduleOrDisable_of_ne visit.2 hother] at hrec
        obtain h | ⟨hmem, h⟩ := hrec
        · exact .inl h
        · exact .inr ⟨mem_cons_of_mem _ hmem, h⟩

theorem get_jobs_scheduleVisits (visits : List (Uuid × Option Uuid))
    (hnodup : (visits.map (·.1)).Nodup)
    (hread : ∀ visit ∈ visits, s.rows.get visit.1 = rows.get visit.1)
    (hjobs : ∀ j job, s.jobs.get j = some job →
      s.rows.get job.discovery.id = some job.discovery ∧ job.discovery.id ∉ visits.map (·.1))
    {j : Uuid} {job : Job} (hjob : (scheduleVisits known rows s visits).jobs.get j = some job) :
    (scheduleVisits known rows s visits).rows.get job.discovery.id = some job.discovery := by
  induction visits generalizing s with
  | nil => exact (hjobs j job hjob).1
  | cons visit visits ih =>
    obtain ⟨hfresh, hnodup⟩ := nodup_cons.mp hnodup
    have hhead := hread visit mem_cons_self
    have htail : ∀ v ∈ visits, s.rows.get v.1 = rows.get v.1 :=
      fun v hv => hread v (mem_cons_of_mem visit hv)
    cases hd : rows.get visit.1 with
    | none =>
      rw [scheduleVisits_cons_none hd] at hjob ⊢
      refine ih hnodup htail (fun j job h => ?_) hjob
      obtain ⟨hrow, hnot⟩ := hjobs j job h
      exact ⟨hrow, fun hmem => hnot (mem_cons_of_mem _ hmem)⟩
    | some d =>
      rw [scheduleVisits_cons_some hd] at hjob ⊢
      refine ih hnodup (get_rows_of_visited hrows hd hfresh htail) (fun j job h => ?_) hjob
      obtain hold | ⟨rfl, hrows'⟩ := get_jobs_of_scheduleOrDisable h
      · obtain ⟨hrow, hnot⟩ := hjobs j job hold
        have hne : job.discovery.id ≠ d.id := by
          rw [hrows _ _ hd]
          exact fun h => hnot (h ▸ mem_cons_self)
        exact ⟨(get_rows_scheduleOrDisable_of_ne visit.2 hne).trans hrow,
          fun hmem => hnot (mem_cons_of_mem _ hmem)⟩
      · rw [hrows', hrows _ _ hd]
        exact ⟨hhead.trans hd, hfresh⟩

end Visits

theorem fire_of_passed_none (h : s.passed jobId env = none) :
    s.fire jobId env = s := by
  rw [fire, h]

theorem nodup_visits {visits : List (Uuid × Option Uuid)}
    (h : (SchedulingOp.restart visits).possible s = true) :
    (visits.filterMap (·.2)).Nodup ∧ s.scheduledDiscoveries.Enumerates (visits.map (·.1)) := by
  simpa [SchedulingOp.possible] using h

inductive RowStep (s : Scheduling) (op : SchedulingOp) (id : Uuid) (row : DiscoveryRow) :
    DiscoveryRow → Prop
  | kept : RowStep s op id row row
  | disabled : RowStep s op id row row.disable
  | stamped (t u : Timestamp) : RowStep s op id row (row.stamped t u)
  | edited {entity : DiscoveryRow} {removeOk : Bool} {add : Option Uuid} {row' : DiscoveryRow}
      (hop : op = .update id entity removeOk add) (hcount : row'.scanCount = row.scanCount) :
      RowStep s op id row row'
  | fired {jobId : Uuid} {env : FireEnv} {d : DiscoveryRow} (hop : op = .fire jobId env)
      (hpassed : s.passed jobId env = some d) (hid : d.id = id) (t u : Timestamp) :
      RowStep s op id row (d.stamped t u)
  | scanned {env : FinalizeEnv} {row' : DiscoveryRow} (hop : op = .finalize id env)
      (hcount : row'.scanCount = (row.scanCount + 1) % 2 ^ 32)
      (hforce : row'.forceFullScan = false)
      (htargets : ∀ target ∈ row'.integrationTargets, target ∈ row.integrationTargets) :
      RowStep s op id row row'

theorem mem_networkScopeCredentialIds {credentialId : Uuid}
    (h : credentialId ∈ d.networkScopeCredentialIds) :
    IntegrationTarget.network credentialId ∈ d.integrationTargets := by
  obtain ⟨target, hmem, htarget⟩ := mem_filterMap.mp h
  cases target with
  | network credentialId' =>
    cases htarget
    exact hmem
  | daemonHost _ => cases htarget
  | hosts _ _ => cases htarget

/-- The step from `s` to `s'` leaves every row but that of `id₀`, where `row` is afterwards, and a
job it adds copies that row. -/
structure ChangesRow (s : Scheduling) (op : SchedulingOp) (s' : Scheduling) (id₀ : Uuid)
    (row : Option DiscoveryRow) : Prop where
  rows : ∀ id, s'.rows.get id = if id = id₀ then row else s.rows.get id
  keyed : ∀ d, row = some d → d.id = id₀
  jobs : ∀ j job, s'.jobs.get j = some job →
    s.jobs.get j = some job ∨ row = some job.discovery
  rowStep : ∀ old d, s.rows.get id₀ = some old → row = some d → RowStep s op id₀ old d

section ChangesRow
variable {op : SchedulingOp} {id₀ : Uuid} {row : Option DiscoveryRow}

theorem ChangesRow.of_rows_eq (hs : s.Keyed) (id : Uuid) (hrows : s'.rows = s.rows)
    (hjobs : s'.jobs = s.jobs) : ChangesRow s op s' id (s.rows.get id) := by
  constructor
  · intro id'
    rw [hrows]
    split_ifs with hid
    · rw [hid]
    · rfl
  · exact hs id
  · intro j job hjob
    rw [hjobs] at hjob
    exact .inl hjob
  · intro old d hold hd
    cases hold.symm.trans hd
    exact .kept

theorem ChangesRow.of_fresh {created : DiscoveryRow} (hnone : s.rows.get created.id = none)
    (hkeyed : s'.Keyed)
    (hrows : ∀ id, id ≠ created.id → s'.rows.get id = s.rows.get id)
    (hjobs : ∀ j job, s'.jobs.get j = some job →
      s.jobs.get j = some job ∨ s'.rows.get created.id = some job.discovery) :
    ChangesRow s op s' created.id (s'.rows.get created.id) := by
  refine ⟨fun id => ?_, hkeyed created.id, hjobs, fun old d hold _ => ?_⟩
  · split_ifs with hid
    · rw [hid]
    · exact hrows id hid
  · simp [hnone] at hold

theorem ChangesRow.of_remove (id : Uuid) (hrows : s'.rows = s.rows.remove id)
    (hjobs : ∀ j job, s'.jobs.get j = some job → s.jobs.get j = some job) :
    ChangesRow s op s' id none := by
  constructor
  · intro id'
    rw [hrows, get_remove]
  · intro d hd
    cases hd
  · exact fun j job hjob => .inl (hjobs j job hjob)
  · intro old d _ hd
    cases hd

theorem ChangesRow.of_storageUpdate {stored : DiscoveryRow}
    (hrows : ∀ id, s'.rows.get id = (s.storageUpdate stored).rows.get id)
    (hjobs : s'.jobs = s.jobs)
    (hstep : ∀ old, s.rows.get stored.id = some old → RowStep s op stored.id old stored) :
    ChangesRow s op s' stored.id ((s.rows.get stored.id).map fun _ => stored) := by
  constructor
  · intro id
    rw [hrows, get_rows_storageUpdate]
  · intro d hd
    obtain ⟨_, -, rfl⟩ := map_eq_some_iff.mp hd
    rfl
  · intro j job hjob
    rw [hjobs] at hjob
    exact .inl hjob
  · intro old d hold hd
    obtain ⟨_, -, rfl⟩ := map_eq_some_iff.mp hd
    exact hstep old hold

theorem changesRow_createDiscovery (known : String → Bool) (hs : s.Keyed) (d : DiscoveryRow)
    (newId : Uuid) (now : Timestamp) (add : Option Uuid) :
    ∃ id₀ row, ChangesRow s op (s.createDiscovery known d newId now add) id₀ row := by
  obtain h | ⟨created, hnone, ⟨h, -⟩ | h⟩ := createDiscovery_eq known s d newId now add
  · rw [h]
    exact ⟨newId, _, .of_rows_eq hs newId rfl rfl⟩
  · rw [h]
    refine ⟨created.id, _, .of_fresh hnone (keyed_insert hs created) (fun id hid => ?_)
      fun j job hjob => .inl hjob⟩
    simp only [get_insert, if_neg hid]
  · rw [h]
    refine ⟨created.id, _, .of_fresh hnone
      (keyed_scheduleOrDisable (keyed_insert hs created) created add) (fun id hid => ?_)
      fun j job hjob => ?_⟩
    · rw [get_rows_scheduleOrDisable_of_ne add hid]
      simp only [get_insert, if_neg hid]
    · refine (get_jobs_of_scheduleOrDisable hjob).imp_right fun ⟨hcopy, hrows⟩ => ?_
      rw [hrows, hcopy]
      exact get_insert_self _ _ _

theorem changesRow_fire (hs : s.Keyed) (jobId : Uuid) (env : FireEnv) :
    ∃ id₀ row, ChangesRow s (.fire jobId env) (s.fire jobId env) id₀ row := by
  cases hpassed : s.passed jobId env with
  | none =>
    rw [fire_of_passed_none hpassed]
    exact ⟨jobId, _, .of_rows_eq hs jobId rfl rfl⟩
  | some d =>
    obtain ⟨hjobs, -, h | ⟨t, u, h⟩⟩ := fire_spec hpassed
    · exact ⟨jobId, _, .of_rows_eq hs jobId h hjobs⟩
    · have hrows : ∀ id, (s.fire jobId env).rows.get id =
          (s.storageUpdate (d.stamped t u)).rows.get id := by
        intro id
        rw [h, get_rows_storageUpdate, DiscoveryRow.stamped_id]
        split_ifs with hid
        · rw [hid]
        · rfl
      exact ⟨_, _, .of_storageUpdate hrows hjobs fun _ _ => .fired rfl hpassed rfl t u⟩

theorem changesRow_startHandler (hs : s.Keyed) (id : Uuid) (env : StartEnv) :
    ∃ id₀ row, ChangesRow s op (s.startHandler id env) id₀ row := by
  rw [startHandler]
  split
  · exact ⟨id, _, .of_rows_eq hs id rfl rfl⟩
  · rename_i d hd
    obtain h | ⟨hrows, hjobs, -⟩ := startSession_spec s d env
    · rw [h]
      exact ⟨id, _, .of_rows_eq hs id rfl rfl⟩
    · refine ⟨_, _, .of_storageUpdate (fun id => by rw [hrows]) hjobs fun old hold => ?_⟩
      have hid : d.id = id := hs id d hd
      rw [DiscoveryRow.stamped_id, hid, hd] at hold
      cases hold
      exact .stamped _ _

theorem changesRow_finalize (hs : s.Keyed) (id : Uuid) (env : FinalizeEnv) :
    ∃ id₀ row, ChangesRow s (.finalize id env) (s.finalizeSuccessfulScan id env) id₀ row := by
  rw [finalizeSuccessfulScan]
  split
  · exact ⟨id, _, .of_rows_eq hs id rfl rfl⟩
  · rename_i parent hparent
    refine ⟨_, _, .of_storageUpdate (fun _ => rfl) rfl fun old hold => ?_⟩
    have hid : parent.id = id := hs id parent hparent
    split_ifs at hold ⊢
    · change s.rows.get parent.id = some old at hold
      rw [hid, hparent] at hold
      cases hold
      refine .scanned (by rw [← hid]; rfl) rfl rfl fun target htarget => ?_
      obtain ⟨credentialId, hmem, rfl⟩ := List.mem_map.mp htarget
      exact mem_networkScopeCredentialIds (mem_filter.mp hmem).1
    · change s.rows.get parent.id = some old at hold
      rw [hid, hparent] at hold
      cases hold
      exact .scanned (by rw [← hid]; rfl) rfl rfl nofun

theorem changesRow_apply (known : String → Bool) (hs : s.Keyed)
    (hop : ∀ visits, op ≠ .restart visits) :
    ∃ id₀ row, ChangesRow s op (op.apply known s) id₀ row := by
  cases op with
  | createHandler d newId now =>
    change ∃ id₀ row, ChangesRow s _ (s.createHandler d newId now) id₀ row
    obtain h | ⟨created, hnone, h⟩ := createHandler_eq s d newId now
    · rw [h]
      exact ⟨newId, _, .of_rows_eq hs newId rfl rfl⟩
    · rw [h]
      refine ⟨created.id, _, .of_fresh hnone (keyed_insert hs created) (fun id hid => ?_)
        fun j job hjob => .inl hjob⟩
      simp only [get_insert, if_neg hid]
  | createDiscovery d newId now add => exact changesRow_createDiscovery known hs d newId now add
  | update id entity removeOk add =>
    change ∃ id₀ row, ChangesRow s _ (s.updateHandler known id entity removeOk add) id₀ row
    obtain h | ⟨existing, row, hexisting, hid, hcount, hrows, hjobs⟩ :=
      updateHandler_spec known hs id entity removeOk add
    · rw [h]
      exact ⟨id, _, .of_rows_eq hs id rfl rfl⟩
    · refine ⟨id, some row, hrows, fun d hd => ?_, fun j job hjob => ?_, fun old d hold hd => ?_⟩
      · cases hd
        exact hid
      · exact (hjobs j job hjob).imp_right fun hcopy => congrArg some hcopy.symm
      · cases hd
        cases hexisting.symm.trans hold
        exact .edited rfl hcount
  | deleteHandler id =>
    change ∃ id₀ row, ChangesRow s _ (s.deleteHandler id) id₀ row
    rw [deleteHandler]
    split_ifs
    · exact ⟨id, _, .of_rows_eq hs id rfl rfl⟩
    · exact ⟨id, none, .of_remove id rfl fun j job hjob => hjob⟩
  | deleteDiscovery id removeOk =>
    change ∃ id₀ row, ChangesRow s _ (s.deleteDiscovery id removeOk) id₀ row
    obtain h | ⟨d, -, ⟨-, h⟩ | ⟨-, h⟩⟩ := deleteDiscovery_eq s id removeOk
    · rw [h]
      exact ⟨id, _, .of_rows_eq hs id rfl rfl⟩
    · rw [h]
      exact ⟨id, none, .of_remove id rfl fun j job hjob => hjob⟩
    · rw [h]
      exact ⟨id, none, .of_remove id rfl fun j job => get_jobs_of_removeScheduledJob⟩
  | restart visits => exact absurd rfl (hop visits)
  | fire jobId env => exact changesRow_fire hs jobId env
  | start id env => exact changesRow_startHandler hs id env
  | finalize id env => exact changesRow_finalize hs id env
  | sessionEnded id => exact ⟨id, _, .of_rows_eq hs id rfl rfl⟩

end ChangesRow

section Apply
variable {op : SchedulingOp}

theorem get_rows_startScheduler (known : String → Bool) (hs : s.Keyed)
    {visits : List (Uuid × Option Uuid)}
    (hvisits : (SchedulingOp.restart visits).possible s = true) (id : Uuid) :
    (s.startScheduler known visits).rows.get id = s.rows.get id ∨
      (s.startScheduler known visits).rows.get id = (s.rows.get id).map (·.disable) := by
  rw [startScheduler_eq]
  obtain h | ⟨-, h⟩ := get_rows_scheduleVisits (s := { rows := s.rows }) hs visits
    (nodup_visits hvisits).2.1 (fun _ _ => rfl) id
  · exact .inl h
  · exact .inr h

theorem keyed_apply (known : String → Bool) (hs : s.Keyed) (hop : op.possible s = true) :
    (op.apply known s).Keyed := by
  by_cases hrestart : ∃ visits, op = .restart visits
  · obtain ⟨visits, rfl⟩ := hrestart
    intro id d hd
    obtain h | h := get_rows_startScheduler known hs hop id
    · exact hs id d (h.symm.trans hd)
    · obtain ⟨row, hrow, rfl⟩ := map_eq_some_iff.mp (h.symm.trans hd)
      exact hs id row hrow
  · obtain ⟨id₀, row, hchange⟩ := changesRow_apply known hs fun visits h => hrestart ⟨visits, h⟩
    intro id d hd
    rw [hchange.rows] at hd
    split_ifs at hd with hid
    · rw [hid]
      exact hchange.keyed d hd
    · exact hs id d hd

theorem get_jobs_apply (known : String → Bool) (hs : s.Keyed) (hop : op.possible s = true)
    {j : Uuid} {job : Job} (hjob : (op.apply known s).jobs.get j = some job) :
    (s.jobs.get j = some job ∧ ∀ visits, op ≠ .restart visits) ∨
      (op.apply known s).rows.get job.discovery.id = some job.discovery := by
  by_cases hrestart : ∃ visits, op = .restart visits
  · obtain ⟨visits, rfl⟩ := hrestart
    right
    refine get_jobs_scheduleVisits (s := { rows := s.rows }) hs visits (nodup_visits hop).2.1
      (fun _ _ => rfl) (fun j job h => ?_) hjob
    exact absurd (show none = some job from h) nofun
  · have hne : ∀ visits, op ≠ .restart visits := fun visits h => hrestart ⟨visits, h⟩
    obtain ⟨id₀, row, hchange⟩ := changesRow_apply known hs hne
    obtain hold | hcopy := hchange.jobs j job hjob
    · exact .inl ⟨hold, hne⟩
    · right
      rw [hchange.rows, if_pos (hchange.keyed _ hcopy)]
      exact hcopy

theorem rowStep_apply (known : String → Bool) (hs : s.Keyed) (hop : op.possible s = true)
    {row row' : DiscoveryRow} (hrow : s.rows.get id = some row)
    (hrow' : (op.apply known s).rows.get id = some row') : RowStep s op id row row' := by
  have kept : s.rows.get id = some row' → RowStep s op id row row' := by
    intro h
    cases hrow.symm.trans h
    exact .kept
  by_cases hrestart : ∃ visits, op = .restart visits
  · obtain ⟨visits, rfl⟩ := hrestart
    obtain h | h := get_rows_startScheduler known hs hop id
    · exact kept (h.symm.trans hrow')
    · have hdisabled := h.symm.trans hrow'
      rw [hrow] at hdisabled
      cases hdisabled
      exact .disabled
  · obtain ⟨id₀, row₀, hchange⟩ := changesRow_apply known hs fun visits h => hrestart ⟨visits, h⟩
    rw [hchange.rows] at hrow'
    split_ifs at hrow' with hid
    · rw [hid] at hrow ⊢
      exact hchange.rowStep row row' hrow hrow'
    · exact kept hrow'

end Apply

def rowChanged (s s' : Scheduling) (j : Uuid) : Bool :=
  match s.jobs.get j with
  | none => false
  | some job => s'.rows.get job.discovery.id != s.rows.get job.discovery.id

def recordOutdated (s : Scheduling) (op : SchedulingOp) (s' : Scheduling)
    (outdated : Finset Uuid) : Finset Uuid :=
  match op with
  | .restart _ => ∅
  | _ => s'.jobs.keys.filter fun j => j ∈ outdated ∨ s.rowChanged s' j = true

end Scheduling

/-- `scheduling`, with the set of the jobs whose row has changed since they were added. -/
def tracedScheduling (known : String → Bool) : Lts (Scheduling × Finset Uuid) SchedulingOp :=
  (scheduling known).withHistory ∅ Scheduling.recordOutdated

namespace Scheduling
variable {known : String → Bool} {t t' : Scheduling × Finset Uuid} {op : SchedulingOp}
variable {d : DiscoveryRow} {env : FireEnv} {s : Scheduling} {jobId : Uuid}

theorem step_tracedScheduling (h : (tracedScheduling known).step t op = some t') :
    op.possible t.1 = true ∧ t'.1 = op.apply known t.1 ∧ t'.2 = recordOutdated t.1 op t'.1 t.2 := by
  obtain ⟨hstep, hhistory⟩ := Lts.step_withHistory h
  simp only [scheduling, ite_none_right_eq_some, some.injEq] at hstep
  exact ⟨hstep.1, hstep.2.symm, hhistory⟩

structure CopiesStored (t : Scheduling × Finset Uuid) : Prop where
  keyed : t.1.Keyed
  copies : ∀ j job, t.1.jobs.get j = some job → j ∉ t.2 →
    t.1.rows.get job.discovery.id = some job.discovery

theorem copiesStored_step (hinv : CopiesStored t)
    (hstep : (tracedScheduling known).step t op = some t') : CopiesStored t' := by
  obtain ⟨hop, happly, hhistory⟩ := step_tracedScheduling hstep
  refine ⟨happly ▸ keyed_apply known hinv.keyed hop, fun j job hjob hfresh => ?_⟩
  have hjob' : (op.apply known t.1).jobs.get j = some job := happly ▸ hjob
  obtain ⟨hold, hrestart⟩ | hnew := get_jobs_apply known hinv.keyed hop hjob'
  · have hmem : j ∈ t'.1.jobs.keys := mem_keys.mpr ⟨job, hjob⟩
    have hnot : ¬(j ∈ t.2 ∨ t.1.rowChanged t'.1 j = true) := by
      intro h
      apply hfresh
      rw [hhistory]
      cases op with
      | restart visits => exact absurd rfl (hrestart visits)
      | _ => exact Finset.mem_filter.mpr ⟨hmem, h⟩
    obtain ⟨hcurrent, hsame⟩ := not_or.mp hnot
    have hrow : t'.1.rows.get job.discovery.id = t.1.rows.get job.discovery.id := by
      simpa [rowChanged, hold] using hsame
    rw [hrow]
    exact hinv.copies j job hold hcurrent
  · rw [happly]
    exact hnew

theorem copiesStored_of_reachable (ht : (tracedScheduling known).Reachable t) :
    CopiesStored t := by
  have hinit : CopiesStored (tracedScheduling known).init := by
    constructor
    · intro id d hd
      have hnone : some d = none := hd.symm
      cases hnone
    · intro j job hjob
      have hnone : some job = none := hjob.symm
      cases hnone
  refine Lts.ReachableVia.invariant hinit ?_ ht
  intro t op t' _ hinv _ hstep
  exact copiesStored_step hinv hstep

/-- A firing that starts a session is the first thing that changes its row since the job was
added, and `scan_count` does not run over. -/
def FiresUnchanged (t : Scheduling × Finset Uuid) : SchedulingOp → Prop
  | .fire jobId env => ∀ d, t.1.passed jobId env = some d → jobId ∉ t.2
  | .finalize id _ => ∀ row, t.1.rows.get id = some row → row.scanCount + 1 < 2 ^ 32
  | _ => True

/-- What the step from `s` to `s'` has to do with the stored configuration: a firing passes the
row as it is stored and writes its stamps only, no step lets a scan count decrease, and only a
user's edit brings back a full scan or a target. -/
structure ExecutesStored (s : Scheduling) (op : SchedulingOp) (s' : Scheduling) : Prop where
  passes_stored : ∀ jobId env d, op = .fire jobId env → s.passed jobId env = some d →
    s.rows.get d.id = some d
  writes_stamps : ∀ jobId env d, op = .fire jobId env → s.passed jobId env = some d →
    ∀ id, (s'.rows.get id).map (·.unstamped) = (s.rows.get id).map (·.unstamped)
  count_le : ∀ id row row', s.rows.get id = some row → s'.rows.get id = some row' →
    row.scanCount ≤ row'.scanCount
  one_shot : ∀ id row row', s.rows.get id = some row → s'.rows.get id = some row' →
    (∀ entity removeOk add, op ≠ .update id entity removeOk add) →
    (row'.forceFullScan = true → row.forceFullScan = true) ∧
      ∀ target ∈ row'.integrationTargets, target ∈ row.integrationTargets

theorem get_jobs_of_passed
    (h : s.passed jobId env = some d) :
    ∃ job, s.jobs.get jobId = some job ∧ job.discovery = d := by
  rw [passed] at h
  cases hjob : s.jobs.get jobId with
  | none => simp [hjob] at h
  | some job =>
    refine ⟨job, rfl, ?_⟩
    simp only [hjob] at h
    split at h
    · exact absurd h nofun
    · simpa using (ite_none_right_eq_some.mp h).2

theorem writes_stamps_of_passes_stored (hpassed : s.passed jobId env = some d)
    (hd : s.rows.get d.id = some d)
    (id : Uuid) :
    ((s.fire jobId env).rows.get id).map (·.unstamped) = (s.rows.get id).map (·.unstamped) := by
  obtain ⟨-, -, h | ⟨t, u, h⟩⟩ := fire_spec hpassed
  · rw [h]
  · rw [h]
    split_ifs with hid
    · rw [hid, hd]
      exact congrArg some (DiscoveryRow.unstamped_stamped d t u)
    · rfl

/-- Over every order of the operations, a step that meets the condition executes the stored
configuration. -/
theorem executes_stored_of_fires_unchanged (known : String → Bool)
    {t t' : Scheduling × Finset Uuid} {op : SchedulingOp}
    (ht : (tracedScheduling known).Reachable t) (hok : FiresUnchanged t op)
    (hstep : (tracedScheduling known).step t op = some t') : ExecutesStored t.1 op t'.1 := by
  obtain ⟨hop, happly, -⟩ := step_tracedScheduling hstep
  have hinv := copiesStored_of_reachable ht
  have hpasses : ∀ jobId env d, op = .fire jobId env → t.1.passed jobId env = some d →
      t.1.rows.get d.id = some d := by
    rintro jobId env d rfl hpassed
    obtain ⟨job, hjob, rfl⟩ := get_jobs_of_passed hpassed
    exact hinv.copies jobId job hjob (hok job.discovery hpassed)
  have hrowStep : ∀ id row row', t.1.rows.get id = some row → t'.1.rows.get id = some row' →
      RowStep t.1 op id row row' := by
    intro id row row' hrow hrow'
    rw [happly] at hrow'
    exact rowStep_apply known hinv.keyed hop hrow hrow'
  refine ⟨hpasses, ?_, ?_, ?_⟩
  · rintro jobId env d rfl hpassed id
    rw [happly]
    exact writes_stamps_of_passes_stored hpassed (hpasses jobId env d rfl hpassed) id
  · intro id row row' hrow hrow'
    cases hrowStep id row row' hrow hrow' with
    | kept | disabled | stamped => exact le_rfl
    | edited _ hcount => exact hcount.ge
    | fired hop hpassed hid =>
      have hstored := hpasses _ _ _ hop hpassed
      rw [hid, hrow] at hstored
      cases hstored
      exact le_rfl
    | scanned hop hcount =>
      subst hop
      have hsmall := hok row hrow
      rw [hcount, mod_eq_of_lt hsmall]
      exact le_succ row.scanCount
  · intro id row row' hrow hrow' hedit
    cases hrowStep id row row' hrow hrow' with
    | kept | disabled | stamped => exact ⟨fun h => h, fun _ h => h⟩
    | edited hop _ => exact absurd hop (hedit _ _ _)
    | fired hop hpassed hid =>
      have hstored := hpasses _ _ _ hop hpassed
      rw [hid, hrow] at hstored
      cases hstored
      exact ⟨fun h => h, fun _ h => h⟩
    | scanned _ _ hforce htargets =>
      exact ⟨fun h => absurd h (by rw [hforce]; exact Bool.false_ne_true), htargets⟩

section Runs

private def nightly : DiscoveryRow where
  id := 1
  daemonId := 2
  networkId := 3
  discoveryType := .unified 4 none {}
  createdAt := 0
  updatedAt := 0
  name := "nightly"
  runType := .scheduled "0 0 2 * * *" none true none
  integrationTargets := [.network 5]

private def fireEnv : FireEnv where
  allowed := true
  start := { sessionId := 20, lastRun := 30, updatedAt := 31 }
  lastRun := 32

/-- The first firing after the discovery was created executes what is stored. -/
theorem executes_stored_of_fires_unchanged_nightly :
    ∃ t t', (tracedScheduling fun _ => true).run (tracedScheduling fun _ => true).init
        [.createDiscovery nightly 0 0 (some 10)] = some t ∧
      t.1.passed 10 fireEnv = some nightly ∧ FiresUnchanged t (.fire 10 fireEnv) ∧
      (tracedScheduling fun _ => true).step t (.fire 10 fireEnv) = some t' ∧
      ExecutesStored t.1 (.fire 10 fireEnv) t'.1 := by
  obtain ⟨t, hrun⟩ : ∃ t, (tracedScheduling fun _ => true).run (tracedScheduling fun _ => true).init
      [.createDiscovery nightly 0 0 (some 10)] = some t := ⟨_, rfl⟩
  have hok : FiresUnchanged t (.fire 10 fireEnv) := by
    intro d _
    cases hrun
    decide +kernel
  have hpassed : t.1.passed 10 fireEnv = some nightly := by
    cases hrun
    decide +kernel
  obtain ⟨t', hstep⟩ : ∃ t', (tracedScheduling fun _ => true).step t (.fire 10 fireEnv) = some t' :=
    ⟨_, rfl⟩
  exact ⟨t, t', hrun, hpassed, hok, hstep,
    executes_stored_of_fires_unchanged _ (Lts.reachable_of_run hrun) hok hstep⟩

/-- A scan completes, the user renames the discovery, and the job of the old name fires: the old
name, the old count and the consumed target are stored again. -/
theorem firing_reverts_edit :
    ∃ s s', (scheduling fun _ => true).run (scheduling fun _ => true).init
        [.createDiscovery nightly 0 0 (some 10), .finalize 1 ⟨fun _ => true, true, 40⟩,
          .update 1 { nightly with name := "renamed", integrationTargets := [] } true none] =
          some s ∧
      (scheduling fun _ => true).step s (.fire 10 fireEnv) = some s' ∧
      (s.rows.get 1).map (fun d => (d.name, d.scanCount, d.integrationTargets)) =
        some ("renamed", 1, []) ∧
      (s'.rows.get 1).map (fun d => (d.name, d.scanCount, d.integrationTargets)) =
        some ("nightly", 0, [.network 5]) ∧
      ¬ExecutesStored s (.fire 10 fireEnv) s' := by
  refine ⟨_, _, rfl, rfl, by decide +kernel, by decide +kernel, fun h => ?_⟩
  have hstored := h.passes_stored 10 fireEnv nightly rfl (by decide +kernel)
  revert hstored
  decide +kernel

end Runs

end Scheduling
end Scanopy
