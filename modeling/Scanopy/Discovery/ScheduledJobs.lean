import Scanopy.Discovery.StoredConfig

/-! The scheduler holds exactly the enabled schedules (`HoldsEnabled`). The invariant behind it,
`JobsApart`, leaves out the discoveries that are just about to be scheduled. -/

namespace Scanopy

open List Option

def RunType.runsAt (known : String → Bool) (r : RunType) : Option (String × String) :=
  (r.schedule.filter (·.enabled)).map fun schedule =>
    (schedule.cronSchedule, timezoneOf known schedule.timezone)

namespace RunType
variable {known : String → Bool} {r : RunType}

theorem runsAt_of_schedule (known : String → Bool) {schedule : ScheduleParts}
    (h : r.schedule = some schedule) (he : schedule.enabled = true) :
    r.runsAt known = some (schedule.cronSchedule, timezoneOf known schedule.timezone) := by
  simp [runsAt, h, Option.filter, he]

theorem isSome_runsAt (known : String → Bool) (r : RunType) :
    (r.runsAt known).isSome = r.isScheduledEnabled := by
  rw [runsAt, isSome_map, isScheduledEnabled]
  cases r.schedule with
  | none => rfl
  | some schedule => cases h : schedule.enabled <;> simp [Option.filter, h]

theorem runsAt_eq_none : r.runsAt known = none ↔ r.isScheduledEnabled = false := by
  rw [← isSome_runsAt known, isSome_eq_false_iff, isNone_iff_eq_none]

theorem runsAt_setLastRun (t : Timestamp) : (r.setLastRun t).runsAt known = r.runsAt known := by
  cases r <;> rfl

theorem runsAt_disable : r.disable.runsAt known = none := by
  cases r <;> rfl

end RunType

namespace Scheduling
variable {known : String → Bool} {s s' : Scheduling} {d : DiscoveryRow} {id : Uuid}
  {pending : List Uuid}
variable {entity old : DiscoveryRow} {current new : RunType} {op : SchedulingOp} {now : Timestamp}
  {jobId newId : Uuid}

def HasJob (s : Scheduling) (id : Uuid) : Prop :=
  ∃ j job, s.jobs.get j = some job ∧ job.discovery.id = id

structure HoldsEnabled (known : String → Bool) (s : Scheduling) : Prop where
  live_iff : ∀ id, s.HasJob id ↔
    ∃ d, s.rows.get id = some d ∧ d.runType.isScheduledEnabled = true
  unique : ∀ j j' job job', s.jobs.get j = some job → s.jobs.get j' = some job' →
    job.discovery.id = job'.discovery.id → j = j'
  matches_row : ∀ j job d schedule, s.jobs.get j = some job →
    s.rows.get job.discovery.id = some d → d.runType.schedule = some schedule →
    job.cronSchedule = schedule.cronSchedule ∧
      job.timezone = timezoneOf known schedule.timezone

def runsAt (known : String → Bool) (s : Scheduling) (id : Uuid) : Option (String × String) :=
  (s.rows.get id).bind fun d => d.runType.runsAt known

/-- The jobs and the table agree apart from the discoveries in `pending`, which have no job. -/
structure JobsApart (known : String → Bool) (pending : List Uuid) (s : Scheduling) : Prop where
  keyed : s.Keyed
  job_of_mapping : ∀ id j, s.jobIds.get id = some j →
    ∃ job, s.jobs.get j = some job ∧ job.discovery.id = id
  mapped : ∀ j job, s.jobs.get j = some job → s.jobIds.get job.discovery.id = some j
  copy_runsAt : ∀ j job, s.jobs.get j = some job →
    job.discovery.runType.runsAt known = some (job.cronSchedule, job.timezone)
  row_runsAt : ∀ j job, s.jobs.get j = some job →
    s.runsAt known job.discovery.id = some (job.cronSchedule, job.timezone)
  apart : ∀ j job, s.jobs.get j = some job → job.discovery.id ∉ pending
  held : ∀ id, (s.runsAt known id).isSome = true → id ∉ pending → s.HasJob id

theorem runsAt_of_get (h : s.rows.get id = some d) :
    s.runsAt known id = d.runType.runsAt known := by
  rw [runsAt, h]
  rfl

theorem isSome_runsAt (known : String → Bool) (s : Scheduling) (id : Uuid) :
    (s.runsAt known id).isSome = true ↔
      ∃ d, s.rows.get id = some d ∧ d.runType.isScheduledEnabled = true := by
  rw [runsAt]
  cases h : s.rows.get id with
  | none => simp
  | some d =>
    rw [bind_some, RunType.isSome_runsAt]
    simp

theorem HoldsEnabled.of_jobsApart (h : JobsApart known [] s) : HoldsEnabled known s := by
  constructor
  · intro id
    rw [← isSome_runsAt known]
    constructor
    · rintro ⟨j, job, hjob, rfl⟩
      rw [h.row_runsAt j job hjob]
      rfl
    · exact fun hid => h.held id hid not_mem_nil
  · intro j j' job job' hjob hjob' hid
    have hj := h.mapped j job hjob
    have hj' := h.mapped j' job' hjob'
    rw [hid, hj'] at hj
    exact (some.inj hj).symm
  · intro j job d schedule hjob hd hschedule
    have hruns := h.row_runsAt j job hjob
    rw [runsAt_of_get hd] at hruns
    have henabled : schedule.enabled = true := by
      by_contra he
      simp [RunType.runsAt, hschedule, Option.filter, he] at hruns
    rw [RunType.runsAt_of_schedule known hschedule henabled, some.injEq, Prod.mk.injEq] at hruns
    exact ⟨hruns.1.symm, hruns.2.symm⟩

/-- Steps that keep the jobs, and when each row is to run, keep the agreement. Nothing is said of
the rows of the discoveries in `pending`. -/
theorem JobsApart.of_frame (h : JobsApart known pending s) (hkeyed : s'.Keyed)
    (hjobs : s'.jobs = s.jobs) (hjobIds : s'.jobIds = s.jobIds)
    (hruns : ∀ id, id ∉ pending → s'.runsAt known id = s.runsAt known id) :
    JobsApart known pending s' := by
  constructor
  · exact hkeyed
  · intro id j
    rw [hjobs, hjobIds]
    exact h.job_of_mapping id j
  · intro j job
    rw [hjobs, hjobIds]
    exact h.mapped j job
  · intro j job
    rw [hjobs]
    exact h.copy_runsAt j job
  · intro j job hjob
    rw [hjobs] at hjob
    rw [hruns _ (h.apart j job hjob)]
    exact h.row_runsAt j job hjob
  · intro j job
    rw [hjobs]
    exact h.apart j job
  · intro id hid hpending
    rw [hruns id hpending] at hid
    obtain ⟨j, job, hjob, hjobid⟩ := h.held id hid hpending
    exact ⟨j, job, by rw [hjobs]; exact hjob, hjobid⟩

theorem JobsApart.of_rows (h : JobsApart known (id :: pending) s) (hkeyed : s'.Keyed)
    (hjobs : s'.jobs = s.jobs) (hjobIds : s'.jobIds = s.jobIds)
    (hrows : ∀ id', id' ≠ id → s'.rows.get id' = s.rows.get id') :
    JobsApart known (id :: pending) s' := by
  refine h.of_frame hkeyed hjobs hjobIds fun id' hid' => ?_
  rw [runsAt, runsAt, hrows id' fun heq => hid' (heq ▸ mem_cons_self)]

theorem JobsApart.of_cons (h : JobsApart known (id :: pending) s)
    (hid : s.runsAt known id = none) : JobsApart known pending s := by
  refine { h with apart := ?_, held := ?_ }
  · exact fun j job hjob hmem => h.apart j job hjob (mem_cons_of_mem id hmem)
  · intro id' hid' hpending
    refine h.held id' hid' fun hmem => ?_
    obtain rfl | hmem := mem_cons.mp hmem
    · rw [hid] at hid'
      exact Bool.false_ne_true hid'
    · exact hpending hmem

theorem JobsApart.cons_of_runsAt (h : JobsApart known pending s)
    (hid : s.runsAt known id = none) : JobsApart known (id :: pending) s := by
  refine { h with apart := ?_, held := ?_ }
  · intro j job hjob hmem
    obtain heq | hmem := mem_cons.mp hmem
    · have hruns := h.row_runsAt j job hjob
      rw [heq, hid] at hruns
      exact absurd hruns nofun
    · exact h.apart j job hjob hmem
  · exact fun id' hid' hnot => h.held id' hid' fun hmem => hnot (mem_cons_of_mem id hmem)

theorem JobsApart.removeScheduledJob (h : JobsApart known pending s) (id : Uuid) :
    JobsApart known (id :: pending) (s.removeScheduledJob id true) := by
  rw [Scheduling.removeScheduledJob]
  cases hj₀ : s.jobIds.get id with
  | none =>
    refine { h with apart := ?_, held := ?_ }
    · intro j job hjob hmem
      obtain heq | hmem := mem_cons.mp hmem
      · have hmapped := h.mapped j job hjob
        rw [heq, hj₀] at hmapped
        cases hmapped
      · exact h.apart j job hjob hmem
    · exact fun id' hid' hnot => h.held id' hid' fun hmem => hnot (mem_cons_of_mem id hmem)
  | some j₀ =>
    obtain ⟨job₀, hjob₀, hid₀⟩ := h.job_of_mapping id j₀ hj₀
    -- the jobs that stay are those of the other discoveries
    have hstays : ∀ j job, (s.jobs.remove j₀).get j = some job →
        s.jobs.get j = some job ∧ job.discovery.id ≠ id := by
      intro j job hjob
      rw [HashMap.get_remove] at hjob
      split_ifs at hjob with hne
      refine ⟨hjob, fun heq => hne ?_⟩
      have hmapped := h.mapped j job hjob
      rw [heq, hj₀] at hmapped
      exact (some.inj hmapped).symm
    constructor
    · exact h.keyed
    · intro id' j hmapping
      simp only [HashMap.get_remove] at hmapping
      split_ifs at hmapping with hne
      obtain ⟨job, hjob, hid'⟩ := h.job_of_mapping id' j hmapping
      refine ⟨job, ?_, hid'⟩
      have hj : j ≠ j₀ := by
        rintro rfl
        cases hjob₀.symm.trans hjob
        exact hne (hid'.symm.trans hid₀)
      simp only [if_true, HashMap.get_remove, if_neg hj]
      exact hjob
    · intro j job hjob
      obtain ⟨hold, hne⟩ := hstays j job hjob
      simp only [HashMap.get_remove, if_neg hne]
      exact h.mapped j job hold
    · exact fun j job hjob => h.copy_runsAt j job (hstays j job hjob).1
    · exact fun j job hjob => h.row_runsAt j job (hstays j job hjob).1
    · intro j job hjob hmem
      obtain ⟨hold, hne⟩ := hstays j job hjob
      obtain heq | hmem := mem_cons.mp hmem
      · exact hne heq
      · exact h.apart j job hold hmem
    · intro id' hid' hnot
      obtain ⟨hne, hpending⟩ := not_or.mp fun h => hnot (mem_cons.mpr h)
      obtain ⟨j, job, hjob, hjobid⟩ := h.held id' hid' hpending
      refine ⟨j, job, ?_, hjobid⟩
      have hj : j ≠ j₀ := by
        rintro rfl
        cases hjob₀.symm.trans hjob
        exact hne (hjobid.symm.trans hid₀)
      simp only [if_true, HashMap.get_remove, if_neg hj]
      exact hjob

theorem JobsApart.addJob {schedule : ScheduleParts}
    (h : JobsApart known (d.id :: pending) s) (hd : s.rows.get d.id = some d)
    (hschedule : d.runType.schedule = some schedule) (henabled : schedule.enabled = true)
    (hfresh : s.jobs.get jobId = none) (hnot : d.id ∉ pending) :
    JobsApart known pending { s with
      jobs := s.jobs.insert jobId ⟨schedule.cronSchedule, timezoneOf known schedule.timezone, d⟩
      jobIds := s.jobIds.insert d.id jobId } := by
  have hruns := RunType.runsAt_of_schedule known hschedule henabled
  have hne : ∀ j job, s.jobs.get j = some job → j ≠ jobId ∧ job.discovery.id ≠ d.id := by
    intro j job hjob
    constructor
    · rintro rfl
      simp [hfresh] at hjob
    · exact fun heq => h.apart j job hjob (heq ▸ mem_cons_self)
  constructor
  · exact h.keyed
  · intro id j hmapping
    simp only [HashMap.get_insert] at hmapping ⊢
    split_ifs at hmapping with hid
    · cases hmapping
      exact ⟨_, if_pos rfl, hid.symm⟩
    · obtain ⟨job, hjob, hjobid⟩ := h.job_of_mapping id j hmapping
      exact ⟨job, (if_neg (hne j job hjob).1).trans hjob, hjobid⟩
  · intro j job hjob
    simp only [HashMap.get_insert] at hjob ⊢
    split_ifs at hjob with hj
    · cases hjob
      rw [if_pos rfl, hj]
    · rw [if_neg (hne j job hjob).2]
      exact h.mapped j job hjob
  · intro j job hjob
    simp only [HashMap.get_insert] at hjob
    split_ifs at hjob
    · cases hjob
      exact hruns
    · exact h.copy_runsAt j job hjob
  · intro j job hjob
    simp only [HashMap.get_insert] at hjob
    split_ifs at hjob
    · cases hjob
      exact (runsAt_of_get hd).trans hruns
    · exact h.row_runsAt j job hjob
  · intro j job hjob
    simp only [HashMap.get_insert] at hjob
    split_ifs at hjob
    · cases hjob
      exact hnot
    · exact fun hmem => h.apart j job hjob (mem_cons_of_mem _ hmem)
  · intro id hid hpending
    by_cases hidd : id = d.id
    · exact ⟨jobId, _, HashMap.get_insert_self _ _ _, hidd.symm⟩
    · obtain ⟨j, job, hjob, hjobid⟩ := h.held id hid fun hmem =>
        (mem_cons.mp hmem).elim hidd hpending
      refine ⟨j, job, ?_, hjobid⟩
      simp only [HashMap.get_insert, if_neg (hne j job hjob).1]
      exact hjob

theorem JobsApart.scheduleOrDisable (h : JobsApart known (d.id :: pending) s)
    (hd : s.rows.get d.id = some d) (hfresh : s.jobs.get jobId = none) (hnot : d.id ∉ pending) :
    JobsApart known pending (s.scheduleOrDisable known d (some jobId)) := by
  rw [Scheduling.scheduleOrDisable]
  split
  · rename_i s' hok
    obtain ⟨schedule, jobId', hschedule, henabled, hadd, rfl⟩ := scheduleDiscovery_ok hok
    cases hadd
    exact h.addJob hd hschedule henabled hfresh hnot
  · have hd' : s.rows.get d.disable.id = some d := hd
    have hrow : (s.storageUpdate d.disable).rows.get d.id = some d.disable :=
      (get_rows_storageUpdate_of_get hd' _).trans (if_pos rfl)
    refine JobsApart.of_cons (h.of_rows (keyed_storageUpdate h.keyed _) rfl rfl ?_) ?_
    · intro id' hid'
      exact (get_rows_storageUpdate_of_get hd' id').trans (if_neg hid')
    · rw [runsAt_of_get hrow]
      exact RunType.runsAt_disable

theorem isScheduledEnabled_of_error {e : ScheduleError}
    (h : s.scheduleDiscovery known d (some jobId) = .error e) :
    d.runType.isScheduledEnabled = false := by
  rw [scheduleDiscovery] at h
  rw [RunType.isScheduledEnabled]
  cases hs : d.runType.schedule with
  | none => rfl
  | some schedule =>
    cases he : schedule.enabled with
    | false => exact he
    | true => simp [hs, he] at h

theorem JobsApart.reschedule
    (h : JobsApart known [] s) (hold : s.rows.get entity.id = some old)
    (hfresh : s.jobs.get jobId = none) :
    JobsApart known [] (s.reschedule known entity true (some jobId)) := by
  rw [Scheduling.reschedule]
  set t := (s.removeScheduledJob entity.id true).storageUpdate entity with ht
  have hstored : (s.removeScheduledJob entity.id true).rows.get entity.id = some old := by
    rw [rows_removeScheduledJob]
    exact hold
  have hrow : t.rows.get entity.id = some entity :=
    (get_rows_storageUpdate_of_get hstored _).trans (if_pos rfl)
  have hapart : JobsApart known [entity.id] t := by
    have hremoved := h.removeScheduledJob entity.id
    refine hremoved.of_rows (keyed_storageUpdate hremoved.keyed _) rfl rfl fun id' hid' => ?_
    exact (get_rows_storageUpdate_of_get hstored id').trans (if_neg hid')
  have hfresh' : t.jobs.get jobId = none := by
    by_contra hsome
    obtain ⟨job, hjob⟩ := ne_none_iff_exists'.mp hsome
    have hbefore : s.jobs.get jobId = some job := get_jobs_of_removeScheduledJob hjob
    simp [hfresh] at hbefore
  split
  · rename_i t' hok
    obtain ⟨schedule, jobId', hschedule, henabled, hadd, rfl⟩ := scheduleDiscovery_ok hok
    cases hadd
    exact hapart.addJob hrow hschedule henabled hfresh' not_mem_nil
  · rename_i e herror
    have hdisabled := isScheduledEnabled_of_error herror
    rw [if_neg (by rw [hdisabled]; exact Bool.false_ne_true)]
    refine hapart.of_cons ?_
    rw [runsAt_of_get hrow]
    exact RunType.runsAt_eq_none.mpr hdisabled

theorem get_jobs_scheduleOrDisable_of_ne {j : Uuid} (hne : j ≠ jobId)
    (hfree : s.jobs.get j = none) :
    (s.scheduleOrDisable known d (some jobId)).jobs.get j = none := by
  rw [Scheduling.scheduleOrDisable]
  split
  · rename_i s' hok
    obtain ⟨_, _, -, -, hadd, rfl⟩ := scheduleDiscovery_ok hok
    cases hadd
    simp only [HashMap.get_insert, if_neg hne]
    exact hfree
  · exact hfree

theorem JobsApart.scheduleVisits {rows : HashMap Uuid DiscoveryRow}
    (hrows : ∀ id d, rows.get id = some d → d.id = id) (visits : List (Uuid × Option Uuid))
    (hnodup : (visits.map (·.1)).Nodup) (hread : ∀ v ∈ visits, s.rows.get v.1 = rows.get v.1)
    (hadds : ∀ v ∈ visits, v.2.isSome = true) (hids : (visits.filterMap (·.2)).Nodup)
    (hfresh : ∀ j ∈ visits.filterMap (·.2), s.jobs.get j = none)
    (h : JobsApart known (visits.map (·.1)) s) :
    JobsApart known [] (scheduleVisits known rows s visits) := by
  induction visits generalizing s with
  | nil => exact h
  | cons visit visits ih =>
    obtain ⟨id, add⟩ := visit
    obtain ⟨jobId, rfl⟩ := isSome_iff_exists.mp (hadds _ mem_cons_self)
    obtain ⟨hfreshId, hnodup⟩ := nodup_cons.mp hnodup
    have hfilter : List.filterMap (·.2) ((id, some jobId) :: visits) =
        jobId :: visits.filterMap (·.2) := filterMap_cons_some rfl
    rw [hfilter] at hids hfresh
    obtain ⟨hfreshJob, hids⟩ := nodup_cons.mp hids
    have hhead := hread _ mem_cons_self
    have htail : ∀ v ∈ visits, s.rows.get v.1 = rows.get v.1 :=
      fun v hv => hread v (mem_cons_of_mem _ hv)
    have hadds' : ∀ v ∈ visits, v.2.isSome = true := fun v hv => hadds v (mem_cons_of_mem _ hv)
    cases hd : rows.get id with
    | none =>
      rw [scheduleVisits_cons_none hd]
      have hnone : s.runsAt known id = none := by
        rw [runsAt, show s.rows.get id = none from hhead.trans hd]
        rfl
      refine ih hnodup htail hadds' hids ?_ (JobsApart.of_cons h hnone)
      exact fun j hj => hfresh j (mem_cons_of_mem _ hj)
    | some d =>
      rw [scheduleVisits_cons_some hd]
      have hdid : d.id = id := hrows id d hd
      have hstored : s.rows.get d.id = some d := by
        rw [hdid]
        exact hhead.trans hd
      have hapart : JobsApart known (d.id :: visits.map (·.1)) s := by
        rw [hdid]
        exact h
      refine ih hnodup (get_rows_of_visited hrows hd hfreshId htail) hadds' hids ?_
        (hapart.scheduleOrDisable hstored (hfresh jobId mem_cons_self)
          (by rw [hdid]; exact hfreshId))
      intro j hj
      refine get_jobs_scheduleOrDisable_of_ne ?_ (hfresh j (mem_cons_of_mem _ hj))
      exact fun hjj => hfreshJob (hjj ▸ hj)

theorem runsAt_eq_none_of_get (h : s.rows.get id = none) : s.runsAt known id = none := by
  rw [runsAt, h]
  rfl

theorem JobsApart.insert (h : JobsApart known [] s) (hnone : s.rows.get d.id = none) :
    JobsApart known [d.id] { s with rows := s.rows.insert d.id d } := by
  refine (h.cons_of_runsAt (runsAt_eq_none_of_get hnone)).of_rows (keyed_insert h.keyed d)
    rfl rfl fun id' hid' => ?_
  simp only [HashMap.get_insert, if_neg hid']

theorem JobsApart.createDiscovery (h : JobsApart known [] s)
    (hfresh : s.jobs.get jobId = none) :
    JobsApart known [] (s.createDiscovery known d newId now (some jobId)) := by
  obtain heq | ⟨created, hnone, ⟨heq, hschedule⟩ | heq⟩ :=
    createDiscovery_eq known s d newId now (some jobId)
  · rw [heq]
    exact h
  · rw [heq]
    refine (h.insert hnone).of_cons ?_
    rw [runsAt_of_get (HashMap.get_insert_self _ _ _)]
    simp [RunType.runsAt, hschedule]
  · rw [heq]
    exact (h.insert hnone).scheduleOrDisable (HashMap.get_insert_self _ _ _) hfresh
      not_mem_nil

theorem JobsApart.deleteDiscovery (h : JobsApart known [] s) (id : Uuid) :
    JobsApart known [] (s.deleteDiscovery id true) := by
  have hgone : ∀ t : Scheduling, t.rows = s.rows.remove id → t.runsAt known id = none :=
    fun t ht => runsAt_eq_none_of_get (by rw [ht]; exact HashMap.get_remove_self _ _)
  have hothers : ∀ id', id' ≠ id → (s.rows.remove id).get id' = s.rows.get id' :=
    fun id' hid' => by rw [HashMap.get_remove, if_neg hid']
  obtain heq | ⟨d, hd, ⟨hschedule, heq⟩ | ⟨-, heq⟩⟩ := deleteDiscovery_eq s id true
  · rw [heq]
    exact h
  · rw [heq]
    have hnone : s.runsAt known id = none := by
      rw [runsAt_of_get hd]
      simp [RunType.runsAt, hschedule]
    exact ((h.cons_of_runsAt hnone).of_rows (keyed_remove h.keyed id) rfl rfl hothers).of_cons
      (hgone _ rfl)
  · rw [heq]
    have hkeyed : Keyed { s.removeScheduledJob id true with rows := s.rows.remove id } :=
      keyed_of_rows (keyed_remove h.keyed id) rfl
    refine ((h.removeScheduledJob id).of_rows hkeyed rfl rfl fun id' hid' => ?_).of_cons
      (hgone _ rfl)
    rw [rows_removeScheduledJob]
    exact hothers id' hid'

theorem JobsApart.of_no_jobs (hkeyed : s.Keyed) (hjobs : ∀ j, s.jobs.get j = none)
    (hjobIds : ∀ id, s.jobIds.get id = none)
    (hpending : ∀ id, (s.runsAt known id).isSome = true → id ∈ pending) :
    JobsApart known pending s := by
  have hnot : ∀ {p : Prop} {j : Uuid} {job : Job}, s.jobs.get j = some job → p := by
    intro p j job hjob
    rw [hjobs] at hjob
    exact absurd hjob nofun
  refine ⟨hkeyed, fun id j hj => ?_, fun _ _ => hnot, fun _ _ => hnot, fun _ _ => hnot,
    fun _ _ => hnot, fun id hid hmem => absurd (hpending id hid) hmem⟩
  rw [hjobIds] at hj
  exact absurd hj nofun

theorem JobsApart.restart (h : JobsApart known [] s) {visits : List (Uuid × Option Uuid)}
    (hvisits : (SchedulingOp.restart visits).possible s = true)
    (hadds : ∀ v ∈ visits, v.2.isSome = true) :
    JobsApart known [] (s.startScheduler known visits) := by
  obtain ⟨hids, hnodup, hkeys⟩ := nodup_visits hvisits
  rw [startScheduler_eq]
  refine JobsApart.scheduleVisits h.keyed visits hnodup (fun _ _ => rfl) hadds hids
    (fun _ _ => rfl) (.of_no_jobs h.keyed (fun _ => rfl) (fun _ => rfl) fun id hid => ?_)
  -- every row that is to run is visited
  obtain ⟨d, hd, henabled⟩ := (isSome_runsAt known _ id).mp hid
  rw [← List.mem_toFinset, hkeys, HashMap.mem_keys]
  refine ⟨d, ?_⟩
  rw [scheduledDiscoveries, HashMap.get_retain, show s.rows.get id = some d from hd]
  simp [Option.filter, henabled]

theorem JobsApart.fire (h : JobsApart known [] s) (jobId : Uuid) (env : FireEnv) :
    JobsApart known [] (s.fire jobId env) := by
  have hpossible : (SchedulingOp.fire jobId env).possible s = true := rfl
  have hkeyed : (s.fire jobId env).Keyed := keyed_apply known h.keyed hpossible
  cases hpassed : s.passed jobId env with
  | none =>
    rw [fire_of_passed_none hpassed]
    exact h
  | some d =>
    obtain ⟨job, hjob, rfl⟩ := get_jobs_of_passed hpassed
    obtain ⟨hjobs, hjobIds, hrows | ⟨t, u, hrows⟩⟩ := fire_spec hpassed
    · exact h.of_frame hkeyed hjobs hjobIds fun id _ => by rw [runsAt, runsAt, hrows]
    · refine h.of_frame hkeyed hjobs hjobIds fun id _ => ?_
      rw [runsAt, runsAt, hrows]
      split_ifs with hid
      · have hruns := h.row_runsAt jobId job hjob
        rw [← hid, runsAt] at hruns
        cases hrow : s.rows.get id with
        | none => rfl
        | some row =>
          rw [hrow] at hruns
          rw [map_some, bind_some, hruns, ← h.copy_runsAt jobId job hjob]
          exact RunType.runsAt_setLastRun t
      · rfl

theorem JobsApart.storageUpdate (h : JobsApart known pending s)
    (hold : s.rows.get d.id = some old)
    (hruns : d.runType.runsAt known = old.runType.runsAt known) :
    JobsApart known pending (s.storageUpdate d) := by
  refine h.of_frame (keyed_storageUpdate h.keyed d) rfl rfl fun id _ => ?_
  rw [runsAt, runsAt, get_rows_storageUpdate_of_get hold]
  split_ifs with hid
  · rw [hid, hold]
    exact hruns
  · rfl

theorem JobsApart.startSession (h : JobsApart known [] s) (hd : s.rows.get d.id = some d)
    (env : StartEnv) : JobsApart known [] (s.startSession d env).1 := by
  obtain heq | ⟨hrows, hjobs, hjobIds⟩ := startSession_spec s d env
  · rw [heq]
    exact h
  · have hstored : s.rows.get (d.stamped env.lastRun env.updatedAt).id = some d := hd
    have hupdated := h.storageUpdate hstored (RunType.runsAt_setLastRun env.lastRun)
    refine hupdated.of_frame (keyed_of_rows hupdated.keyed hrows) hjobs hjobIds fun id _ => ?_
    rw [runsAt, runsAt, hrows]

theorem JobsApart.finalize (h : JobsApart known [] s) (id : Uuid) (env : FinalizeEnv) :
    JobsApart known [] (s.finalizeSuccessfulScan id env) := by
  rw [finalizeSuccessfulScan]
  split
  · exact h
  · rename_i parent hparent
    have hid : parent.id = id := h.keyed id parent hparent
    rw [← hid] at hparent
    simp only
    split_ifs
    · exact h.storageUpdate (d := { parent.applySuccessfulScan with
        integrationTargets := _, updatedAt := env.now }) hparent rfl
    · exact h.storageUpdate (d := { parent.applySuccessfulScan with updatedAt := env.now })
        hparent rfl

def Reliable : SchedulingOp → Prop
  | .createDiscovery _ _ _ add => add.isSome = true
  | .update _ _ removeOk add => removeOk = true ∧ add.isSome = true
  | .deleteDiscovery _ removeOk => removeOk = true
  | .restart visits => ∀ v ∈ visits, v.2.isSome = true
  | _ => True

def crossesSchedule (new current : RunType) : Bool :=
  (new.isScheduledEnabled && current.schedule.isNone) ||
    (current.isScheduledEnabled && new.schedule.isNone)

def KeepsSchedules (known : String → Bool) (s : Scheduling) : SchedulingOp → Prop
  | .createHandler d newId _ => d.runType.isScheduledEnabled = true →
      createRefused d = true ∨
        s.rows.contains (if d.id = Uuid.nil then newId else d.id) = true
  | .update id entity _ _ => ∀ d, s.rows.get id = some d →
      crossesSchedule entity.runType d.runType = true →
      updateRefused entity d = true ∨ validateTimezone known entity.runType = false
  | .deleteHandler id => ∀ d, s.rows.get id = some d → d.runType.isScheduledEnabled = true →
      s.discoverySessions.contains id = true
  | _ => True

theorem runsAt_eq_of_not_crosses
    (hneeds : needsReschedule new current = false)
    (hcrosses : crossesSchedule new current = false) :
    new.runsAt known = current.runsAt known := by
  obtain ⟨hnew, hcurrent⟩ := Bool.or_eq_false_iff.mp hcrosses
  rw [needsReschedule] at hneeds
  cases hs : new.schedule with
  | none =>
    rw [hs, isNone_none, Bool.and_true] at hcurrent
    rw [RunType.runsAt_eq_none.mpr hcurrent, RunType.runsAt, hs]
    rfl
  | some p =>
    cases hs' : current.schedule with
    | none =>
      rw [hs', isNone_none, Bool.and_true] at hnew
      rw [RunType.runsAt_eq_none.mpr hnew, RunType.runsAt, hs']
      rfl
    | some p' =>
      simp only [hs, hs', Bool.or_eq_false_iff, bne_eq_false_iff_eq] at hneeds
      obtain ⟨⟨hcron, htz⟩, henabled⟩ := hneeds
      have hparts : p' = p := by
        cases p
        cases p'
        simp_all
      rw [RunType.runsAt, RunType.runsAt, hs, hs', hparts]

theorem needsReschedule_of_crosses
    (h : crossesSchedule new current = true) :
    needsReschedule new current = false ∧
      ¬(new.isScheduledEnabled = true ↔ current.isScheduledEnabled = true) := by
  obtain hc | hc := Bool.or_eq_true_iff.mp h
  · obtain ⟨henabled, hnone⟩ := Bool.and_eq_true_iff.mp hc
    rw [isNone_iff_eq_none] at hnone
    rw [needsReschedule, RunType.isScheduledEnabled.eq_def current, hnone]
    refine ⟨?_, fun hiff => Bool.false_ne_true (hiff.mp henabled)⟩
    cases new.schedule <;> rfl
  · obtain ⟨henabled, hnone⟩ := Bool.and_eq_true_iff.mp hc
    rw [isNone_iff_eq_none] at hnone
    rw [needsReschedule, RunType.isScheduledEnabled.eq_def new, hnone]
    exact ⟨rfl, fun hiff => Bool.false_ne_true (hiff.mpr henabled)⟩

theorem createHandler_of_not_refused (now : Timestamp)
    (h : ¬(createRefused d = true ∨
      s.rows.contains (if d.id = Uuid.nil then newId else d.id) = true)) :
    ∃ created : DiscoveryRow, created.runType = d.runType ∧ s.rows.get created.id = none ∧
      s.createHandler d newId now = { s with rows := s.rows.insert created.id created } := by
  obtain ⟨hrefused, hmem⟩ := not_or.mp h
  rw [createHandler]
  set created : DiscoveryRow := if d.id = Uuid.nil then d.new newId now else d with hcreated
  have hid : created.id = if d.id = Uuid.nil then newId else d.id := by
    rw [hcreated]
    split_ifs <;> rfl
  have hnot : s.rows.contains created.id = false := by
    rw [hid]
    exact Bool.eq_false_iff.mpr hmem
  refine ⟨created, ?_, HashMap.contains_eq_false.mp hnot, ?_⟩
  · rw [hcreated]
    split_ifs <;> rfl
  · rw [if_neg]
    rw [Bool.or_eq_true, hnot]
    exact fun h => h.elim hrefused Bool.false_ne_true

theorem JobsApart.createHandler (h : JobsApart known [] s)
    (hok : KeepsSchedules known s (.createHandler d newId now)) :
    JobsApart known [] (s.createHandler d newId now) := by
  by_cases hrefused : createRefused d = true ∨
      s.rows.contains (if d.id = Uuid.nil then newId else d.id) = true
  · have heq : s.createHandler d newId now = s := by
      rw [Scheduling.createHandler, if_pos]
      rw [Bool.or_eq_true]
      refine hrefused.imp id fun hmem => ?_
      rw [← hmem]
      split_ifs <;> rfl
    rw [heq]
    exact h
  · obtain ⟨created, hrunType, hnone, heq⟩ := createHandler_of_not_refused now hrefused
    rw [heq]
    refine (h.insert hnone).of_cons ?_
    rw [runsAt_of_get (HashMap.get_insert_self _ _ _), hrunType]
    exact RunType.runsAt_eq_none.mpr (Bool.eq_false_iff.mpr fun he => hrefused (hok he))

theorem updateHandler_of_not_refused (hs : s.Keyed) {existing : DiscoveryRow}
    (removeOk : Bool) (add : Option Uuid) (hexisting : s.rows.get id = some existing)
    (h : ¬(updateRefused entity existing = true ∨ validateTimezone known entity.runType = false)) :
    ∃ row : DiscoveryRow, row.id = id ∧ row.runType = entity.runType ∧
      s.updateHandler known id entity removeOk add =
        if needsReschedule entity.runType existing.runType then s.reschedule known row removeOk add
        else s.storageUpdate row := by
  obtain ⟨hrefused, hvalid⟩ := not_or.mp h
  have hid : existing.id = id := hs id existing hexisting
  refine ⟨{ entity with
    id := existing.id, createdAt := existing.createdAt, scanCount := existing.scanCount },
    hid, rfl, ?_⟩
  rw [updateHandler, hexisting]
  simp only
  have hknown : validateTimezone known entity.runType = true := Bool.eq_true_of_not_eq_false hvalid
  rw [if_neg hrefused, update, hid]
  simp only [hexisting, hknown, Bool.not_true, Bool.false_eq_true, if_false]

theorem updateHandler_of_refused {removeOk : Bool} {add : Option Uuid}
    (h : ∀ existing, s.rows.get id = some existing →
      updateRefused entity existing = true ∨ validateTimezone known entity.runType = false) :
    s.updateHandler known id entity removeOk add = s := by
  rw [updateHandler]
  cases hexisting : s.rows.get id with
  | none => rfl
  | some existing =>
    simp only
    split_ifs with hrefused
    · rfl
    · have hvalid := (h existing hexisting).resolve_left hrefused
      rw [update, if_pos (by rw [hvalid]; rfl)]

theorem JobsApart.updateHandler (h : JobsApart known [] s)
    (hfresh : s.jobs.get jobId = none)
    (hok : KeepsSchedules known s (.update id entity true (some jobId))) :
    JobsApart known [] (s.updateHandler known id entity true (some jobId)) := by
  by_cases hrefused : ∀ existing, s.rows.get id = some existing →
      updateRefused entity existing = true ∨ validateTimezone known entity.runType = false
  · rw [updateHandler_of_refused hrefused]
    exact h
  · simp only [not_forall] at hrefused
    obtain ⟨existing, hexisting, hnot⟩ := hrefused
    obtain ⟨row, hid, hrunType, heq⟩ :=
      updateHandler_of_not_refused h.keyed true (some jobId) hexisting hnot
    have hstored : s.rows.get row.id = some existing := by
      rw [hid]
      exact hexisting
    rw [heq]
    split_ifs with hneeds
    · exact h.reschedule hstored hfresh
    · refine h.storageUpdate hstored ?_
      rw [hrunType]
      refine runsAt_eq_of_not_crosses (Bool.eq_false_iff.mpr hneeds) ?_
      exact Bool.eq_false_iff.mpr fun hcrosses => hnot (hok existing hexisting hcrosses)

theorem JobsApart.deleteHandler (h : JobsApart known [] s)
    (hok : KeepsSchedules known s (.deleteHandler id)) :
    JobsApart known [] (s.deleteHandler id) := by
  rw [Scheduling.deleteHandler]
  split_ifs with hsession
  · exact h
  · have hnone : s.runsAt known id = none := by
      rw [← not_isSome_iff_eq_none, isSome_runsAt]
      rintro ⟨d, hd, henabled⟩
      exact hsession (hok d hd henabled)
    refine ((h.cons_of_runsAt hnone).of_rows (keyed_remove h.keyed id) rfl rfl ?_).of_cons ?_
    · exact fun id' hid' => by rw [HashMap.get_remove, if_neg hid']
    · exact runsAt_eq_none_of_get (HashMap.get_remove_self _ _)

theorem fresh_of_possible
    (h : (some jobId).all (fun jobId => !s.jobs.contains jobId) = true) :
    s.jobs.get jobId = none := by
  rw [all_some, Bool.not_eq_true'] at h
  exact HashMap.contains_eq_false.mp h

theorem jobsApart_apply (h : JobsApart known [] s) (hreliable : Reliable op)
    (hpossible : op.possible s = true) (hok : KeepsSchedules known s op) :
    JobsApart known [] (op.apply known s) := by
  cases op with
  | createHandler d newId now => exact h.createHandler hok
  | createDiscovery d newId now add =>
    obtain ⟨jobId, rfl⟩ := isSome_iff_exists.mp hreliable
    exact h.createDiscovery (fresh_of_possible hpossible)
  | update id entity removeOk add =>
    obtain ⟨hremove, hadd⟩ := hreliable
    obtain ⟨jobId, rfl⟩ := isSome_iff_exists.mp hadd
    subst hremove
    exact h.updateHandler (fresh_of_possible hpossible) hok
  | deleteHandler id => exact h.deleteHandler hok
  | deleteDiscovery id removeOk =>
    have hremove : removeOk = true := hreliable
    subst hremove
    exact h.deleteDiscovery id
  | restart visits => exact h.restart hpossible hreliable
  | fire jobId env => exact h.fire jobId env
  | start id env =>
    change JobsApart known [] (s.startHandler id env)
    rw [startHandler]
    split
    · exact h
    · rename_i d hd
      have hid : d.id = id := h.keyed id d hd
      exact h.startSession (by rw [hid]; exact hd) env
  | finalize id env => exact h.finalize id env
  | sessionEnded id => exact h.of_frame h.keyed rfl rfl fun _ _ => rfl

/-- A step that does not keep the schedules leaves an enabled row without a job, or a job without
an enabled row. -/
theorem keepsSchedules_of_holdsEnabled (h : JobsApart known [] s)
    (h' : HoldsEnabled known (op.apply known s)) : KeepsSchedules known s op := by
  have hholds := HoldsEnabled.of_jobsApart h
  cases op with
  | createHandler d newId now =>
    intro henabled
    by_contra hrefused
    obtain ⟨created, hrunType, hnone, heq⟩ := createHandler_of_not_refused now hrefused
    change HoldsEnabled known (s.createHandler d newId now) at h'
    rw [heq] at h'
    have hjob : s.HasJob created.id :=
      (h'.live_iff created.id).mpr ⟨created, HashMap.get_insert_self _ _ _, hrunType ▸ henabled⟩
    obtain ⟨row, hrow, -⟩ := (hholds.live_iff created.id).mp hjob
    simp [hnone] at hrow
  | update id entity removeOk add =>
    intro existing hexisting hcrosses
    by_contra hnot
    obtain ⟨row, hid, hrunType, heq⟩ :=
      updateHandler_of_not_refused h.keyed removeOk add hexisting hnot
    change HoldsEnabled known (s.updateHandler known id entity removeOk add) at h'
    obtain ⟨hneeds, hdiffer⟩ := needsReschedule_of_crosses hcrosses
    rw [heq, if_neg (by rw [hneeds]; exact Bool.false_ne_true)] at h'
    have hstored : s.rows.get row.id = some existing := by
      rw [hid]
      exact hexisting
    have hrow : (s.storageUpdate row).rows.get id = some row := by
      rw [get_rows_storageUpdate_of_get hstored, if_pos hid.symm]
    -- the row changes and the jobs do not
    have hiff : row.runType.isScheduledEnabled = true ↔
        existing.runType.isScheduledEnabled = true := by
      have hbefore := hholds.live_iff id
      have hafter := h'.live_iff id
      rw [hexisting] at hbefore
      rw [hrow] at hafter
      have hsame : (s.storageUpdate row).HasJob id ↔ s.HasJob id := Iff.rfl
      simpa using hafter.symm.trans (hsame.trans hbefore)
    rw [hrunType] at hiff
    exact hdiffer hiff
  | deleteHandler id =>
    intro d hd henabled
    by_contra hsession
    change HoldsEnabled known (s.deleteHandler id) at h'
    rw [deleteHandler, if_neg hsession] at h'
    have hjob : s.HasJob id := (hholds.live_iff id).mpr ⟨d, hd, henabled⟩
    obtain ⟨row, hrow, -⟩ := (h'.live_iff id).mp hjob
    simp at hrow
  | _ => trivial

/-- In every run with a scheduler that does what it is asked, the scheduler holds exactly the
enabled schedules in every state if and only if every step keeps the schedules. -/
theorem holdsEnabled_iff_keepsSchedules (known : String → Bool) {ops : List SchedulingOp}
    {s : Scheduling} (hreliable : ∀ op ∈ ops, Reliable op)
    (hrun : (scheduling known).run (scheduling known).init ops = some s) :
    (scheduling known).Always (HoldsEnabled known) (scheduling known).init ops ↔
      (scheduling known).Guarded (KeepsSchedules known) (scheduling known).init ops := by
  have hstep : ∀ s op s', (scheduling known).step s op = some s' →
      op.possible s = true ∧ s' = op.apply known s := by
    intro s op s' h
    simp only [scheduling, ite_none_right_eq_some, some.injEq] at h
    exact ⟨h.1, h.2.symm⟩
  have hinit : JobsApart known [] (scheduling known).init := by
    refine .of_no_jobs (fun id d hd => ?_) (fun _ => rfl) (fun _ => rfl) fun id hid => ?_
    · cases (show none = some d from hd)
    · exact absurd hid Bool.false_ne_true
  refine Lts.always_iff_guarded_of_invariant hinit (fun s => HoldsEnabled.of_jobsApart) ?_ ?_
    hreliable hrun
  · intro s op s' hinv hgood h hok
    obtain ⟨hpossible, rfl⟩ := hstep s op s' h
    exact jobsApart_apply hinv hgood hpossible hok
  · intro s op s' hinv _ h hP
    obtain ⟨-, rfl⟩ := hstep s op s' h
    exact keepsSchedules_of_holdsEnabled hinv hP

section Runs

private def everyNight : DiscoveryRow where
  id := 1
  daemonId := 2
  networkId := 3
  discoveryType := .unified 4 none {}
  createdAt := 0
  updatedAt := 0
  name := "nightly"
  runType := .scheduled "0 0 2 * * *" none true none

private def everyNightOps : List SchedulingOp :=
  [.createDiscovery everyNight 0 0 (some 10),
    .update 1 { everyNight with runType := .scheduled "0 0 3 * * *" none true none } true
      (some 11),
    .restart [(1, some 12)]]

theorem holdsEnabled_iff_keepsSchedules_everyNight :
    (∃ s, (scheduling fun _ => true).run (scheduling fun _ => true).init everyNightOps = some s) ∧
      (scheduling fun _ => true).Always (HoldsEnabled fun _ => true)
        (scheduling fun _ => true).init everyNightOps := by
  obtain ⟨s, hrun⟩ : ∃ s, (scheduling fun _ => true).run (scheduling fun _ => true).init
      everyNightOps = some s := isSome_iff_exists.mp (by decide +kernel)
  have hreliable : ∀ op ∈ everyNightOps, Reliable op := by
    intro op hop
    simp only [everyNightOps, mem_cons, not_mem_nil, or_false] at hop
    rcases hop with rfl | rfl | rfl
    · rfl
    · exact ⟨rfl, rfl⟩
    · simp [Reliable]
  have hkeeps : (scheduling fun _ => true).Guarded (KeepsSchedules fun _ => true)
      (scheduling fun _ => true).init everyNightOps := by
    refine ⟨trivial, fun t ht => ⟨fun d hd hcrosses => ?_,
      fun u _ => ⟨trivial, fun _ _ => trivial⟩⟩⟩
    -- both rows are scheduled ones
    have hrow : (t.rows.get 1).map (·.runType.schedule.isNone) = some false := by
      cases ht
      decide +kernel
    rw [hd, map_some, some.injEq] at hrow
    rw [crossesSchedule, hrow] at hcrosses
    exact absurd hcrosses (by simp [RunType.schedule])
  exact ⟨⟨s, hrun⟩, (holdsEnabled_iff_keepsSchedules _ hreliable hrun).mpr hkeeps⟩

/-- A discovery created over the API is enabled and has no job. -/
theorem created_over_api_has_no_job :
    ∃ s, (scheduling fun _ => true).run (scheduling fun _ => true).init
        [.createHandler everyNight 0 0] = some s ∧
      (s.rows.get 1).any (·.runType.isScheduledEnabled) = true ∧
      ¬HoldsEnabled (fun _ => true) s := by
  refine ⟨_, rfl, by decide +kernel, fun h => ?_⟩
  have hjob := (h.live_iff 1).mpr ⟨everyNight, by decide +kernel, by decide +kernel⟩
  obtain ⟨j, job, hjob, -⟩ := hjob
  exact absurd (show none = some job from hjob) nofun

end Runs

end Scheduling
end Scanopy
