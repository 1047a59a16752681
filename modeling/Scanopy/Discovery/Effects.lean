import Scanopy.Discovery.Service

/-! What each section of the service does to each part of the state. Later modules use these
equations and do not unfold the sections. -/

namespace Scanopy
open List Option SessionMap
namespace DiscoveryService
variable (s : DiscoveryService)
variable {d id x : Uuid}

theorem queue_enqueue (d id d' : Uuid) :
    (s.enqueue d id).queue d' = if d' = d then s.queue d ++ [id] else s.queue d' := by
  simp only [queue, enqueue_daemonSessions, HashMap.get_insert]
  split_ifs <;> rfl

theorem queue_dequeue (d id d' : Uuid) :
    (s.dequeue d id).queue d' = if d' = d then (s.queue d).filter (· ≠ id) else s.queue d' := by
  unfold dequeue
  cases h : s.daemonSessions.get d with
  | none =>
    split_ifs with hd
    · subst hd
      simp only [queue, h, getD_none, filter_nil]
    · rfl
  | some q =>
    simp only [queue, HashMap.get_insert]
    split_ifs with hd
    · rw [h]
      rfl
    · rfl

@[simp] theorem dequeue_sessions (d id : Uuid) : (s.dequeue d id).sessions = s.sessions := by
  unfold dequeue; split <;> rfl

@[simp] theorem dequeue_frame (d id : Uuid) :
    (s.dequeue d id).discoverySessions = s.discoverySessions ∧
    (s.dequeue d id).daemonPullCancellations = s.daemonPullCancellations ∧
    (s.dequeue d id).runningSnapshots = s.runningSnapshots ∧
    (s.dequeue d id).historical = s.historical := by
  unfold dequeue; split <;> exact ⟨rfl, rfl, rfl, rfl⟩

theorem queue_congr {s t : DiscoveryService} (h : t.daemonSessions = s.daemonSessions) (d : Uuid) :
    t.queue d = s.queue d := by rw [queue, queue, h]

theorem nextInQueue_congr {s t : DiscoveryService} (h : t.daemonSessions = s.daemonSessions)
    (d id : Uuid) : t.nextInQueue d id = s.nextInQueue d id := by
  rw [nextInQueue, nextInQueue, queue_congr h]

theorem nextInQueue_eq_some {s : DiscoveryService}
    (h : s.nextInQueue d id = some x) : x ∈ s.queue d ∧ x ≠ id := by
  have hx := mem_of_head? h
  rw [mem_filter, decide_eq_true_eq] at hx
  exact hx

theorem nextSession_eq_some {s : DiscoveryService} {p : DiscoveryUpdatePayload}
    (hx : s.nextInQueue d id = some x) (hp : s.sessions.get x = some p) :
    s.nextSession d id = some p := by
  rw [nextSession, hx, bind_some, hp]

/-- The sessions of `t` are all that may differ. -/
abbrev ChangesSessions (s t : DiscoveryService) : Prop :=
  t.daemonSessions = s.daemonSessions ∧ t.discoverySessions = s.discoverySessions ∧
    t.daemonPullCancellations = s.daemonPullCancellations ∧
    t.runningSnapshots = s.runningSnapshots ∧ t.historical = s.historical

theorem ChangesSessions.trans {s t u : DiscoveryService} (h : s.ChangesSessions t)
    (h' : t.ChangesSessions u) : s.ChangesSessions u :=
  ⟨h'.1.trans h.1, h'.2.1.trans h.2.1, h'.2.2.1.trans h.2.2.1, h'.2.2.2.1.trans h.2.2.2.1,
    h'.2.2.2.2.trans h.2.2.2.2⟩

section Promote
variable (d : Uuid) (now : Timestamp) (eligible : DiscoveryUpdatePayload → Bool)

@[simp] theorem promoteNext_frame : s.ChangesSessions (s.promoteNext d now eligible) := by
  unfold promoteNext
  split <;> [split_ifs <;> exact ⟨rfl, rfl, rfl, rfl, rfl⟩; exact ⟨rfl, rfl, rfl, rfl, rfl⟩]

theorem get_promoteNext (x : Uuid) :
    (s.promoteNext d now eligible).sessions.get x =
      if (s.queue d).head? = some x ∧ (s.sessions.get x).any eligible then
        (s.sessions.get x).map (·.withPhase .pending) else s.sessions.get x := by
  unfold promoteNext
  cases hh : (s.queue d).head? with
  | none => simp
  | some y =>
    rw [bind_some]
    cases hy : s.sessions.get y with
    | none =>
      split_ifs with hx
      · cases hx.1
        rw [hy]
        rfl
      · rfl
    | some next =>
      have hid := get_sessionId hy
      by_cases he : eligible next = true
      · simp only [he, if_true, hid, get_setPhase, some.injEq]
        by_cases hx : x = y
        · subst hx
          simp [hy, he]
        · rw [if_neg hx, if_neg fun h => hx h.1.symm]
      · simp only [he, Bool.false_eq_true, if_false, some.injEq]
        rw [if_neg]
        rintro ⟨rfl, ha⟩
        simp [hy, he] at ha

@[simp] theorem leaveQueue_frame (id : Uuid) :
    (s.leaveQueue d id now eligible).discoverySessions = s.discoverySessions ∧
    (s.leaveQueue d id now eligible).daemonPullCancellations = s.daemonPullCancellations ∧
    (s.leaveQueue d id now eligible).runningSnapshots = s.runningSnapshots ∧
    (s.leaveQueue d id now eligible).historical = s.historical := by
  simp [leaveQueue]

theorem queue_leaveQueue (id d' : Uuid) :
    (s.leaveQueue d id now eligible).queue d' =
      if d' = d then (s.queue d).filter (· ≠ id) else s.queue d' := by
  rw [leaveQueue, queue_congr (promoteNext_frame ..).1, queue_dequeue]

theorem get_leaveQueue (id x : Uuid) :
    (s.leaveQueue d id now eligible).sessions.get x =
      if s.nextInQueue d id = some x ∧ (s.sessions.get x).any eligible then
        (s.sessions.get x).map (·.withPhase .pending) else s.sessions.get x := by
  rw [leaveQueue, get_promoteNext, queue_dequeue, if_pos rfl, dequeue_sessions]
  rfl

theorem get_leaveQueue_true (id x : Uuid) :
    (s.leaveQueue d id now fun _ => true).sessions.get x = if s.nextInQueue d id = some x then
        (s.sessions.get x).map (·.withPhase .pending) else s.sessions.get x := by
  rw [get_leaveQueue]
  cases hg : s.sessions.get x <;> simp

end Promote

theorem get_discoverySessions_forgetDiscovery (id d : Uuid) :
    (s.forgetDiscovery id).discoverySessions.get d =
      (s.discoverySessions.get d).filter (· ≠ id) := by
  rw [forgetDiscovery_discoverySessions, HashMap.get_retain]

section Historical
variable (p : DiscoveryUpdatePayload) (now : Timestamp) (name : Option String) (db : Storage)

@[simp] theorem recordHistorical_sessions :
    (s.recordHistorical p now name db).sessions = s.sessions := by
  unfold recordHistorical; split_ifs <;> rfl

@[simp] theorem recordHistorical_daemonSessions :
    (s.recordHistorical p now name db).daemonSessions = s.daemonSessions := by
  unfold recordHistorical; split_ifs <;> rfl

@[simp] theorem recordHistorical_frame :
    (s.recordHistorical p now name db).discoverySessions = s.discoverySessions ∧
    (s.recordHistorical p now name db).daemonPullCancellations = s.daemonPullCancellations ∧
    (s.recordHistorical p now name db).runningSnapshots = s.runningSnapshots := by
  unfold recordHistorical; split_ifs <;> exact ⟨rfl, rfl, rfl⟩

def rows (id : Uuid) : ℕ := s.historical.countP (·.results.sessionId = id)

theorem rows_recordHistorical (id : Uuid) :
    (s.recordHistorical p now name db).rows id =
      s.rows id + if id = p.sessionId ∧ db.createOk p.sessionId then 1 else 0 := by
  unfold recordHistorical rows
  split_ifs with hok hid hid
  · simp [countP_append, historicalDiscovery, hid.1]
  · have : p.sessionId ≠ id := fun h => hid ⟨h.symm, hok⟩
    simp [countP_append, historicalDiscovery, this]
  · exact absurd hid.2 hok
  · rfl

theorem rows_congr {s t : DiscoveryService} (h : t.historical = s.historical) (id : Uuid) :
    t.rows id = s.rows id := by rw [rows, rows, h]

end Historical

section Update
variable (u : DiscoveryUpdatePayload) (now : Timestamp) (db : Storage)

@[simp] theorem autoCreate_sessions : (s.autoCreate u).sessions = s.sessions.put u := by
  unfold autoCreate; cases u.discoveryId <;> rfl

@[simp] theorem autoCreate_daemonSessions :
    (s.autoCreate u).daemonSessions = (s.enqueue u.daemonId u.sessionId).daemonSessions := by
  unfold autoCreate; cases u.discoveryId <;> rfl

@[simp] theorem autoCreate_frame :
    (s.autoCreate u).daemonPullCancellations = s.daemonPullCancellations ∧
    (s.autoCreate u).runningSnapshots = s.runningSnapshots ∧
    (s.autoCreate u).historical = s.historical := by
  unfold autoCreate; cases u.discoveryId <;> exact ⟨rfl, rfl, rfl⟩

theorem get_discoverySessions_autoCreate (d : Uuid) :
    (s.autoCreate u).discoverySessions.get d =
      if u.discoveryId = some d then some u.sessionId else s.discoverySessions.get d := by
  unfold autoCreate
  cases h : u.discoveryId with
  | none => rfl
  | some d' =>
    simp only [storeSession_discoverySessions, mapDiscovery_discoverySessions, HashMap.get_insert,
      some.injEq, eq_comm (a := d')]
    rfl

/-- The state in which an update that is not ignored is applied. -/
def received : DiscoveryService :=
  if (s.sessions.get u.sessionId).isNone then (s.touch u.sessionId now).autoCreate u
  else s.touch u.sessionId now

theorem updateSession_of_ignores (h : s.ignoresUpdate u = true) :
    s.updateSession u now db = s.touch u.sessionId now := by
  simp only [updateSession, h, if_true]

theorem updateSession_of_not_ignores (h : s.ignoresUpdate u = false) :
    s.updateSession u now db = (s.received u now).applyUpdate u now db := by
  simp only [updateSession, received, h, Bool.false_eq_true, if_false]
  split_ifs <;> rfl

theorem applyUpdate_of_not_terminal (h : u.phase.isTerminal = false) :
    s.applyUpdate u now db = s.storeSession u := by
  simp only [applyUpdate, h, Bool.false_eq_true, if_false]

theorem applyUpdate_of_terminal (h : u.phase.isTerminal = true) :
    s.applyUpdate u now db = (s.storeSession u).finishSession u now db := by
  simp only [applyUpdate, h, if_true]

theorem ignoresUpdate_of_not_terminal (h : u.phase.isTerminal = false) :
    s.ignoresUpdate u = false := by simp [ignoresUpdate, h]

@[simp] theorem received_frame :
    (s.received u now).daemonPullCancellations = s.daemonPullCancellations ∧
    (s.received u now).runningSnapshots = s.runningSnapshots := by
  unfold received; split_ifs <;> simp

@[simp] theorem received_historical : (s.received u now).historical = s.historical := by
  unfold received; split_ifs <;> simp

theorem get_received_of_ne {x : Uuid} (h : x ≠ u.sessionId) :
    (s.received u now).sessions.get x = s.sessions.get x := by
  unfold received
  split_ifs
  · rw [autoCreate_sessions, get_put, if_neg h]
    rfl
  · rfl

theorem queue_received (d : Uuid) :
    (s.received u now).queue d = if s.sessions.get u.sessionId = none ∧ d = u.daemonId then
        s.queue d ++ [u.sessionId] else s.queue d := by
  unfold received
  simp only [isNone_iff_eq_none]
  split_ifs with hv hd hd
  · rw [queue_congr (autoCreate_daemonSessions _ u), queue_enqueue, if_pos hd.2, hd.2]
    rfl
  · rw [queue_congr (autoCreate_daemonSessions _ u), queue_enqueue, if_neg fun h => hd ⟨hv, h⟩]
    rfl
  · exact absurd hd.1 hv
  · rfl

theorem nextInQueue_received :
    (s.received u now).nextInQueue u.daemonId u.sessionId =
      s.nextInQueue u.daemonId u.sessionId := by
  rw [nextInQueue, nextInQueue, queue_received]
  split_ifs <;> simp

theorem get_discoverySessions_received (d : Uuid) :
    (s.received u now).discoverySessions.get d =
      if s.sessions.get u.sessionId = none ∧ u.discoveryId = some d then some u.sessionId
      else s.discoverySessions.get d := by
  unfold received
  simp only [isNone_iff_eq_none]
  split_ifs with hv hd hd
  · rw [get_discoverySessions_autoCreate, if_pos hd.2]
  · rw [get_discoverySessions_autoCreate, if_neg fun h => hd ⟨hv, h⟩]
    rfl
  · exact absurd hd.1 hv
  · rfl

theorem get_updateSession_of_not_terminal (h : u.phase.isTerminal = false) (x : Uuid) :
    (s.updateSession u now db).sessions.get x =
      if x = u.sessionId then some u else s.sessions.get x := by
  rw [updateSession_of_not_ignores _ _ _ _ (ignoresUpdate_of_not_terminal s u h),
    applyUpdate_of_not_terminal _ _ _ _ h, storeSession_sessions, get_put]
  split_ifs with hx
  · rfl
  · exact get_received_of_ne s u now hx

@[simp] theorem finishSession_frame :
    (s.finishSession u now db).daemonPullCancellations =
      s.daemonPullCancellations.remove u.daemonId ∧
    (s.finishSession u now db).runningSnapshots = s.runningSnapshots := by
  simp [finishSession]

theorem queue_finishSession (d : Uuid) :
    (s.finishSession u now db).queue d =
      if d = u.daemonId then (s.queue d).filter (· ≠ u.sessionId) else s.queue d := by
  rw [finishSession, queue_congr (forgetDiscovery_daemonSessions _ _),
    queue_congr (removeSession_daemonSessions _ _), queue_leaveQueue,
    queue_congr (recordHistorical_daemonSessions ..),
    queue_congr (recordHistorical_daemonSessions ..)]
  split_ifs with hd
  · rw [hd]
    rfl
  · rfl

theorem get_finishSession (x : Uuid) :
    (s.finishSession u now db).sessions.get x = if x = u.sessionId then none
      else if s.nextInQueue u.daemonId u.sessionId = some x then
        (s.sessions.get x).map (·.withPhase .pending) else s.sessions.get x := by
  simp only [finishSession, forgetDiscovery_sessions, removeSession_sessions, SessionMap.get_remove]
  rw [get_leaveQueue_true, nextInQueue_congr (s := s) (by simp), recordHistorical_sessions]
  rfl

theorem get_discoverySessions_finishSession (d : Uuid) :
    (s.finishSession u now db).discoverySessions.get d =
      (s.discoverySessions.get d).filter (· ≠ u.sessionId) := by
  rw [finishSession, get_discoverySessions_forgetDiscovery]
  simp

theorem rows_finishSession (id : Uuid) :
    (s.finishSession u now db).rows id =
      s.rows id + if id = u.sessionId ∧ db.createOk u.sessionId then 1 else 0 := by
  have h : (s.finishSession u now db).historical =
      ((s.pullCancellationForDaemon u.daemonId).recordHistorical u now
        (rescanName u db) db).historical := by simp [finishSession]
  rw [rows_congr h, rows_recordHistorical]
  rfl

theorem get_updateSession_of_terminal (h : u.phase.isTerminal = true)
    (hi : s.ignoresUpdate u = false) (x : Uuid) :
    (s.updateSession u now db).sessions.get x = if x = u.sessionId then none
      else if s.nextInQueue u.daemonId u.sessionId = some x then
        (s.sessions.get x).map (·.withPhase .pending) else s.sessions.get x := by
  rw [updateSession_of_not_ignores _ _ _ _ hi, applyUpdate_of_terminal _ _ _ _ h,
    get_finishSession, nextInQueue_congr (storeSession_daemonSessions ..), nextInQueue_received]
  by_cases hx : x = u.sessionId
  · rw [if_pos hx, if_pos hx]
  · rw [if_neg hx, if_neg hx, storeSession_sessions, get_put, if_neg hx,
      get_received_of_ne _ _ _ hx]

theorem queue_updateSession_of_terminal (h : u.phase.isTerminal = true)
    (hi : s.ignoresUpdate u = false) (d : Uuid) :
    (s.updateSession u now db).queue d =
      if d = u.daemonId then (s.queue d).filter (· ≠ u.sessionId) else s.queue d := by
  rw [updateSession_of_not_ignores _ _ _ _ hi, applyUpdate_of_terminal _ _ _ _ h,
    queue_finishSession, queue_congr (storeSession_daemonSessions ..), queue_received]
  split_ifs with hd hv hv
  · simp
  · rfl
  · exact absurd hv.2 hd
  · rfl

theorem queue_updateSession_of_not_terminal (h : u.phase.isTerminal = false) (d : Uuid) :
    (s.updateSession u now db).queue d = if s.sessions.get u.sessionId = none ∧ d = u.daemonId then
        s.queue d ++ [u.sessionId] else s.queue d := by
  rw [updateSession_of_not_ignores _ _ _ _ (ignoresUpdate_of_not_terminal s u h),
    applyUpdate_of_not_terminal _ _ _ _ h, queue_congr (storeSession_daemonSessions ..),
    queue_received]

theorem get_discoverySessions_updateSession_of_terminal (h : u.phase.isTerminal = true)
    (hi : s.ignoresUpdate u = false) (d : Uuid) :
    (s.updateSession u now db).discoverySessions.get d =
      if s.sessions.get u.sessionId = none ∧ u.discoveryId = some d then none
      else (s.discoverySessions.get d).filter (· ≠ u.sessionId) := by
  rw [updateSession_of_not_ignores _ _ _ _ hi, applyUpdate_of_terminal _ _ _ _ h,
    get_discoverySessions_finishSession, storeSession_discoverySessions,
    get_discoverySessions_received]
  split_ifs
  · simp
  · rfl

theorem get_discoverySessions_updateSession_of_not_terminal (h : u.phase.isTerminal = false)
    (d : Uuid) :
    (s.updateSession u now db).discoverySessions.get d =
      if s.sessions.get u.sessionId = none ∧ u.discoveryId = some d then some u.sessionId
      else s.discoverySessions.get d := by
  rw [updateSession_of_not_ignores _ _ _ _ (ignoresUpdate_of_not_terminal s u h),
    applyUpdate_of_not_terminal _ _ _ _ h, storeSession_discoverySessions,
    get_discoverySessions_received]

theorem updateSession_daemonPullCancellations :
    (s.updateSession u now db).daemonPullCancellations =
      if u.phase.isTerminal ∧ s.ignoresUpdate u = false then
        s.daemonPullCancellations.remove u.daemonId else s.daemonPullCancellations := by
  cases hi : s.ignoresUpdate u with
  | true =>
    rw [updateSession_of_ignores _ _ _ _ hi, if_neg (by simp), touch_daemonPullCancellations]
  | false =>
    rw [updateSession_of_not_ignores _ _ _ _ hi]
    cases ht : u.phase.isTerminal with
    | true => simp [applyUpdate_of_terminal _ _ _ _ ht]
    | false => simp [applyUpdate_of_not_terminal _ _ _ _ ht]

@[simp] theorem updateSession_runningSnapshots :
    (s.updateSession u now db).runningSnapshots = s.runningSnapshots := by
  cases hi : s.ignoresUpdate u with
  | true => rw [updateSession_of_ignores _ _ _ _ hi, touch_runningSnapshots]
  | false =>
    rw [updateSession_of_not_ignores _ _ _ _ hi]
    cases ht : u.phase.isTerminal with
    | true => simp [applyUpdate_of_terminal _ _ _ _ ht]
    | false => simp [applyUpdate_of_not_terminal _ _ _ _ ht]

theorem rows_updateSession (id : Uuid) :
    (s.updateSession u now db).rows id = s.rows id +
      if id = u.sessionId ∧ u.phase.isTerminal ∧ s.ignoresUpdate u = false ∧
        db.createOk u.sessionId then 1 else 0 := by
  cases hi : s.ignoresUpdate u with
  | true =>
    rw [updateSession_of_ignores _ _ _ _ hi, rows_congr (touch_historical ..)]
    simp
  | false =>
    rw [updateSession_of_not_ignores _ _ _ _ hi]
    cases ht : u.phase.isTerminal with
    | true =>
      rw [applyUpdate_of_terminal _ _ _ _ ht, rows_finishSession,
        rows_congr (storeSession_historical ..), rows_congr (received_historical ..)]
      simp
    | false =>
      rw [applyUpdate_of_not_terminal _ _ _ _ ht, rows_congr (storeSession_historical ..),
        rows_congr (received_historical ..)]
      simp

end Update

section Cancel
variable (p : DiscoveryUpdatePayload) (now : Timestamp)

theorem get_cancelQueued (x : Uuid) :
    (s.cancelQueued p now).sessions.get x = if x = p.sessionId then none
      else if p.phase = .pending ∧ s.nextInQueue p.daemonId p.sessionId = some x then
        (s.sessions.get x).map (·.withPhase .pending) else s.sessions.get x := by
  simp only [cancelQueued, forgetDiscovery_sessions]
  rw [get_leaveQueue, nextInQueue_congr (removeSession_daemonSessions ..), removeSession_sessions,
    SessionMap.get_remove]
  by_cases hx : x = p.sessionId
  · simp [hx]
  · rw [if_neg hx, if_neg hx]
    cases hg : s.sessions.get x <;> simp [and_comm]

theorem queue_cancelQueued (d : Uuid) :
    (s.cancelQueued p now).queue d =
      if d = p.daemonId then (s.queue d).filter (· ≠ p.sessionId) else s.queue d := by
  rw [cancelQueued, queue_congr (forgetDiscovery_daemonSessions ..), queue_leaveQueue]
  split_ifs with hd
  · rw [hd]
    rfl
  · rfl

theorem get_discoverySessions_cancelQueued (d : Uuid) :
    (s.cancelQueued p now).discoverySessions.get d =
      (s.discoverySessions.get d).filter (· ≠ p.sessionId) := by
  rw [cancelQueued, get_discoverySessions_forgetDiscovery]
  simp

@[simp] theorem cancelQueued_daemonPullCancellations :
    (s.cancelQueued p now).daemonPullCancellations = s.daemonPullCancellations := by
  simp [cancelQueued]

@[simp] theorem cancelQueued_runningSnapshots :
    (s.cancelQueued p now).runningSnapshots = s.runningSnapshots := by simp [cancelQueued]

@[simp] theorem cancelQueued_historical :
    (s.cancelQueued p now).historical = s.historical := by simp [cancelQueued]

end Cancel

section Sweep
variable (now promotedAt : Timestamp) (db : Storage)
variable {x : Uuid}

@[simp] theorem dropCancellation_frame (d id : Uuid) :
    (s.dropCancellation d id).sessions = s.sessions ∧
    (s.dropCancellation d id).daemonSessions = s.daemonSessions ∧
    (s.dropCancellation d id).discoverySessions = s.discoverySessions ∧
    (s.dropCancellation d id).runningSnapshots = s.runningSnapshots ∧
    (s.dropCancellation d id).historical = s.historical := by
  unfold dropCancellation
  split <;> [split_ifs <;> exact ⟨rfl, rfl, rfl, rfl, rfl⟩; exact ⟨rfl, rfl, rfl, rfl, rfl⟩]

theorem get_daemonPullCancellations_dropCancellation (d id d' : Uuid) :
    (s.dropCancellation d id).daemonPullCancellations.get d' =
      if d' = d then (s.daemonPullCancellations.get d').filter (·.2 ≠ id)
      else s.daemonPullCancellations.get d' := by
  unfold dropCancellation
  cases h : s.daemonPullCancellations.get d with
  | none =>
    split_ifs with hd
    · rw [hd, h]
      rfl
    · rfl
  | some flag =>
    by_cases hf : flag.2 = id
    · simp only [hf, if_true, pullCancellationForDaemon_daemonPullCancellations, HashMap.get_remove]
      split_ifs with hd
      · rw [hd, h]
        simp [Option.filter, hf]
      · rfl
    · simp only [hf, if_false]
      split_ifs with hd
      · rw [hd, h]
        simp [Option.filter, hf]
      · rfl

theorem sweepSession_of_none {q : DiscoveryUpdatePayload}
    (h : s.sessions.get q.sessionId = none) : s.sweepSession now promotedAt db q = s := by
  simp only [sweepSession, h]

variable {s} {p q : DiscoveryUpdatePayload}

theorem get_sweepSession (h : s.sessions.get q.sessionId = some p) (x : Uuid) :
    (s.sweepSession now promotedAt db q).sessions.get x = if x = q.sessionId then none
      else if s.nextInQueue p.daemonId q.sessionId = some x ∧
          (s.sessions.get x).any (·.phase == .queued) then
        (s.sessions.get x).map (·.withPhase .pending) else s.sessions.get x := by
  have hid := get_sessionId h
  have hs : (s.sweepSession now promotedAt db q).sessions =
      ((s.removeSession q.sessionId).leaveQueue p.daemonId q.sessionId promotedAt
        (·.phase == .queued)).sessions := by
    simp only [sweepSession, h, hid]
    split_ifs <;> simp
  rw [hs, get_leaveQueue, nextInQueue_congr (removeSession_daemonSessions ..),
    removeSession_sessions, SessionMap.get_remove]
  by_cases hx : x = q.sessionId
  · simp [hx]
  · rw [if_neg hx, if_neg hx]

theorem queue_sweepSession (h : s.sessions.get q.sessionId = some p) (d : Uuid) :
    (s.sweepSession now promotedAt db q).queue d =
      if d = p.daemonId then (s.queue d).filter (· ≠ q.sessionId) else s.queue d := by
  have hid := get_sessionId h
  have hs : (s.sweepSession now promotedAt db q).daemonSessions =
      ((s.removeSession q.sessionId).leaveQueue p.daemonId q.sessionId promotedAt
        (·.phase == .queued)).daemonSessions := by
    simp only [sweepSession, h, hid]
    split_ifs <;> simp
  rw [queue_congr hs, queue_leaveQueue]
  split_ifs with hd
  · rw [hd]
    rfl
  · rfl

theorem get_discoverySessions_sweepSession (h : s.sessions.get q.sessionId = some p) (d : Uuid) :
    (s.sweepSession now promotedAt db q).discoverySessions.get d =
      (s.discoverySessions.get d).filter (· ≠ q.sessionId) := by
  have hid := get_sessionId h
  rw [← get_discoverySessions_forgetDiscovery]
  simp only [sweepSession, h, hid]
  split_ifs <;> simp

theorem get_daemonPullCancellations_sweepSession (h : s.sessions.get q.sessionId = some p)
    (d : Uuid) :
    (s.sweepSession now promotedAt db q).daemonPullCancellations.get d =
      if d = p.daemonId then (s.daemonPullCancellations.get d).filter (·.2 ≠ q.sessionId)
      else s.daemonPullCancellations.get d := by
  have hid := get_sessionId h
  simp only [sweepSession, h, hid]
  split_ifs <;> simp [get_daemonPullCancellations_dropCancellation, *]

theorem sweepSession_runningSnapshots (q : DiscoveryUpdatePayload) :
    (s.sweepSession now promotedAt db q).runningSnapshots = s.runningSnapshots := by
  unfold sweepSession
  split
  · rfl
  · simp only
    split_ifs <;> simp

theorem rows_sweepSession (h : s.sessions.get q.sessionId = some p) (id : Uuid) :
    (s.sweepSession now promotedAt db q).rows id = s.rows id +
      if id = q.sessionId ∧ db.daemonExists p.daemonId ∧ db.createOk q.sessionId then 1 else 0 := by
  have hid := get_sessionId h
  simp only [sweepSession, h, hid]
  split_ifs with hd hc hc
  · rw [rows_recordHistorical, rows_congr (s := s) (by simp)]
    simp [failStalled, hid, hc.1, hc.2.2]
  · rw [rows_recordHistorical, rows_congr (s := s) (by simp)]
    have : ¬(id = q.sessionId ∧ db.createOk q.sessionId = true) := fun h => hc ⟨h.1, hd, h.2⟩
    simp [failStalled, hid, this]
  · exact absurd hc.2.1 hd
  · rw [rows_congr (s := s) (by simp)]
    rfl

theorem sweepStalled_induction {I : DiscoveryService → Prop} {ps : List DiscoveryUpdatePayload}
    (hstep : ∀ s, ∀ q ∈ ps, I s → I (s.sweepSession now promotedAt db q))
    (hevict : ∀ s, I s → I (s.evictTombstones now)) {s : DiscoveryService} (hs : I s) :
    I (s.sweepStalled ps now promotedAt db) := by
  refine hevict _ ?_
  clear hevict
  induction ps generalizing s with
  | nil => exact hs
  | cons q ps ih =>
    exact ih (fun t r hr => hstep t r (mem_cons_of_mem _ hr))
      (hstep s q mem_cons_self hs)

@[simp] theorem sweepStalled_runningSnapshots (s : DiscoveryService)
    (ps : List DiscoveryUpdatePayload) :
    (s.sweepStalled ps now promotedAt db).runningSnapshots = s.runningSnapshots :=
  sweepStalled_induction (I := fun t => t.runningSnapshots = s.runningSnapshots) now promotedAt db
    (fun _ q _ h => (sweepSession_runningSnapshots now promotedAt db q).trans h) (fun _ h => h) rfl

theorem get_sweepSession_of_none (h : s.sessions.get x = none)
    (q : DiscoveryUpdatePayload) :
    (s.sweepSession now promotedAt db q).sessions.get x = none := by
  cases hq : s.sessions.get q.sessionId with
  | none => rwa [sweepSession_of_none s now promotedAt db hq]
  | some r =>
    rw [get_sweepSession now promotedAt db hq, h]
    split_ifs <;> rfl

theorem get_sweepStalled_of_mem (ps : List DiscoveryUpdatePayload)
    (hx : x ∈ ps.map (·.sessionId)) :
    (s.sweepStalled ps now promotedAt db).sessions.get x = none := by
  rw [sweepStalled, evictTombstones_sessions]
  have hgone : ∀ ps t, t.sessions.get x = none →
      (sweepSessions now promotedAt db ps t).sessions.get x = none := by
    intro ps
    induction ps with
    | nil => exact fun _ h => h
    | cons q ps ih => exact fun t h => ih _ (get_sweepSession_of_none now promotedAt db h q)
  induction ps generalizing s with
  | nil => cases hx
  | cons q ps ih =>
    rcases mem_cons.mp hx with rfl | hx
    · refine hgone ps _ ?_
      cases hq : s.sessions.get q.sessionId with
      | none => rwa [sweepSession_of_none s now promotedAt db hq]
      | some r => rw [get_sweepSession now promotedAt db hq, if_pos rfl]
    · exact ih hx

theorem rows_sweepStalled (s : DiscoveryService) (ps : List DiscoveryUpdatePayload) (x : Uuid) :
    (s.sweepStalled ps now promotedAt db).rows x = s.rows x ∨
      (s.sweepStalled ps now promotedAt db).rows x = s.rows x + 1 ∧
        x ∈ ps.map (·.sessionId) ∧ ∃ p, s.sessions.get x = some p := by
  -- while no row is written every stored session was stored before; after that `x` is gone
  let unwritten (t : DiscoveryService) : Prop := t.rows x = s.rows x ∧
    ((∃ p, t.sessions.get x = some p) → ∃ p, s.sessions.get x = some p)
  let written (t : DiscoveryService) : Prop := t.rows x = s.rows x + 1 ∧
    t.sessions.get x = none ∧ x ∈ ps.map (·.sessionId) ∧ ∃ p, s.sessions.get x = some p
  have key : unwritten (s.sweepStalled ps now promotedAt db) ∨
      written (s.sweepStalled ps now promotedAt db) := by
    refine sweepStalled_induction (I := fun t => unwritten t ∨ written t) now promotedAt db
      (fun t q hq ht => ?_) (fun _ ht => ht) (.inl ⟨rfl, id⟩)
    cases hr : t.sessions.get q.sessionId with
    | none => rwa [sweepSession_of_none t now promotedAt db hr]
    | some r =>
      have hrows := rows_sweepSession now promotedAt db hr x
      rcases ht with ⟨hsame, hstored⟩ | ⟨hplus, hgone, hmem⟩
      · by_cases hx : x = q.sessionId ∧ db.daemonExists r.daemonId ∧ db.createOk q.sessionId
        · rw [if_pos hx, hsame] at hrows
          obtain ⟨rfl, -⟩ := hx
          refine .inr ⟨hrows, ?_, List.mem_map_of_mem hq, hstored ⟨r, hr⟩⟩
          rw [get_sweepSession now promotedAt db hr, if_pos rfl]
        · rw [if_neg hx, hsame] at hrows
          refine .inl ⟨hrows, fun ⟨p, hp⟩ => hstored ?_⟩
          cases hg : t.sessions.get x with
          | some p' => exact ⟨p', rfl⟩
          | none =>
            rw [get_sweepSession_of_none now promotedAt db hg] at hp
            cases hp
      · have hne : x ≠ q.sessionId := by
          rintro rfl
          cases hr.symm.trans hgone
        rw [if_neg fun h => hne h.1, hplus] at hrows
        exact .inr ⟨hrows, get_sweepSession_of_none now promotedAt db hgone q, hmem⟩
  rcases key with hkey | hkey
  · exact .inl hkey.1
  · exact .inr ⟨hkey.1, hkey.2.2⟩

end Sweep

section Snapshot
variable {s}
variable {p : DiscoveryUpdatePayload} {ids order : List Uuid} {id n x : Uuid}

theorem hasNonTerminalSession_eq_false :
    s.hasNonTerminalSession n = false ↔
      ∀ id p, s.sessions.get id = some p → p.networkId = n → p.phase.isTerminal = true := by
  rw [hasNonTerminalSession, HashMap.any_eq_false]
  simp only [Bool.and_eq_false_iff, decide_eq_false_iff_not, Bool.not_eq_false']
  exact forall₃_congr fun _ _ _ => imp_iff_not_or.symm

theorem tryAcquire_cases (s : DiscoveryService) (n : Uuid) :
    (s.tryAcquireNetworkForSnapshot n).2 = s ∨
      (∀ id p, s.sessions.get id = some p → p.networkId = n → p.phase.isTerminal = true) ∧
      (s.tryAcquireNetworkForSnapshot n).2 =
        { s with runningSnapshots := insert n s.runningSnapshots } := by
  unfold tryAcquireNetworkForSnapshot
  split_ifs with hn hs
  · exact .inl rfl
  · exact .inl rfl
  · exact .inr ⟨hasNonTerminalSession_eq_false.mp (Bool.eq_false_iff.mpr hs), rfl⟩

variable (now : Timestamp)

@[simp] theorem releaseSession_frame (id : Uuid) : s.ChangesSessions (s.releaseSession now id) := by
  unfold releaseSession
  split <;> [exact ⟨rfl, rfl, rfl, rfl, rfl⟩; (split_ifs <;> exact ⟨rfl, rfl, rfl, rfl, rfl⟩)]

theorem daemonHasActive_eq_true {d : Uuid} :
    s.daemonHasActive d id = true ↔ ∃ x ∈ s.queue d, x ≠ id ∧
      ∃ p, s.sessions.get x = some p ∧ p.phase.canBeCleanedUp = true := by
  rw [daemonHasActive, List.any_eq_true]
  refine exists_congr fun x => and_congr_right fun _ => ?_
  rw [Bool.and_eq_true, bne_iff_ne]
  refine and_congr_right fun _ => ?_
  cases s.sessions.get x with
  | none => simp
  | some p => simp [DiscoveryPhase.canBeCleanedUp_iff_not_waiting, and_assoc]

def releasePhase (s : DiscoveryService) (p : DiscoveryUpdatePayload) : DiscoveryPhase :=
  if s.daemonHasActive p.daemonId p.sessionId then .queued else .pending

theorem releaseSession_of_none (h : s.sessions.get id = none) :
    s.releaseSession now id = s := by simp only [releaseSession, h]

theorem get_releaseSession
    (h : s.sessions.get id = some p) (x : Uuid) :
    (s.releaseSession now id).sessions.get x =
      if x = id then some (p.withPhase (s.releasePhase p)) else s.sessions.get x := by
  unfold releaseSession releasePhase
  rw [h, get_sessionId h]
  simp only
  split_ifs with ha hx hx <;> simp [get_setPhase, *]

theorem releaseSessions_induction {I : DiscoveryService → Prop}
    (hstep : ∀ s id, I s → I (s.releaseSession now id)) {s : DiscoveryService} (ids : List Uuid)
    (hs : I s) : I (releaseSessions now ids s) := by
  induction ids generalizing s with
  | nil => exact hs
  | cons id ids ih => exact ih (hstep s id hs)

theorem get_releaseSessions_of_not_mem (hx : x ∉ ids) :
    (releaseSessions now ids s).sessions.get x = s.sessions.get x := by
  induction ids generalizing s with
  | nil => rfl
  | cons id ids ih =>
    rw [mem_cons, not_or] at hx
    rw [releaseSessions, ih hx.2]
    cases hid : s.sessions.get id with
    | none => rw [releaseSession_of_none now hid]
    | some p => rw [get_releaseSession now hid, if_neg hx.1]

theorem get_releaseSessions_of_mem
    (hx : x ∈ ids) (hp : s.sessions.get x = some p) :
    ∃ ph, (ph = DiscoveryPhase.queued ∨ ph = .pending) ∧
      (releaseSessions now ids s).sessions.get x = some (p.withPhase ph) := by
  induction ids generalizing s p with
  | nil => cases hx
  | cons id ids ih =>
    rw [releaseSessions]
    by_cases hmem : x ∈ ids
    · -- the last decision for a session counts
      cases hid : s.sessions.get id with
      | none =>
        rw [releaseSession_of_none now hid]
        exact ih hmem hp
      | some q =>
        by_cases hxid : x = id
        · subst hxid
          cases hid.symm.trans hp
          refine ih (p := p.withPhase (s.releasePhase p)) hmem ?_
          rw [get_releaseSession now hp, if_pos rfl]
        · refine ih hmem ?_
          rw [get_releaseSession now hid, if_neg hxid, hp]
    · obtain rfl : x = id := (mem_cons.mp hx).resolve_right hmem
      refine ⟨s.releasePhase p, ?_, ?_⟩
      · unfold releasePhase
        split_ifs
        · exact .inl rfl
        · exact .inr rfl
      · rw [get_releaseSessions_of_not_mem now hmem, get_releaseSession now hp, if_pos rfl]

@[simp] theorem promoteAwaiting_frame (s : DiscoveryService) (n : Uuid) (order : List Uuid) :
    s.ChangesSessions (s.promoteAwaiting n now order) :=
  releaseSessions_induction (I := s.ChangesSessions) now
    (fun _ id h => h.trans (releaseSession_frame now id)) _ ⟨rfl, rfl, rfl, rfl, rfl⟩

theorem of_mem_awaitingSessionIds
    (h : id ∈ s.awaitingSessionIds n order) :
    ∃ p, s.sessions.get id = some p ∧ p.networkId = n ∧ p.phase = .awaitingSnapshot := by
  simp only [awaitingSessionIds, List.mem_map, mem_filter, mem_filterMap, isAwaiting,
    Bool.and_eq_true, decide_eq_true_eq, beq_iff_eq] at h
  obtain ⟨p, ⟨⟨x, -, hx⟩, hp⟩, rfl⟩ := h
  rw [get_sessionId hx]
  exact ⟨p, hx, hp⟩

theorem mem_awaitingSessionIds
    (ho : s.sessions.map.Enumerates order) :
    id ∈ s.awaitingSessionIds n order ↔
      ∃ p, s.sessions.get id = some p ∧ p.networkId = n ∧ p.phase = .awaitingSnapshot := by
  refine ⟨of_mem_awaitingSessionIds, ?_⟩
  rintro ⟨p, hp, hn⟩
  simp only [awaitingSessionIds, List.mem_map, mem_filter, mem_filterMap, isAwaiting,
    Bool.and_eq_true, decide_eq_true_eq, beq_iff_eq]
  exact ⟨p, ⟨⟨id, ho.mem_iff.mpr ⟨p, hp⟩, hp⟩, hn⟩, get_sessionId hp⟩

theorem ne_awaiting_promoteAwaiting
    (ho : s.sessions.map.Enumerates order)
    (hp : (s.promoteAwaiting n now order).sessions.get id = some p) (hn : p.networkId = n) :
    p.phase ≠ .awaitingSnapshot := by
  intro ha
  by_cases hid : id ∈ s.awaitingSessionIds n order
  · obtain ⟨q, hq, -⟩ := (mem_awaitingSessionIds ho).mp hid
    obtain ⟨ph, hph, hget⟩ := get_releaseSessions_of_mem now hid hq
    cases hp.symm.trans hget
    rcases hph with rfl | rfl <;> cases ha
  · have hkept : s.sessions.get id = some p := by
      rw [← hp, promoteAwaiting, get_releaseSessions_of_not_mem now hid]
    exact hid ((mem_awaitingSessionIds ho).mpr ⟨p, hkept, hn, ha⟩)

end Snapshot

section Dispatch
variable (now : Timestamp)
variable {p : DiscoveryUpdatePayload} {id : Uuid}

theorem get_transitionSessionToStarting (id x : Uuid) :
    (s.transitionSessionToStarting id now).sessions.get x =
      if x = id ∧ (s.sessions.get x).any (·.phase = .pending) then
        (s.sessions.get x).map (·.withPhase .starting) else s.sessions.get x := by
  unfold transitionSessionToStarting
  cases h : s.sessions.get id with
  | none =>
    rw [if_neg]
    rintro ⟨rfl, ha⟩
    simp [h] at ha
  | some p =>
    by_cases hp : p.phase = .pending
    · simp only [hp, if_true, get_setPhase]
      by_cases hx : x = id
      · subst hx
        simp [h, hp]
      · rw [if_neg hx, if_neg fun h => hx h.1]
    · simp only [hp, if_false]
      rw [if_neg]
      rintro ⟨rfl, ha⟩
      simp [h, hp] at ha

@[simp] theorem transitionSessionToStarting_frame (id : Uuid) :
    s.ChangesSessions (s.transitionSessionToStarting id now) := by
  unfold transitionSessionToStarting
  split <;> [split_ifs <;> exact ⟨rfl, rfl, rfl, rfl, rfl⟩; exact ⟨rfl, rfl, rfl, rfl, rfl⟩]

theorem removeOldSession_of_none (h : s.sessions.get id = none) :
    s.removeOldSession id = s := by simp only [removeOldSession, h]

theorem removeOldSession_of_some
    (h : s.sessions.get id = some p) :
    s.removeOldSession id = (((s.removeSession id).pullCancellationForDaemon p.daemonId).dequeue
      p.daemonId id).forgetDiscovery id := by
  simp only [removeOldSession, h, get_sessionId h]

theorem cleanupOldSessions_induction {I : DiscoveryService → Prop}
    (hstep : ∀ s id p, I s → s.sessions.get id = some p → I (s.removeOldSession id))
    {s : DiscoveryService} (h : ℤ) (order : List Uuid) (hs : I s) :
    I (s.cleanupOldSessions h now order) := by
  unfold cleanupOldSessions
  generalize s.oldSessionIds (now - hours h) order = ids
  induction ids generalizing s with
  | nil => exact hs
  | cons id ids ih =>
    refine ih ?_
    cases hp : s.sessions.get id with
    | none => rwa [removeOldSession_of_none s hp]
    | some p => exact hstep s id p hs hp

theorem clearSessions_eq (ids : List Uuid) :
    (∀ x, (clearSessions ids s).sessions.get x = if x ∈ ids then none else s.sessions.get x) ∧
    (∀ d, (clearSessions ids s).discoverySessions.get d =
      (s.discoverySessions.get d).filter (· ∉ ids)) ∧
    (clearSessions ids s).daemonSessions = s.daemonSessions ∧
    (clearSessions ids s).runningSnapshots = s.runningSnapshots ∧
    (clearSessions ids s).historical = s.historical := by
  induction ids generalizing s with
  | nil =>
    refine ⟨fun x => by simp [clearSessions], fun d => ?_, rfl, rfl, rfl⟩
    cases h : s.discoverySessions.get d <;> simp [clearSessions, h, Option.filter]
  | cons id ids ih =>
    obtain ⟨hs, hd, hq, hr, hh⟩ := ih (s.clearSession id)
    refine ⟨fun x => ?_, fun d => ?_, hq, hr, hh⟩
    · rw [clearSessions, hs, clearSession_sessions, SessionMap.get_remove]
      by_cases hx : x = id <;> by_cases hm : x ∈ ids <;> simp [hx, hm]
    · rw [clearSessions, hd, clearSession_discoverySessions, HashMap.get_retain,
        Option.filter_filter]
      congr 1
      funext sid
      simp only [mem_cons, not_or, Bool.decide_and]

theorem get_clearSessionsForDaemon (d x : Uuid) :
    (s.clearSessionsForDaemon d).sessions.get x =
      if x ∈ s.queue d then none else s.sessions.get x := by
  unfold clearSessionsForDaemon queue
  cases h : s.daemonSessions.get d with
  | none => simp
  | some ids => exact (clearSessions_eq _ ids).1 x

theorem get_discoverySessions_clearSessionsForDaemon (d d' : Uuid) :
    (s.clearSessionsForDaemon d).discoverySessions.get d' =
      (s.discoverySessions.get d').filter (· ∉ s.queue d) := by
  unfold clearSessionsForDaemon queue
  cases h : s.daemonSessions.get d with
  | none => cases hd : s.discoverySessions.get d' <;> simp [hd, Option.filter]
  | some ids => exact (clearSessions_eq _ ids).2.1 d'

theorem queue_clearSessionsForDaemon (d d' : Uuid) :
    (s.clearSessionsForDaemon d).queue d' = if d' = d then [] else s.queue d' := by
  unfold clearSessionsForDaemon
  cases h : s.daemonSessions.get d with
  | none =>
    split_ifs with hd
    · rw [hd]
      simp [queue, h]
    · rfl
  | some ids =>
    rw [queue_congr (pullCancellationForDaemon_daemonSessions ..),
      queue_congr (clearSessions_eq _ ids).2.2.1]
    simp only [queue, HashMap.get_remove]
    split_ifs <;> rfl

@[simp] theorem clearSessionsForDaemon_runningSnapshots (d : Uuid) :
    (s.clearSessionsForDaemon d).runningSnapshots = s.runningSnapshots := by
  unfold clearSessionsForDaemon
  cases s.daemonSessions.get d with
  | none => rfl
  | some ids => exact (clearSessions_eq _ ids).2.2.2.1

@[simp] theorem clearSessionsForDaemon_historical (d : Uuid) :
    (s.clearSessionsForDaemon d).historical = s.historical := by
  unfold clearSessionsForDaemon
  cases s.daemonSessions.get d with
  | none => rfl
  | some ids => exact (clearSessions_eq _ ids).2.2.2.2

@[simp] theorem cleanupOldSessions_runningSnapshots (h : ℤ) (order : List Uuid) :
    (s.cleanupOldSessions h now order).runningSnapshots = s.runningSnapshots := by
  refine cleanupOldSessions_induction (I := fun t => t.runningSnapshots = s.runningSnapshots) now
    (fun t id p ht hp => ?_) h order rfl
  rw [removeOldSession_of_some t hp, ← ht]
  simp

@[simp] theorem cleanupOldSessions_historical (h : ℤ) (order : List Uuid) :
    (s.cleanupOldSessions h now order).historical = s.historical := by
  refine cleanupOldSessions_induction (I := fun t => t.historical = s.historical) now
    (fun t id p ht hp => ?_) h order rfl
  rw [removeOldSession_of_some t hp, ← ht]
  simp

theorem get_cleanupOldSessions {h : ℤ} {order : List Uuid} {x : Uuid}
    (hx : (s.cleanupOldSessions h now order).sessions.get x = some p) :
    s.sessions.get x = some p := by
  refine cleanupOldSessions_induction
    (I := fun t => t.sessions.get x = some p → s.sessions.get x = some p) now
    (fun t id q ht hq hp => ht ?_) h order id hx
  rw [removeOldSession_of_some t hq, forgetDiscovery_sessions, dequeue_sessions,
    pullCancellationForDaemon_sessions, removeSession_sessions, SessionMap.get_remove] at hp
  split_ifs at hp
  exact hp

end Dispatch

end DiscoveryService
end Scanopy
