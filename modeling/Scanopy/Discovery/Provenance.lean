import Scanopy.Discovery.Effects
import Scanopy.Discovery.Calls

/-! Where the entries of the maps come from: every way in which a section can leave a payload among
the sessions, an id in a queue or a value in the discovery map. -/

namespace Scanopy
open List Option DiscoveryService
variable {s : DiscoveryService}
variable {p : DiscoveryUpdatePayload} {ps : List DiscoveryUpdatePayload} {order : List Uuid}
  {sec : Section} {db : Storage} {now promotedAt : Timestamp} {d id : Uuid}

/-- The section leaves `p` stored under the session id. -/
inductive StoredBy (s : DiscoveryService) : Section → Uuid → DiscoveryUpdatePayload → Prop
  | kept {sec : Section} {id : Uuid} {p : DiscoveryUpdatePayload}
      (hp : s.sessions.get id = some p) : StoredBy s sec id p
  | stored {p : DiscoveryUpdatePayload} : StoredBy s (.store p) p.sessionId p
  | updated {u : DiscoveryUpdatePayload} {now : Timestamp} {db : Storage}
      (ht : u.phase.isTerminal = false) : StoredBy s (.update u now db) u.sessionId u
  | promotedByUpdate {u p : DiscoveryUpdatePayload} {now : Timestamp} {db : Storage} {id : Uuid}
      (ht : u.phase.isTerminal = true) (hi : s.ignoresUpdate u = false)
      (hn : s.nextInQueue u.daemonId u.sessionId = some id) (hp : s.sessions.get id = some p) :
      StoredBy s (.update u now db) id (p.withPhase .pending)
  | promotedByCancel {session p : DiscoveryUpdatePayload} {now : Timestamp} {id : Uuid}
      (hs : session.phase = .pending)
      (hn : s.nextInQueue session.daemonId session.sessionId = some id)
      (hp : s.sessions.get id = some p) :
      StoredBy s (.cancelQueued session now) id (p.withPhase .pending)
  | promotedBySweep {ps : List DiscoveryUpdatePayload} {now promotedAt : Timestamp}
      {db : Storage} {id : Uuid} {p : DiscoveryUpdatePayload}
      (hp : s.sessions.get id = some p) (hq : p.phase = .queued) :
      StoredBy s (.sweep ps now promotedAt db) id (p.withPhase .pending)
  | released {n : Uuid} {now : Timestamp} {order : List Uuid} {id : Uuid}
      {p : DiscoveryUpdatePayload} {ph : DiscoveryPhase} (hp : s.sessions.get id = some p)
      (hn : p.networkId = n) (ha : p.phase = .awaitingSnapshot)
      (hph : ph = .queued ∨ ph = .pending) :
      StoredBy s (.promoteAwaiting n now order) id (p.withPhase ph)
  | transitioned {id : Uuid} {now : Timestamp} {p : DiscoveryUpdatePayload}
      (hp : s.sessions.get id = some p) (hph : p.phase = .pending) :
      StoredBy s (.transition id now) id (p.withPhase .starting)
  | taken {id : Uuid} {now : Timestamp} {p : DiscoveryUpdatePayload}
      (hp : s.sessions.get id = some p) (hph : p.phase = .pending) :
      StoredBy s (.take id now) id (p.withPhase .starting)

theorem storedBy_update {u : DiscoveryUpdatePayload}
    (h : (s.updateSession u now db).sessions.get id = some p) :
    StoredBy s (.update u now db) id p := by
  cases ht : u.phase.isTerminal with
  | false =>
    rw [get_updateSession_of_not_terminal _ _ _ _ ht] at h
    split_ifs at h with hid
    · cases h
      rw [hid]
      exact .updated ht
    · exact .kept h
  | true =>
    cases hi : s.ignoresUpdate u with
    | true =>
      rw [updateSession_of_ignores _ _ _ _ hi] at h
      exact .kept h
    | false =>
      rw [get_updateSession_of_terminal _ _ _ _ ht hi] at h
      split_ifs at h with hid hn
      · obtain ⟨q, hq, rfl⟩ := map_eq_some_iff.mp h
        exact .promotedByUpdate ht hi hn hq
      · exact .kept h

theorem storedBy_cancelQueued {session : DiscoveryUpdatePayload}
    (h : (s.cancelQueued session now).sessions.get id = some p) :
    StoredBy s (.cancelQueued session now) id p := by
  rw [get_cancelQueued] at h
  split_ifs at h with hid hn
  · obtain ⟨q, hq, rfl⟩ := map_eq_some_iff.mp h
    exact .promotedByCancel hn.1 hn.2 hq
  · exact .kept h

theorem storedBy_sweep
    (h : (s.sweepStalled ps now promotedAt db).sessions.get id = some p) :
    StoredBy s (.sweep ps now promotedAt db) id p := by
  have key : s.sessions.get id = some p ∨
      ∃ q, s.sessions.get id = some q ∧ q.phase = .queued ∧ p = q.withPhase .pending := by
    refine sweepStalled_induction (I := fun t => ∀ p, t.sessions.get id = some p →
      s.sessions.get id = some p ∨
      ∃ q, s.sessions.get id = some q ∧ q.phase = .queued ∧ p = q.withPhase .pending)
      now promotedAt db (fun t q _ ht => ?_) (fun _ ht => ht) (fun _ hp => .inl hp) p h
    cases hq : t.sessions.get q.sessionId with
    | none => rwa [sweepSession_of_none t now promotedAt db hq]
    | some r =>
      intro p hp
      rw [get_sweepSession now promotedAt db hq] at hp
      split_ifs at hp with hid hn
      · obtain ⟨p', hp', rfl⟩ := map_eq_some_iff.mp hp
        have hqueued : p'.phase = .queued := by simpa [hp'] using hn.2
        rcases ht p' hp' with hkept | ⟨q', -, -, hpending⟩
        · exact .inr ⟨p', hkept, hqueued, rfl⟩
        · rw [hpending] at hqueued
          cases hqueued
      · exact ht p hp
  rcases key with hkept | ⟨q, hq, hqueued, rfl⟩
  · exact .kept hkept
  · exact .promotedBySweep hq hqueued

theorem storedBy_promoteAwaiting {n : Uuid}
    (h : (s.promoteAwaiting n now order).sessions.get id = some p) :
    StoredBy s (.promoteAwaiting n now order) id p := by
  rw [promoteAwaiting] at h
  by_cases hid : id ∈ s.awaitingSessionIds n order
  · obtain ⟨q, hq, hn, ha⟩ := of_mem_awaitingSessionIds hid
    obtain ⟨ph, hph, hget⟩ := get_releaseSessions_of_mem now hid hq
    cases h.symm.trans hget
    exact .released hq hn ha hph
  · rw [get_releaseSessions_of_not_mem now hid] at h
    exact .kept h

theorem storedBy_of_get
    (h : (sec.apply s).sessions.get id = some p) : StoredBy s sec id p := by
  cases sec with
  | read | mapDiscovery | track | enqueue | setCancellation | dropSnapshot | pull => exact .kept h
  | store q =>
    rw [Section.apply, storeSession_sessions, SessionMap.get_put] at h
    split_ifs at h with hid
    · cases h
      rw [hid]
      exact .stored
    · exact .kept h
  | update => exact storedBy_update h
  | cancelQueued => exact storedBy_cancelQueued h
  | sweep => exact storedBy_sweep h
  | acquire n =>
    rcases tryAcquire_cases s n with hs | ⟨-, hs⟩
    · rw [Section.apply, hs] at h
      exact .kept h
    · rw [Section.apply, hs] at h
      exact .kept h
  | promoteAwaiting => exact storedBy_promoteAwaiting h
  | transition x now =>
    rw [Section.apply, get_transitionSessionToStarting] at h
    split_ifs at h with hx
    · obtain ⟨q, hq, rfl⟩ := map_eq_some_iff.mp h
      rw [hx.1]
      exact .transitioned (hx.1 ▸ hq) (by simpa [hq] using hx.2)
    · exact .kept h
  | take x now =>
    rw [Section.apply, get_transitionSessionToStarting] at h
    split_ifs at h with hx
    · obtain ⟨q, hq, rfl⟩ := map_eq_some_iff.mp h
      rw [hx.1]
      exact .taken (hx.1 ▸ hq) (by simpa [hq] using hx.2)
    · exact .kept h
  | cleanupOld => exact .kept (get_cleanupOldSessions _ _ h)
  | clear d =>
    rw [Section.apply, get_clearSessionsForDaemon] at h
    split_ifs at h
    exact .kept h

inductive QueuedBy (s : DiscoveryService) : Section → Uuid → Uuid → Prop
  | kept {sec : Section} {d id : Uuid} (h : id ∈ s.queue d) : QueuedBy s sec d id
  | enqueued {p : DiscoveryUpdatePayload} : QueuedBy s (.enqueue p) p.daemonId p.sessionId
  | created {u : DiscoveryUpdatePayload} {now : Timestamp} {db : Storage}
      (ht : u.phase.isTerminal = false) (hv : s.sessions.get u.sessionId = none) :
      QueuedBy s (.update u now db) u.daemonId u.sessionId

theorem mem_queue_cleanupOldSessions {h : ℤ}
    (hid : id ∈ (s.cleanupOldSessions h now order).queue d) : id ∈ s.queue d := by
  refine cleanupOldSessions_induction (I := fun t => id ∈ t.queue d → id ∈ s.queue d) now
    (fun t x p ht hp hx => ht ?_) h order (fun hx => hx) hid
  rw [removeOldSession_of_some t hp, queue_congr (forgetDiscovery_daemonSessions ..),
    queue_dequeue] at hx
  split_ifs at hx with hd
  · rw [hd]
    exact mem_of_mem_filter hx
  · exact hx

theorem mem_queue_sweepStalled (hid : id ∈ (s.sweepStalled ps now promotedAt db).queue d) :
    id ∈ s.queue d := by
  refine sweepStalled_induction (I := fun t => id ∈ t.queue d → id ∈ s.queue d) now promotedAt db
    (fun t q _ ht hx => ht ?_) (fun _ ht => ht) (fun hx => hx) hid
  cases hq : t.sessions.get q.sessionId with
  | none => rwa [sweepSession_of_none t now promotedAt db hq] at hx
  | some r =>
    rw [queue_sweepSession now promotedAt db hq] at hx
    split_ifs at hx
    · exact mem_of_mem_filter hx
    · exact hx

theorem queuedBy_of_mem (h : id ∈ (sec.apply s).queue d) :
    QueuedBy s sec d id := by
  cases sec with
  | read | mapDiscovery | track | store | setCancellation | dropSnapshot | pull => exact .kept h
  | enqueue p =>
    rw [Section.apply, queue_enqueue] at h
    split_ifs at h with hd
    · rcases mem_append.mp h with hid | hid
      · rw [hd]
        exact .kept hid
      · rw [hd, mem_singleton.mp hid]
        exact .enqueued
    · exact .kept h
  | update u now db =>
    rw [Section.apply] at h
    cases ht : u.phase.isTerminal with
    | false =>
      rw [queue_updateSession_of_not_terminal _ _ _ _ ht] at h
      split_ifs at h with hd
      · rcases mem_append.mp h with hid | hid
        · exact .kept hid
        · rw [hd.2, mem_singleton.mp hid]
          exact .created ht hd.1
      · exact .kept h
    | true =>
      cases hi : s.ignoresUpdate u with
      | true =>
        rw [updateSession_of_ignores _ _ _ _ hi] at h
        exact .kept h
      | false =>
        rw [queue_updateSession_of_terminal _ _ _ _ ht hi] at h
        split_ifs at h
        · exact .kept (mem_of_mem_filter h)
        · exact .kept h
  | cancelQueued p now =>
    rw [Section.apply, queue_cancelQueued] at h
    split_ifs at h
    · exact .kept (mem_of_mem_filter h)
    · exact .kept h
  | sweep => exact .kept (mem_queue_sweepStalled h)
  | acquire n =>
    rcases tryAcquire_cases s n with hs | ⟨-, hs⟩
    · rw [Section.apply, hs] at h
      exact .kept h
    · rw [Section.apply, hs] at h
      exact .kept h
  | promoteAwaiting n now order =>
    rw [Section.apply, queue_congr (promoteAwaiting_frame ..).1] at h
    exact .kept h
  | transition | take =>
    rw [Section.apply, queue_congr (transitionSessionToStarting_frame ..).1] at h
    exact .kept h
  | cleanupOld => exact .kept (mem_queue_cleanupOldSessions h)
  | clear x =>
    rw [Section.apply, queue_clearSessionsForDaemon] at h
    split_ifs at h with hd
    · cases h
    · exact .kept h

def Section.writesSnapshots : Section → Bool
  | acquire _ | dropSnapshot _ => true
  | _ => false

theorem runningSnapshots_apply (h : sec.writesSnapshots = false) :
    (sec.apply s).runningSnapshots = s.runningSnapshots := by
  cases sec with
  | acquire | dropSnapshot => cases h
  | read | mapDiscovery | track | store | enqueue | setCancellation | pull => rfl
  | update => exact updateSession_runningSnapshots ..
  | cancelQueued => exact cancelQueued_runningSnapshots ..
  | sweep => exact sweepStalled_runningSnapshots ..
  | promoteAwaiting => exact (promoteAwaiting_frame ..).2.2.2.1
  | transition | take => exact (transitionSessionToStarting_frame ..).2.2.2.1
  | cleanupOld => exact cleanupOldSessions_runningSnapshots ..
  | clear => exact clearSessionsForDaemon_runningSnapshots ..

inductive Forgets (s : DiscoveryService) : Section → Uuid → Prop
  | update {u : DiscoveryUpdatePayload} {now : Timestamp} {db : Storage}
      (ht : u.phase.isTerminal = true) (hi : s.ignoresUpdate u = false) :
      Forgets s (.update u now db) u.sessionId
  | cancelQueued {session : DiscoveryUpdatePayload} {now : Timestamp} :
      Forgets s (.cancelQueued session now) session.sessionId
  | sweep {ps : List DiscoveryUpdatePayload} {now promotedAt : Timestamp} {db : Storage}
      {id : Uuid} {p : DiscoveryUpdatePayload} (hp : s.sessions.get id = some p)
      (hgone : (s.sweepStalled ps now promotedAt db).sessions.get id = none) :
      Forgets s (.sweep ps now promotedAt db) id
  | cleanupOld {h : ℤ} {now : Timestamp} {order : List Uuid} {id : Uuid}
      {p : DiscoveryUpdatePayload} (hp : s.sessions.get id = some p)
      (hgone : (s.cleanupOldSessions h now order).sessions.get id = none) :
      Forgets s (.cleanupOld h now order) id
  | clear {d id : Uuid} (hid : id ∈ s.queue d) : Forgets s (.clear d) id

inductive Overwrites (s : DiscoveryService) : Section → Uuid → Prop
  | map {d id : Uuid} : Overwrites s (.mapDiscovery d id) d
  | create {u : DiscoveryUpdatePayload} {now : Timestamp} {db : Storage} {d : Uuid}
      (hv : s.sessions.get u.sessionId = none) (hi : s.ignoresUpdate u = false)
      (hd : u.discoveryId = some d) : Overwrites s (.update u now db) d

theorem Forgets.get_eq_none (h : Forgets s sec id) :
    (sec.apply s).sessions.get id = none := by
  cases h with
  | update ht hi => rw [Section.apply, get_updateSession_of_terminal _ _ _ _ ht hi, if_pos rfl]
  | cancelQueued => rw [Section.apply, get_cancelQueued, if_pos rfl]
  | sweep _ hgone => exact hgone
  | cleanupOld _ hgone => exact hgone
  | clear hid => rw [Section.apply, get_clearSessionsForDaemon, if_pos hid]

theorem get_discoverySessions_sweepStalled
    (h : s.discoverySessions.get d = some id) :
    (s.sweepStalled ps now promotedAt db).discoverySessions.get d = some id ∨
      (∃ p, s.sessions.get id = some p) ∧
        (s.sweepStalled ps now promotedAt db).sessions.get id = none := by
  refine sweepStalled_induction (I := fun t => (t.discoverySessions.get d = some id ∧
    ((∃ p, t.sessions.get id = some p) → ∃ p, s.sessions.get id = some p)) ∨
    (∃ p, s.sessions.get id = some p) ∧ t.sessions.get id = none) now promotedAt db
    (fun t q _ ht => ?_) (fun _ ht => ht) (.inl ⟨h, fun hp => hp⟩) |>.imp And.left fun hp => hp
  cases hq : t.sessions.get q.sessionId with
  | none => rwa [sweepSession_of_none t now promotedAt db hq]
  | some r =>
    rcases ht with ⟨hd, hstored⟩ | ⟨hstored, hgone⟩
    · by_cases hid : id = q.sessionId
      · subst hid
        refine .inr ⟨hstored ⟨r, hq⟩, ?_⟩
        rw [get_sweepSession now promotedAt db hq, if_pos rfl]
      · refine .inl ⟨?_, fun ⟨p, hp⟩ => hstored ?_⟩
        · rw [get_discoverySessions_sweepSession now promotedAt db hq, hd]
          simp [Option.filter, hid]
        · cases hg : t.sessions.get id with
          | some p' => exact ⟨p', rfl⟩
          | none =>
            rw [get_sweepSession_of_none now promotedAt db hg] at hp
            cases hp
    · exact .inr ⟨hstored, get_sweepSession_of_none now promotedAt db hgone q⟩

theorem get_discoverySessions_cleanupOldSessions {m : ℤ} (h : s.discoverySessions.get d = some id) :
    (s.cleanupOldSessions m now order).discoverySessions.get d = some id ∨
      (∃ p, s.sessions.get id = some p) ∧
        (s.cleanupOldSessions m now order).sessions.get id = none := by
  refine cleanupOldSessions_induction (I := fun t => (t.discoverySessions.get d = some id ∧
    ((∃ p, t.sessions.get id = some p) → ∃ p, s.sessions.get id = some p)) ∨
    (∃ p, s.sessions.get id = some p) ∧ t.sessions.get id = none) now
    (fun t x p ht hp => ?_) m order (.inl ⟨h, fun hp => hp⟩) |>.imp And.left fun hp => hp
  have hget : ∀ y, (t.removeOldSession x).sessions.get y =
      if y = x then none else t.sessions.get y := by
    intro y
    rw [removeOldSession_of_some t hp, forgetDiscovery_sessions, dequeue_sessions,
      pullCancellationForDaemon_sessions, removeSession_sessions, SessionMap.get_remove]
  have hdisc : (t.removeOldSession x).discoverySessions.get d =
      (t.discoverySessions.get d).filter (· ≠ x) := by
    rw [removeOldSession_of_some t hp, get_discoverySessions_forgetDiscovery]
    simp
  rcases ht with ⟨hd, hstored⟩ | ⟨hstored, hgone⟩
  · by_cases hid : id = x
    · subst hid
      refine .inr ⟨hstored ⟨p, hp⟩, ?_⟩
      rw [hget, if_pos rfl]
    · refine .inl ⟨?_, ?_⟩
      · rw [hdisc, hd]
        simp [Option.filter, hid]
      · rw [hget, if_neg hid]
        exact hstored
  · refine .inr ⟨hstored, ?_⟩
    rw [hget, hgone, ite_self]

theorem mapped_apply (h : s.discoverySessions.get d = some id) (sec : Section) :
    (sec.apply s).discoverySessions.get d = some id ∨ Forgets s sec id ∨ Overwrites s sec d := by
  have hfilter : ∀ x, id ≠ x → (s.discoverySessions.get d).filter (· ≠ x) = some id := by
    intro x hx
    rw [h]
    simp [Option.filter, hx]
  cases sec with
  | read | track | store | enqueue | setCancellation | dropSnapshot | pull => exact .inl h
  | mapDiscovery d' id' =>
    by_cases hd : d = d'
    · subst hd
      exact .inr (.inr .map)
    · refine .inl ?_
      rwa [Section.apply, mapDiscovery_discoverySessions, HashMap.get_insert, if_neg hd]
  | update u now db =>
    rw [Section.apply]
    by_cases hv : s.sessions.get u.sessionId = none ∧ u.discoveryId = some d
    · cases hi : s.ignoresUpdate u with
      | false => exact .inr (.inr (.create hv.1 hi hv.2))
      | true =>
        rw [updateSession_of_ignores _ _ _ _ hi]
        exact .inl h
    · cases ht : u.phase.isTerminal with
      | false =>
        rw [get_discoverySessions_updateSession_of_not_terminal _ _ _ _ ht, if_neg hv]
        exact .inl h
      | true =>
        cases hi : s.ignoresUpdate u with
        | true =>
          rw [updateSession_of_ignores _ _ _ _ hi]
          exact .inl h
        | false =>
          rw [get_discoverySessions_updateSession_of_terminal _ _ _ _ ht hi, if_neg hv]
          by_cases hid : id = u.sessionId
          · rw [hid]
            exact .inr (.inl (.update ht hi))
          · exact .inl (hfilter _ hid)
  | cancelQueued session now =>
    rw [Section.apply, get_discoverySessions_cancelQueued]
    by_cases hid : id = session.sessionId
    · rw [hid]
      exact .inr (.inl .cancelQueued)
    · exact .inl (hfilter _ hid)
  | sweep ps now promotedAt db =>
    rcases get_discoverySessions_sweepStalled h with hd | ⟨⟨p, hp⟩, hgone⟩
    · exact .inl hd
    · exact .inr (.inl (.sweep hp hgone))
  | acquire n =>
    rcases tryAcquire_cases s n with hs | ⟨-, hs⟩ <;> rw [Section.apply, hs] <;> exact .inl h
  | promoteAwaiting => rw [Section.apply, (promoteAwaiting_frame ..).2.1]; exact .inl h
  | transition | take =>
    rw [Section.apply, (transitionSessionToStarting_frame ..).2.1]
    exact .inl h
  | cleanupOld m now order =>
    rcases get_discoverySessions_cleanupOldSessions h with hd | ⟨⟨p, hp⟩, hgone⟩
    · exact .inl hd
    · exact .inr (.inl (.cleanupOld hp hgone))
  | clear x =>
    rw [Section.apply, get_discoverySessions_clearSessionsForDaemon]
    by_cases hid : id ∈ s.queue x
    · exact .inr (.inl (.clear hid))
    · rw [h]
      exact .inl (by simp [Option.filter, hid])

end Scanopy
