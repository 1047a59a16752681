import Scanopy.Discovery.SessionIds

/-! The three indexes of the sessions: `sessions`, the queues in `daemon_sessions` and
`discovery_sessions`. They are behind separate locks, so they agree only between the calls. -/

namespace Scanopy
open List Option DiscoveryService SessionMap Scanopy.System

def DiscoveryService.Placed (s : DiscoveryService) (id d : Uuid) : Prop :=
  (s.queue d).count id = 1 ∧ ∀ d', d' ≠ d → id ∉ s.queue d'

structure IndexesAgree (s : DiscoveryService) : Prop where
  placed : ∀ id p, s.sessions.get id = some p → s.Placed id p.daemonId
  queued : ∀ d, ∀ id ∈ s.queue d, ∃ p, s.sessions.get id = some p
  mapped : ∀ d id, s.discoverySessions.get d = some id → ∃ p, s.sessions.get id = some p

structure AgreeUpTo (waiting reserved : Set Uuid) (s : DiscoveryService) : Prop where
  placed : ∀ id p, s.sessions.get id = some p →
    s.Placed id p.daemonId ∨ id ∈ waiting ∧ ∀ d, id ∉ s.queue d
  queued : ∀ d, ∀ id ∈ s.queue d, ∃ p, s.sessions.get id = some p
  mapped : ∀ d id, s.discoverySessions.get d = some id →
    (∃ p, s.sessions.get id = some p) ∨ id ∈ reserved

namespace AgreeUpTo
variable {W R : Set Uuid} {s t : DiscoveryService}
variable {p u : DiscoveryUpdatePayload} {db : Storage} {now : Timestamp} {d id : Uuid}

theorem new : AgreeUpTo W R DiscoveryService.new where
  placed _ _ h := by cases h
  queued _ _ h := by cases h
  mapped _ _ h := by cases h

theorem mono {W' R' : Set Uuid} (h : AgreeUpTo W R s) (hW : W ⊆ W') (hR : R ⊆ R') :
    AgreeUpTo W' R' s where
  placed id p hp := (h.placed id p hp).imp_right fun hw => ⟨hW hw.1, hw.2⟩
  queued := h.queued
  mapped d id hd := (h.mapped d id hd).imp_right fun hr => hR hr

theorem of_mem_queue (h : AgreeUpTo W R s) (hid : id ∈ s.queue d) :
    ∃ p, s.sessions.get id = some p ∧ p.daemonId = d ∧ s.Placed id d := by
  obtain ⟨p, hp⟩ := h.queued d id hid
  rcases h.placed id p hp with hplaced | ⟨-, hnot⟩
  · have hd : p.daemonId = d := by
      by_contra hne
      exact hplaced.2 d (Ne.symm hne) hid
    exact ⟨p, hp, hd, hd ▸ hplaced⟩
  · exact absurd hid (hnot d)

theorem not_mem_queue (h : AgreeUpTo W R s) {d' : Uuid} (hid : id ∈ s.queue d) (hd : d ≠ d') :
    id ∉ s.queue d' := by
  intro hid'
  obtain ⟨p, hp, rfl, -⟩ := h.of_mem_queue hid
  obtain ⟨q, hq, rfl, -⟩ := h.of_mem_queue hid'
  cases hp.symm.trans hq
  exact hd rfl

theorem exists_iff_of_daemons
    (hget : (t.sessions.get id).map (·.daemonId) = (s.sessions.get id).map (·.daemonId)) :
    (∃ p, t.sessions.get id = some p) ↔ ∃ p, s.sessions.get id = some p := by
  rw [← isSome_iff_exists, ← isSome_iff_exists, ← isSome_map (f := (·.daemonId)), hget, isSome_map]

theorem of_daemons (h : AgreeUpTo W R s)
    (hget : ∀ id, (t.sessions.get id).map (·.daemonId) = (s.sessions.get id).map (·.daemonId))
    (hqueue : ∀ d, t.queue d = s.queue d)
    (hdisc : ∀ d id, t.discoverySessions.get d = some id →
      s.discoverySessions.get d = some id ∨ ∃ p, t.sessions.get id = some p) :
    AgreeUpTo W R t where
  placed id p hp := by
    obtain ⟨q, hq⟩ := (exists_iff_of_daemons (hget id)).mp ⟨p, hp⟩
    have hd : p.daemonId = q.daemonId := by
      have := hget id
      rw [hp, hq] at this
      exact some.inj this
    simp only [Placed, hqueue, hd]
    exact h.placed id q hq
  queued d id hid := by
    rw [hqueue] at hid
    exact (exists_iff_of_daemons (hget id)).mpr (h.queued d id hid)
  mapped d id hid := by
    rcases hdisc d id hid with hold | hstored
    · exact (h.mapped d id hold).imp_left (exists_iff_of_daemons (hget id)).mpr
    · exact .inl hstored

theorem of_mapped (h : AgreeUpTo W R s) {m : HashMap Uuid Uuid}
    (hm : ∀ d id, m.get d = some id → s.discoverySessions.get d = some id ∨ id ∈ R) :
    AgreeUpTo W R { s with discoverySessions := m } where
  placed := h.placed
  queued := h.queued
  mapped d id hid := by
    rcases hm d id hid with hold | hr
    · exact h.mapped d id hold
    · exact .inr hr

theorem of_left (h : AgreeUpTo W R s) {x dx : Uuid}
    (hx : ∀ p, s.sessions.get x = some p → p.daemonId = dx)
    (hgone : t.sessions.get x = none)
    (hget : ∀ id, id ≠ x →
      (t.sessions.get id).map (·.daemonId) = (s.sessions.get id).map (·.daemonId))
    (hqueue : ∀ d, t.queue d = if d = dx then (s.queue d).filter (· ≠ x) else s.queue d)
    (hdisc : ∀ d id, t.discoverySessions.get d = some id →
      s.discoverySessions.get d = some id ∧ id ≠ x) : AgreeUpTo W R t := by
  have hmem : ∀ d id, id ∈ t.queue d → id ∈ s.queue d ∧ id ≠ x := by
    intro d id hid
    rw [hqueue] at hid
    split_ifs at hid with hd
    · simpa using hid
    · refine ⟨hid, ?_⟩
      rintro rfl
      obtain ⟨p, hp, hpd, -⟩ := h.of_mem_queue hid
      exact hd (hpd.symm.trans (hx p hp))
  have hcount : ∀ d id, id ≠ x → (t.queue d).count id = (s.queue d).count id := by
    intro d id hid
    rw [hqueue]
    split_ifs
    · exact count_filter (by simpa using hid)
    · rfl
  refine ⟨fun id p hp => ?_, fun d id hid => ?_, fun d id hid => ?_⟩
  · have hne : id ≠ x := by
      rintro rfl
      cases hgone.symm.trans hp
    obtain ⟨q, hq⟩ := (exists_iff_of_daemons (hget id hne)).mp ⟨p, hp⟩
    have hd : p.daemonId = q.daemonId := by
      have := hget id hne
      rw [hp, hq] at this
      exact some.inj this
    rw [hd]
    rcases h.placed id q hq with hplaced | ⟨hw, hnot⟩
    · refine .inl ⟨(hcount _ id hne).trans hplaced.1, fun d' hd' hid => ?_⟩
      exact hplaced.2 d' hd' (hmem d' id hid).1
    · exact .inr ⟨hw, fun d hid => hnot d (hmem d id hid).1⟩
  · obtain ⟨hold, hne⟩ := hmem d id hid
    exact (exists_iff_of_daemons (hget id hne)).mpr (h.queued d id hold)
  · obtain ⟨hold, hne⟩ := hdisc d id hid
    exact (h.mapped d id hold).imp_left (exists_iff_of_daemons (hget id hne)).mpr

theorem store (h : AgreeUpTo W R s)
    (hfree : s.sessions.get p.sessionId = none) (hw : p.sessionId ∈ W) :
    AgreeUpTo W (R \ {p.sessionId}) (s.storeSession p) := by
  have hget : ∀ id, (s.storeSession p).sessions.get id =
      if id = p.sessionId then some p else s.sessions.get id := fun id => get_put ..
  have hmono : ∀ id, (∃ q, s.sessions.get id = some q) →
      ∃ q, (s.storeSession p).sessions.get id = some q := by
    intro id hq
    rw [hget]
    split_ifs
    · exact ⟨p, rfl⟩
    · exact hq
  refine ⟨fun id q hq => ?_, fun d id hid => hmono id (h.queued d id hid), fun d id hid => ?_⟩
  · rw [hget] at hq
    split_ifs at hq with hid
    · refine .inr ⟨hid ▸ hw, fun d hmem => ?_⟩
      obtain ⟨r, hr⟩ := h.queued d id hmem
      rw [hid, hfree] at hr
      cases hr
    · exact h.placed id q hq
  · by_cases hne : id = p.sessionId
    · exact .inl ⟨p, by rw [hget, if_pos hne]⟩
    · exact (h.mapped d id hid).imp (hmono id) fun hr => ⟨hr, hne⟩

theorem enqueue (h : AgreeUpTo W R s) {q : DiscoveryUpdatePayload}
    (hq : s.sessions.get p.sessionId = some q) (hd : q.daemonId = p.daemonId)
    (hnot : p.sessionId ∉ s.queue p.daemonId) :
    AgreeUpTo (W \ {p.sessionId}) R (s.enqueue p.daemonId p.sessionId) := by
  -- the session is stored and not in its own queue, so it is in no queue
  have hfree : ∀ d, p.sessionId ∉ s.queue d := by
    rcases h.placed _ q hq with hplaced | ⟨-, hfree⟩
    · rw [hd] at hplaced
      have hpos : 0 < (s.queue p.daemonId).count p.sessionId := by
        rw [hplaced.1]
        exact Nat.one_pos
      exact absurd (count_pos_iff.mp hpos) hnot
    · exact hfree
  have hqueue := queue_enqueue s p.daemonId p.sessionId
  refine ⟨fun id r hr => ?_, fun d id hid => ?_, h.mapped⟩
  · by_cases hid : id = p.sessionId
    · subst hid
      cases hq.symm.trans hr
      refine .inl ⟨?_, fun d' hd' => ?_⟩
      · rw [hd, hqueue, if_pos rfl, count_append, count_eq_zero.mpr (hfree _)]
        simp
      · rw [hqueue, if_neg (hd ▸ hd')]
        exact hfree d'
    · have hmem : ∀ d, id ∈ (s.enqueue p.daemonId p.sessionId).queue d → id ∈ s.queue d := by
        intro d hmem
        rw [hqueue] at hmem
        split_ifs at hmem with hd'
        · rw [hd']
          simpa [hid] using hmem
        · exact hmem
      rcases h.placed id r hr with hplaced | ⟨hw, hnone⟩
      · refine .inl ⟨?_, fun d' hd' hmem' => hplaced.2 d' hd' (hmem d' hmem')⟩
        rw [hqueue]
        split_ifs with hd'
        · rw [count_append, ← hd', hplaced.1, count_singleton, if_neg]
          simpa using Ne.symm hid
        · exact hplaced.1
      · exact .inr ⟨⟨hw, hid⟩, fun d hmem' => hnone d (hmem d hmem')⟩
  · rw [hqueue] at hid
    split_ifs at hid with hd'
    · rcases mem_append.mp hid with hid | hid
      · exact h.queued _ id hid
      · rw [mem_singleton.mp hid]
        exact ⟨q, hq⟩
    · exact h.queued d id hid

theorem created (h : AgreeUpTo W R s)
    (ht : u.phase.isTerminal = false) (hv : s.sessions.get u.sessionId = none) :
    AgreeUpTo W R (s.updateSession u now db) := by
  have hstored : AgreeUpTo (insert u.sessionId W) (R \ {u.sessionId}) (s.storeSession u) :=
    (h.mono (Set.subset_insert _ _) subset_rfl).store hv (Set.mem_insert _ _)
  have hget : (s.storeSession u).sessions.get u.sessionId = some u := by
    rw [storeSession_sessions, get_put, if_pos rfl]
  have hnot : u.sessionId ∉ (s.storeSession u).queue u.daemonId := by
    intro hmem
    obtain ⟨p, hp⟩ := h.queued _ _ hmem
    cases hv.symm.trans hp
  have hqueued := hstored.enqueue hget rfl hnot
  have hW : insert u.sessionId W \ {u.sessionId} ⊆ W := by
    rintro x ⟨hx, hne⟩
    exact hx.resolve_left hne
  refine (hqueued.mono hW Set.sdiff_subset).of_daemons (fun id => ?_) (fun d => ?_)
    fun d id hd => ?_
  · rw [get_updateSession_of_not_terminal _ _ _ _ ht, enqueue_sessions, storeSession_sessions,
      get_put]
  · rw [queue_updateSession_of_not_terminal _ _ _ _ ht, queue_enqueue]
    by_cases hd : d = u.daemonId
    · rw [if_pos ⟨hv, hd⟩, if_pos hd, hd]
      rfl
    · rw [if_neg fun h => hd h.2, if_neg hd]
      rfl
  · rw [get_discoverySessions_updateSession_of_not_terminal _ _ _ _ ht] at hd
    split_ifs at hd with hu
    · cases hd
      refine .inr ⟨u, ?_⟩
      rw [get_updateSession_of_not_terminal _ _ _ _ ht, if_pos rfl]
    · exact .inl hd

theorem update (h : AgreeUpTo W R s)
    (hu : ∀ p, s.sessions.get u.sessionId = some p → p.daemonId = u.daemonId) :
    AgreeUpTo W R (s.updateSession u now db) := by
  cases ht : u.phase.isTerminal with
  | false =>
    cases hq : s.sessions.get u.sessionId with
    | none => exact h.created ht hq
    | some q =>
      have hv : ∀ P : Prop, ¬ (s.sessions.get u.sessionId = none ∧ P) := by
        rintro P ⟨hnone, -⟩
        cases hq.symm.trans hnone
      refine h.of_daemons (fun id => ?_) (fun d => ?_) fun d id hd => .inl ?_
      · rw [get_updateSession_of_not_terminal _ _ _ _ ht]
        split_ifs with hid
        · rw [hid, hq, map_some, map_some, hu q hq]
        · rfl
      · rw [queue_updateSession_of_not_terminal _ _ _ _ ht, if_neg (hv _)]
      · rwa [get_discoverySessions_updateSession_of_not_terminal _ _ _ _ ht, if_neg (hv _)] at hd
  | true =>
    cases hi : s.ignoresUpdate u with
    | true =>
      rw [updateSession_of_ignores _ _ _ _ hi]
      exact ⟨h.placed, h.queued, h.mapped⟩
    | false =>
      refine h.of_left hu ?_ (fun id hid => ?_) (queue_updateSession_of_terminal _ _ _ _ ht hi)
        fun d id hd => ?_
      · rw [get_updateSession_of_terminal _ _ _ _ ht hi, if_pos rfl]
      · rw [get_updateSession_of_terminal _ _ _ _ ht hi, if_neg hid]
        split_ifs
        · rw [Option.map_map]
          rfl
        · rfl
      · rw [get_discoverySessions_updateSession_of_terminal _ _ _ _ ht hi] at hd
        split_ifs at hd
        simpa [filter_eq_some_iff] using hd

theorem cancelQueued (h : AgreeUpTo W R s) {session : DiscoveryUpdatePayload}
    (hs : ∀ p, s.sessions.get session.sessionId = some p → p.daemonId = session.daemonId) :
    AgreeUpTo W R (s.cancelQueued session now) := by
  refine h.of_left hs ?_ (fun id hid => ?_) (queue_cancelQueued s session now) fun d id hd => ?_
  · rw [get_cancelQueued, if_pos rfl]
  · rw [get_cancelQueued, if_neg hid]
    split_ifs
    · rw [Option.map_map]
      rfl
    · rfl
  · rw [get_discoverySessions_cancelQueued] at hd
    simpa [filter_eq_some_iff] using hd

theorem sweepSession (h : AgreeUpTo W R s) (now promotedAt : Timestamp) (db : Storage)
    (q : DiscoveryUpdatePayload) : AgreeUpTo W R (s.sweepSession now promotedAt db q) := by
  cases hr : s.sessions.get q.sessionId with
  | none => rwa [sweepSession_of_none s now promotedAt db hr]
  | some r =>
    refine h.of_left (fun p hp => ?_) ?_ (fun id hid => ?_)
      (queue_sweepSession now promotedAt db hr) fun d id hd => ?_
    · cases hr.symm.trans hp
      rfl
    · rw [get_sweepSession now promotedAt db hr, if_pos rfl]
    · rw [get_sweepSession now promotedAt db hr, if_neg hid]
      split_ifs
      · rw [Option.map_map]
        rfl
      · rfl
    · rw [get_discoverySessions_sweepSession now promotedAt db hr] at hd
      simpa [filter_eq_some_iff] using hd

theorem sweep (h : AgreeUpTo W R s) (ps : List DiscoveryUpdatePayload)
    (now promotedAt : Timestamp) (db : Storage) :
    AgreeUpTo W R (s.sweepStalled ps now promotedAt db) :=
  sweepStalled_induction now promotedAt db (fun _ q _ ht => ht.sweepSession now promotedAt db q)
    (fun _ ht => ⟨ht.placed, ht.queued, ht.mapped⟩) h

theorem cleanupOld (h : AgreeUpTo W R s) (m : ℤ) (now : Timestamp) (order : List Uuid) :
    AgreeUpTo W R (s.cleanupOldSessions m now order) := by
  refine cleanupOldSessions_induction now (fun t x p ht hp => ?_) m order h
  rw [removeOldSession_of_some t hp]
  have hdaemon : ∀ q, t.sessions.get x = some q → q.daemonId = p.daemonId := by
    intro q hq
    cases hp.symm.trans hq
    rfl
  refine ht.of_left hdaemon ?_ (fun id hid => ?_) (fun d => ?_) fun d id hd => ?_
  · simp [SessionMap.get_remove]
  · simp [SessionMap.get_remove, hid]
  · rw [queue_congr (forgetDiscovery_daemonSessions ..), queue_dequeue]
    split_ifs with hd
    · rw [hd]
      rfl
    · rfl
  · rw [get_discoverySessions_forgetDiscovery] at hd
    simpa [filter_eq_some_iff] using hd

theorem clear (h : AgreeUpTo W R s) (x : Uuid) : AgreeUpTo W R (s.clearSessionsForDaemon x) := by
  have hmem : ∀ d id, id ∈ (s.clearSessionsForDaemon x).queue d → id ∈ s.queue d ∧ d ≠ x := by
    intro d id hid
    rw [queue_clearSessionsForDaemon] at hid
    split_ifs at hid with hd
    · cases hid
    · exact ⟨hid, hd⟩
  refine ⟨fun id p hp => ?_, fun d id hid => ?_, fun d id hid => ?_⟩
  · rw [get_clearSessionsForDaemon] at hp
    split_ifs at hp with hx
    rcases h.placed id p hp with hplaced | ⟨hw, hnot⟩
    · have hd : p.daemonId ≠ x := by
        rintro rfl
        have hpos : 0 < (s.queue p.daemonId).count id := by
          rw [hplaced.1]
          exact Nat.one_pos
        exact hx (count_pos_iff.mp hpos)
      refine .inl ⟨?_, fun d' hd' hid => hplaced.2 d' hd' (hmem d' id hid).1⟩
      rw [queue_clearSessionsForDaemon, if_neg hd]
      exact hplaced.1
    · exact .inr ⟨hw, fun d hid => hnot d (hmem d id hid).1⟩
  · obtain ⟨hold, hd⟩ := hmem d id hid
    rw [get_clearSessionsForDaemon, if_neg (h.not_mem_queue hold hd)]
    exact h.queued d id hold
  · rw [get_discoverySessions_clearSessionsForDaemon, filter_eq_some_iff, decide_eq_true_eq] at hid
    rw [get_clearSessionsForDaemon, if_neg hid.2]
    exact h.mapped d id hid.1

theorem releaseSession (h : AgreeUpTo W R s) (now : Timestamp) (x : Uuid) :
    AgreeUpTo W R (s.releaseSession now x) := by
  cases hx : s.sessions.get x with
  | none => rwa [releaseSession_of_none now hx]
  | some p =>
    refine h.of_daemons (fun id => ?_) (queue_congr (releaseSession_frame ..).1)
      fun d id hd => .inl ?_
    · rw [get_releaseSession now hx]
      split_ifs with hid
      · rw [hid, hx]
        rfl
      · rfl
    · rwa [(releaseSession_frame ..).2.1] at hd

theorem promoteAwaiting (h : AgreeUpTo W R s) (n : Uuid) (now : Timestamp) (order : List Uuid) :
    AgreeUpTo W R (s.promoteAwaiting n now order) :=
  releaseSessions_induction now (fun _ x ht => ht.releaseSession now x) _ h

theorem transition (h : AgreeUpTo W R s) (x : Uuid) (now : Timestamp) :
    AgreeUpTo W R (s.transitionSessionToStarting x now) := by
  refine h.of_daemons (fun id => ?_)
    (queue_congr (transitionSessionToStarting_frame ..).1) fun d id hd => .inl ?_
  · rw [get_transitionSessionToStarting]
    split_ifs
    · rw [Option.map_map]
      rfl
    · rfl
  · rwa [(transitionSessionToStarting_frame ..).2.1] at hd

end AgreeUpTo

/-- The sections name a session's daemon as the session does: a daemon's update and a cancellation
act on the queue of the daemon of the stored session, and `start_session` queues a session that is
still stored and not queued. -/
def KeepsIndexes (s : System) : Section → Prop
  | .update u _ _ => ∀ p, s.svc.sessions.get u.sessionId = some p → p.daemonId = u.daemonId
  | .cancelQueued session _ =>
    ∀ p, s.svc.sessions.get session.sessionId = some p → p.daemonId = session.daemonId
  | .enqueue p => (∃ q, s.svc.sessions.get p.sessionId = some q ∧ q.daemonId = p.daemonId) ∧
    p.sessionId ∉ s.svc.queue p.daemonId
  | _ => True

/-- The sessions that `start_session` calls have stored and not queued. -/
def System.toQueue (s : System) : Set Uuid :=
  { id | ∃ c p, s.calls.get c = some (.startStored p) ∧ p.sessionId = id }

def System.AgreesInFlight (s : System) : Prop :=
  AgreeUpTo s.toQueue { id | id ∈ s.history.unpublished } s.svc

section Step
variable {s : System} {c : ℕ} {k : Call} {e : Env} {sec : Section} {k' : Option Call}

theorem System.AgreesInFlight.spawn (h : s.AgreesInFlight) (hc : s.calls.get c = none) :
    (s.spawn c k).AgreesInFlight := by
  refine h.mono ?_ subset_rfl
  rintro id ⟨c', p, hc', hp⟩
  refine ⟨c', p, ?_, hp⟩
  rw [get_calls_spawn, if_neg, hc']
  rintro rfl
  cases hc.symm.trans hc'

theorem toQueue_subset_after (hc : s.calls.get c = some k) (hf : Fires s e k sec k')
    {W : Set Uuid} (hW : W ⊆ s.toQueue) (hne : ∀ p, sec = .enqueue p → p.sessionId ∉ W) :
    W ⊆ (s.after c sec k').toQueue := by
  intro id hid
  obtain ⟨c', p, hc', rfl⟩ := hW hid
  refine ⟨c', p, ?_, rfl⟩
  rw [get_calls_after, if_neg, hc']
  rintro rfl
  cases hc.symm.trans hc'
  cases hf
  exact hne p rfl hid

theorem agreesInFlight_next (hids : IdsInv s) (h : s.AgreesInFlight)
    (hc : s.calls.get c = some k) (hf : Fires s e k sec k') (hok : KeepsIndexes s sec) :
    (s.after c sec k').AgreesInFlight := by
  have hsec := hids.fromIds hc hf
  -- the sections that neither reserve, store nor queue an id
  have hsame : (∀ p, sec ≠ .enqueue p) →
      (s.history.observe s.svc sec).unpublished = s.history.unpublished →
      AgreeUpTo s.toQueue { id | id ∈ s.history.unpublished } (sec.apply s.svc) →
      (s.after c sec k').AgreesInFlight := by
    intro hne hun hagree
    refine hagree.mono (toQueue_subset_after hc hf subset_rfl fun p hp => absurd hp (hne p)) ?_
    change { id | id ∈ s.history.unpublished } ⊆
      { id | id ∈ (s.history.observe s.svc sec).unpublished }
    rw [hun]
  cases sec with
  | read | track | setCancellation | dropSnapshot | pull =>
    exact hsame (by rintro _ ⟨⟩) rfl ⟨h.placed, h.queued, h.mapped⟩
  | mapDiscovery d fresh =>
    refine AgreeUpTo.mono (R := insert fresh { id | id ∈ s.history.unpublished }) ?_
      (toQueue_subset_after hc hf subset_rfl (by rintro _ ⟨⟩))
      (fun id hid => Finset.mem_insert.mpr hid)
    refine (h.mono subset_rfl (Set.subset_insert _ _)).of_mapped fun d' id hd => ?_
    change (s.svc.discoverySessions.insert d fresh).get d' = some id at hd
    rw [HashMap.get_insert] at hd
    split_ifs at hd
    · cases hd
      exact .inr (Set.mem_insert _ _)
    · exact .inl hd
  | store p =>
    have hfree : s.svc.sessions.get p.sessionId = none := by
      by_contra hne
      obtain ⟨q, hq⟩ := ne_none_iff_exists'.mp hne
      exact (hids.stored _ q hq).1.2 hsec.1
    have hW : insert p.sessionId s.toQueue ⊆ (s.after c (.store p) k').toQueue := by
      refine Set.insert_subset ?_ (toQueue_subset_after hc hf subset_rfl (by rintro _ ⟨⟩))
      cases hf
      exact ⟨c, p, by rw [get_calls_after, if_pos rfl], rfl⟩
    have hstored := (h.mono (Set.subset_insert p.sessionId _) subset_rfl).store hfree
      (Set.mem_insert _ _)
    exact hstored.mono hW fun id hid => Finset.mem_erase.mpr ⟨hid.2, hid.1⟩
  | enqueue p =>
    obtain ⟨⟨q, hq, hd⟩, hnot⟩ := hok
    refine (h.enqueue hq hd hnot).mono (toQueue_subset_after hc hf Set.sdiff_subset ?_) subset_rfl
    rintro p' ⟨⟩ hid
    exact hid.2 rfl
  | update => exact hsame (by rintro _ ⟨⟩) rfl (h.update hok)
  | cancelQueued => exact hsame (by rintro _ ⟨⟩) rfl (h.cancelQueued hok)
  | sweep ps now promotedAt db => exact hsame (by rintro _ ⟨⟩) rfl (h.sweep ps now promotedAt db)
  | acquire n =>
    refine hsame (by rintro _ ⟨⟩) rfl ?_
    rcases tryAcquire_cases s.svc n with hs | ⟨-, hs⟩ <;> rw [Section.apply, hs]
    · exact h
    · exact ⟨h.placed, h.queued, h.mapped⟩
  | promoteAwaiting n now order => exact hsame (by rintro _ ⟨⟩) rfl (h.promoteAwaiting n now order)
  | transition id now | take id now => exact hsame (by rintro _ ⟨⟩) rfl (h.transition id now)
  | cleanupOld m now order => exact hsame (by rintro _ ⟨⟩) rfl (h.cleanupOld m now order)
  | clear d => exact hsame (by rintro _ ⟨⟩) rfl (h.clear d)

end Step

theorem agreesInFlight_of_keeps_indexes {s : System} (hs : ReachedWith KeepsIndexes s) :
    s.AgreesInFlight := by
  refine ReachedWith.invariant_ids (I := System.AgreesInFlight) ?_ (fun s c k _ h hc _ => ?_)
    (fun _ _ _ _ _ _ hids h hc hf hok => agreesInFlight_next hids h hc hf hok) hs
  · exact .new
  · exact h.spawn hc

/-- When no call runs, nothing waits to be queued or stored. -/
theorem indexes_agree_of_keeps_indexes {s : System} (hs : ReachedWith KeepsIndexes s)
    (hq : s.Quiescent) : IndexesAgree s.svc := by
  have hids := idsInv_of_reached hs
  have hagree := agreesInFlight_of_keeps_indexes hs
  refine ⟨fun id p hp => ?_, hagree.queued, fun d id hid => ?_⟩
  · rcases hagree.placed id p hp with hplaced | ⟨⟨c, q, hc, -⟩, -⟩
    · exact hplaced
    · cases (hq c).symm.trans hc
  · rcases hagree.mapped d id hid with hstored | hun
    · exact hstored
    · obtain ⟨c, k, p, hc, -⟩ := hids.holder id hun
      cases (hq c).symm.trans hc

def twoSessionsRun : List Label :=
  startRun 0 exampleDiscovery 10 ++
    updateRun 1 { exampleUpdate 11 .scanning with discoveryId := some 101 } [100]

theorem indexes_agree_twoSessionsRun :
    sessionSystem.run .init twoSessionsRun = some (endState twoSessionsRun) ∧
      (endState twoSessionsRun).svc.queue 1 = [10, 11] ∧
      (endState twoSessionsRun).svc.discoverySessions.get 101 = some 11 ∧
      IndexesAgree (endState twoSessionsRun).svc := by
  have hrun := run_endState twoSessionsRun (by decide +kernel)
  refine ⟨hrun, by decide +kernel, by decide +kernel, indexes_agree_of_keeps_indexes ?_
    (quiescent_of_keys (by decide +kernel))⟩
  refine reachedWith_of_run (f := fun s sec => match sec with
    | .update u .. => (s.svc.sessions.get u.sessionId).all fun p => decide (p.daemonId = u.daemonId)
    | .enqueue p => (s.svc.sessions.get p.sessionId).any (fun q => decide (q.daemonId = p.daemonId))
      && decide (p.sessionId ∉ s.svc.queue p.daemonId)
    | .cancelQueued .. => false
    | _ => true) (fun s sec hsec => ?_) hrun (by decide +kernel)
  cases sec with
  | update u now db =>
    intro p hp
    simpa [hp] using hsec
  | enqueue p =>
    simp only [Bool.and_eq_true, Option.any_eq_true, decide_eq_true_eq] at hsec
    exact hsec
  | cancelQueued => cases hsec
  | _ => trivial

def ghostRun : List Label :=
  .call 0 (.startCalled exampleDiscovery) :: .next 0 {} :: .next 0 { freshId := 10 } ::
    List.replicate 4 (.next 0 {}) ++ callRun 1 (.cancelCalled 10) [{}, {}, {}] ++ [.next 0 {}]

theorem not_indexes_agree :
    ¬ ∀ s, sessionSystem.Reachable s → s.Quiescent → IndexesAgree s.svc := by
  intro h
  have hs := h _ (reachable_endState ghostRun (by decide +kernel))
    (quiescent_of_keys (by decide +kernel))
  obtain ⟨p, hp⟩ := hs.queued 1 10 (by decide +kernel)
  have hgone : ((endState ghostRun).svc.sessions.get 10).isNone = true := by decide +kernel
  rw [hp] at hgone
  cases hgone

end Scanopy
