import Scanopy.Discovery.Indexes
import Scanopy.Discovery.SnapshotExclusion

/-! Queues that move: one of the queued sessions is Pending or dispatched, or awaits a snapshot.
Each function that takes a session out of a queue decides by itself whether to promote the next. -/

namespace Scanopy
open List Option Bool DiscoveryService

def NoStuckQueue (s : DiscoveryService) : Prop :=
  ∀ d, s.queue d ≠ [] →
    (∀ id ∈ s.queue d, ∀ p, s.sessions.get id = some p → p.networkId ∉ s.runningSnapshots) →
    ∃ id ∈ s.queue d, ∃ p, s.sessions.get id = some p ∧ p.phase.canBeCleanedUp = true

/-- Another session than `x` in the daemon's queue is not Queued. -/
def DiscoveryService.HasMover (s : DiscoveryService) (d x : Uuid) : Prop :=
  ∃ id ∈ s.queue d, id ≠ x ∧ ∃ p, s.sessions.get id = some p ∧ p.phase ≠ .queued

def Moves (s : DiscoveryService) : Prop :=
  ∀ d, s.queue d ≠ [] → ∃ id ∈ s.queue d, ∃ p, s.sessions.get id = some p ∧ p.phase ≠ .queued

/-- Daemons report neither Queued nor AwaitingSnapshot; `cancel_session` takes a session out
without promoting the next one only if it is Queued or leaves another that is not; and
`start_session` queues a session as Queued only if the queue is not empty. -/
def KeepsMoving (s : System) : Section → Prop
  | .update u _ _ =>
    (∀ p, s.svc.sessions.get u.sessionId = some p → p.daemonId = u.daemonId) ∧
      u.phase ≠ .queued ∧ u.phase ≠ .awaitingSnapshot
  | .cancelQueued session _ =>
    ∀ p, s.svc.sessions.get session.sessionId = some p → p.daemonId = session.daemonId ∧
      (session.phase = .pending ∨ p.phase = .queued ∨
        s.svc.nextInQueue session.daemonId session.sessionId = none ∨
        s.svc.HasMover session.daemonId session.sessionId)
  | .enqueue p => p.sessionId ∉ s.svc.queue p.daemonId ∧
    ∃ q, s.svc.sessions.get p.sessionId = some q ∧ q.daemonId = p.daemonId ∧
      (q.phase = .queued → s.svc.queue p.daemonId ≠ [])
  | .cleanupOld m now order => s.svc.oldSessionIds (now - hours m) order = []
  | _ => True

theorem KeepsMoving.keepsIndexes {s : System} {sec : Section} (h : KeepsMoving s sec) :
    KeepsIndexes s sec := by
  cases sec with
  | update => exact h.1
  | cancelQueued => exact fun p hp => (h p hp).1
  | enqueue p =>
    obtain ⟨hnot, q, hq, hd, -⟩ := h
    exact ⟨⟨q, hq, hd⟩, hnot⟩
  | _ => trivial

theorem promoted_ne_queued (p : DiscoveryUpdatePayload) :
    (p.withPhase .pending).phase ≠ .queued := by
  rw [DiscoveryUpdatePayload.withPhase_phase]
  decide

namespace Moves
variable {W R : Set Uuid} {s t : DiscoveryService}
variable {p : DiscoveryUpdatePayload} {now : Timestamp}

theorem hasMover (h : Moves s) {d x : Uuid} (hne : s.queue d ≠ [])
    (hx : ∀ p, s.sessions.get x = some p → p.phase = .queued) : s.HasMover d x := by
  obtain ⟨id, hid, p, hp, hph⟩ := h d hne
  refine ⟨id, hid, ?_, p, hp, hph⟩
  rintro rfl
  exact hph (hx p hp)

theorem of_queue (h : Moves s) (hqueue : ∀ d, t.queue d = s.queue d)
    (hget : ∀ d, ∀ id ∈ s.queue d, ∀ p, s.sessions.get id = some p → p.phase ≠ .queued →
      ∃ q, t.sessions.get id = some q ∧ q.phase ≠ .queued) : Moves t := by
  intro d hne
  rw [hqueue] at hne ⊢
  obtain ⟨id, hid, p, hp, hph⟩ := h d hne
  exact ⟨id, hid, hget d id hid p hp hph⟩

theorem of_left (h : Moves s) (hagree : AgreeUpTo W R s) {x dx : Uuid}
    (hx : ∀ p, s.sessions.get x = some p → p.daemonId = dx)
    (hget : ∀ id, id ≠ x → ∀ p, s.sessions.get id = some p → p.phase ≠ .queued →
      ∃ q, t.sessions.get id = some q ∧ q.phase ≠ .queued)
    (hqueue : ∀ d, t.queue d = if d = dx then (s.queue d).filter (· ≠ x) else s.queue d)
    (hnext : ∀ y, s.nextInQueue dx x = some y →
      ∃ id ∈ s.queue dx, id ≠ x ∧ ∃ q, t.sessions.get id = some q ∧ q.phase ≠ .queued) :
    Moves t := by
  intro d hne
  rw [hqueue] at hne ⊢
  split_ifs at hne ⊢ with hd
  · subst hd
    obtain ⟨y, hy⟩ : ∃ y, s.nextInQueue d x = some y := isSome_iff_exists.mp (isSome_head?.mpr hne)
    obtain ⟨id, hid, hidx, q, hq, hph⟩ := hnext y hy
    refine ⟨id, ?_, q, hq, hph⟩
    rw [mem_filter, decide_eq_true_eq]
    exact ⟨hid, hidx⟩
  · obtain ⟨id, hid, p, hp, hph⟩ := h d hne
    have hidx : id ≠ x := by
      rintro rfl
      obtain ⟨q, hq, rfl, -⟩ := hagree.of_mem_queue hid
      exact hd (hx q hq)
    exact ⟨id, hid, hget id hidx p hp hph⟩

theorem update (h : Moves s) (hagree : AgreeUpTo W R s) {u : DiscoveryUpdatePayload} {db : Storage}
    (hu : ∀ p, s.sessions.get u.sessionId = some p → p.daemonId = u.daemonId)
    (hph : u.phase ≠ .queued) : Moves (s.updateSession u now db) := by
  cases ht : u.phase.isTerminal with
  | false =>
    have hget : (s.updateSession u now db).sessions.get u.sessionId = some u := by
      rw [get_updateSession_of_not_terminal _ _ _ _ ht, if_pos rfl]
    intro d hne
    rw [queue_updateSession_of_not_terminal _ _ _ _ ht] at hne ⊢
    split_ifs at hne ⊢ with hv
    · exact ⟨u.sessionId, mem_append_right _ mem_cons_self, u, hget, hph⟩
    · obtain ⟨id, hid, p, hp, hph'⟩ := h d hne
      by_cases hidu : id = u.sessionId
      · exact ⟨id, hid, u, hidu ▸ hget, hph⟩
      · refine ⟨id, hid, p, ?_, hph'⟩
        rw [get_updateSession_of_not_terminal _ _ _ _ ht, if_neg hidu, hp]
  | true =>
    cases hi : s.ignoresUpdate u with
    | true =>
      rw [updateSession_of_ignores _ _ _ _ hi]
      exact h
    | false =>
      -- the next session is promoted, whatever its phase is
      have hget := get_updateSession_of_terminal s u now db ht hi
      refine h.of_left hagree hu (fun id hid p hp hph' => ?_)
        (queue_updateSession_of_terminal _ _ _ _ ht hi) fun y hy => ?_
      · rw [hget, if_neg hid]
        split_ifs
        · rw [hp]
          exact ⟨_, rfl, promoted_ne_queued p⟩
        · exact ⟨p, hp, hph'⟩
      · obtain ⟨hmem, hyu⟩ := nextInQueue_eq_some hy
        obtain ⟨p, hp⟩ := hagree.queued _ _ hmem
        refine ⟨y, hmem, hyu, p.withPhase .pending, ?_, promoted_ne_queued p⟩
        rw [hget, if_neg hyu, if_pos hy, hp]
        rfl

theorem cancelQueued (h : Moves s) (hagree : AgreeUpTo W R s) {session : DiscoveryUpdatePayload}
    (hs : ∀ p, s.sessions.get session.sessionId = some p → p.daemonId = session.daemonId ∧
      (session.phase = .pending ∨ p.phase = .queued ∨
        s.nextInQueue session.daemonId session.sessionId = none ∨
        s.HasMover session.daemonId session.sessionId)) :
    Moves (s.cancelQueued session now) := by
  have hget := get_cancelQueued s session now
  have hkeep : ∀ id, id ≠ session.sessionId → ∀ p, s.sessions.get id = some p → p.phase ≠ .queued →
      ∃ q, (s.cancelQueued session now).sessions.get id = some q ∧ q.phase ≠ .queued := by
    intro id hid p hp hph
    rw [hget, if_neg hid]
    split_ifs
    · rw [hp]
      exact ⟨_, rfl, promoted_ne_queued p⟩
    · exact ⟨p, hp, hph⟩
  refine h.of_left hagree (fun p hp => (hs p hp).1) hkeep (queue_cancelQueued s session now)
    fun y hy => ?_
  obtain ⟨hmem, hys⟩ := nextInQueue_eq_some hy
  by_cases hpending : session.phase = .pending
  · obtain ⟨p, hp⟩ := hagree.queued _ _ hmem
    refine ⟨y, hmem, hys, p.withPhase .pending, ?_, promoted_ne_queued p⟩
    rw [hget, if_neg hys, if_pos ⟨hpending, hy⟩, hp]
    rfl
  · have hmover : s.HasMover session.daemonId session.sessionId := by
      have hne : s.queue session.daemonId ≠ [] := ne_nil_of_mem hmem
      cases hp : s.sessions.get session.sessionId with
      | none =>
        refine h.hasMover hne fun p hp' => ?_
        cases hp.symm.trans hp'
      | some p =>
        rcases (hs p hp).2 with hpend | hqueued | hnone | hmover
        · exact absurd hpend hpending
        · refine h.hasMover hne fun p' hp' => ?_
          cases hp.symm.trans hp'
          exact hqueued
        · cases hnone.symm.trans hy
        · exact hmover
    obtain ⟨id, hid, hids, p, hp, hph⟩ := hmover
    exact ⟨id, hid, hids, hkeep id hids p hp hph⟩

theorem sweepSession (h : Moves s) (hagree : AgreeUpTo W R s) (now promotedAt : Timestamp)
    (db : Storage) (q : DiscoveryUpdatePayload) :
    Moves (s.sweepSession now promotedAt db q) := by
  cases hr : s.sessions.get q.sessionId with
  | none => rwa [sweepSession_of_none s now promotedAt db hr]
  | some r =>
    have hget := get_sweepSession now promotedAt db hr
    have hkeep : ∀ id, id ≠ q.sessionId → ∀ p, s.sessions.get id = some p → p.phase ≠ .queued →
        ∃ p', (s.sweepSession now promotedAt db q).sessions.get id = some p' ∧
          p'.phase ≠ .queued := by
      intro id hid p hp hph
      rw [hget, if_neg hid]
      split_ifs
      · rw [hp]
        exact ⟨_, rfl, promoted_ne_queued p⟩
      · exact ⟨p, hp, hph⟩
    refine h.of_left hagree (fun p hp => ?_) hkeep (queue_sweepSession now promotedAt db hr)
      fun y hy => ?_
    · cases hr.symm.trans hp
      rfl
    · obtain ⟨hmem, hyq⟩ := nextInQueue_eq_some hy
      obtain ⟨p, hp⟩ := hagree.queued _ _ hmem
      refine ⟨y, hmem, hyq, ?_⟩
      by_cases hph : p.phase = .queued
      · refine ⟨p.withPhase .pending, ?_, promoted_ne_queued p⟩
        rw [hget, if_neg hyq, if_pos ⟨hy, by simp [hp, hph]⟩, hp]
        rfl
      · exact hkeep y hyq p hp hph

theorem sweep (h : Moves s) (hagree : AgreeUpTo W R s) (ps : List DiscoveryUpdatePayload)
    (now promotedAt : Timestamp) (db : Storage) :
    Moves (s.sweepStalled ps now promotedAt db) := by
  refine (sweepStalled_induction (I := fun t => AgreeUpTo W R t ∧ Moves t) now promotedAt db
    (fun t q _ ht => ?_) (fun t ht => ?_) ⟨hagree, h⟩).2
  · exact ⟨ht.1.sweepSession now promotedAt db q, ht.2.sweepSession ht.1 now promotedAt db q⟩
  · exact ⟨⟨ht.1.placed, ht.1.queued, ht.1.mapped⟩, ht.2⟩

theorem store (h : Moves s)
    (hfree : s.sessions.get p.sessionId = none) : Moves (s.storeSession p) := by
  refine h.of_queue (fun _ => rfl) fun d id hid q hq hph => ⟨q, ?_, hph⟩
  rw [storeSession_sessions, SessionMap.get_put, if_neg, hq]
  rintro rfl
  cases hfree.symm.trans hq

theorem enqueue (h : Moves s) {q : DiscoveryUpdatePayload}
    (hq : s.sessions.get p.sessionId = some q)
    (hph : q.phase = .queued → s.queue p.daemonId ≠ []) :
    Moves (s.enqueue p.daemonId p.sessionId) := by
  intro d hne
  rw [queue_enqueue] at hne ⊢
  split_ifs at hne ⊢ with hd
  · by_cases hqueued : q.phase = .queued
    · obtain ⟨id, hid, r, hr, hrph⟩ := h p.daemonId (hph hqueued)
      exact ⟨id, mem_append_left _ hid, r, hr, hrph⟩
    · exact ⟨p.sessionId, mem_append_right _ mem_cons_self, q, hq, hqueued⟩
  · exact h d hne

theorem clear (h : Moves s) (hagree : AgreeUpTo W R s) (x : Uuid) :
    Moves (s.clearSessionsForDaemon x) := by
  intro d hne
  rw [queue_clearSessionsForDaemon] at hne ⊢
  split_ifs at hne ⊢ with hd
  · exact absurd rfl hne
  · obtain ⟨id, hid, p, hp, hph⟩ := h d hne
    refine ⟨id, hid, p, ?_, hph⟩
    rw [get_clearSessionsForDaemon, if_neg (hagree.not_mem_queue hid hd), hp]

theorem releaseSession (h : Moves s) (hagree : AgreeUpTo W R s) (now : Timestamp) (x : Uuid) :
    Moves (s.releaseSession now x) := by
  cases hx : s.sessions.get x with
  | none => rwa [releaseSession_of_none now hx]
  | some p =>
    have hget := get_releaseSession now hx
    intro d hne
    rw [queue_congr (releaseSession_frame ..).1] at hne ⊢
    obtain ⟨id, hid, q, hq, hph⟩ := h d hne
    by_cases hidx : id = x
    · subst hidx
      by_cases hactive : s.daemonHasActive p.daemonId p.sessionId = true
      · obtain ⟨r, hr, rfl, -⟩ := hagree.of_mem_queue hid
        cases hx.symm.trans hr
        rw [SessionMap.get_sessionId hx] at hactive
        obtain ⟨y, hy, hyid, r', hr', hph'⟩ := daemonHasActive_eq_true.mp hactive
        refine ⟨y, hy, r', ?_, (DiscoveryPhase.canBeCleanedUp_iff_not_waiting.mp hph').2.1⟩
        rw [hget, if_neg hyid, hr']
      · refine ⟨id, hid, p.withPhase .pending, ?_, promoted_ne_queued p⟩
        rw [hget, if_pos rfl, releasePhase, if_neg hactive]
    · refine ⟨id, hid, q, ?_, hph⟩
      rw [hget, if_neg hidx, hq]

theorem promoteAwaiting (h : Moves s) (hagree : AgreeUpTo W R s) (n : Uuid) (now : Timestamp)
    (order : List Uuid) : Moves (s.promoteAwaiting n now order) := by
  refine (releaseSessions_induction (I := fun t => AgreeUpTo W R t ∧ Moves t) now
    (fun t x ht => ?_) _ ⟨hagree, h⟩).2
  exact ⟨ht.1.releaseSession now x, ht.2.releaseSession ht.1 now x⟩

theorem transition (h : Moves s) (x : Uuid) (now : Timestamp) :
    Moves (s.transitionSessionToStarting x now) := by
  refine h.of_queue (queue_congr (transitionSessionToStarting_frame ..).1)
    fun d id hid p hp hph => ?_
  rw [get_transitionSessionToStarting]
  split_ifs
  · rw [hp]
    refine ⟨_, rfl, ?_⟩
    rw [DiscoveryUpdatePayload.withPhase_phase]
    decide
  · exact ⟨p, hp, hph⟩

end Moves

def System.ReleasePending (s : System) : Prop :=
  ∀ id p, s.svc.sessions.get id = some p → p.phase = .awaitingSnapshot →
    p.networkId ∈ s.svc.runningSnapshots ∨ ∃ c, s.calls.get c = some (.releaseDropped p.networkId)

structure MovingInv (s : System) : Prop where
  agrees : s.AgreesInFlight
  decided : s.Decided
  moves : Moves s.svc
  pending : s.ReleasePending

section Step
variable {s : System} {c : ℕ} {k : Call} {e : Env} {sec : Section} {k' : Option Call}

theorem Moves.next (hids : IdsInv s) (h : Moves s.svc) (hagree : s.AgreesInFlight)
    (hc : s.calls.get c = some k) (hf : Fires s e k sec k') (hok : KeepsMoving s sec) :
    Moves (sec.apply s.svc) := by
  have hsec := hids.fromIds hc hf
  cases sec with
  | read | track | setCancellation | dropSnapshot | pull | mapDiscovery => exact h
  | store p =>
    refine h.store ?_
    by_contra hne
    obtain ⟨q, hq⟩ := ne_none_iff_exists'.mp hne
    exact (hids.stored _ q hq).1.2 hsec.1
  | enqueue p =>
    obtain ⟨-, q, hq, -, hph⟩ := hok
    exact h.enqueue hq hph
  | update => exact h.update hagree hok.1 hok.2.1
  | cancelQueued => exact h.cancelQueued hagree hok
  | sweep ps now promotedAt db => exact h.sweep hagree ps now promotedAt db
  | acquire n => rcases tryAcquire_cases s.svc n with hs | ⟨-, hs⟩ <;> rwa [Section.apply, hs]
  | promoteAwaiting n now order => exact h.promoteAwaiting hagree n now order
  | transition id now | take id now => exact h.transition id now
  | cleanupOld m now order =>
    rw [Section.apply, cleanupOldSessions, show s.svc.oldSessionIds _ order = [] from hok]
    exact h
  | clear d => exact h.clear hagree d

theorem awaiting_before (hd : s.Decided) (hc : s.calls.get c = some k) (hf : Fires s e k sec k')
    (hok : KeepsMoving s sec) {id : Uuid} {p : DiscoveryUpdatePayload}
    (hp : (sec.apply s.svc).sessions.get id = some p) (ha : p.phase = .awaitingSnapshot) :
    s.svc.sessions.get id = some p ∨ p.networkId ∈ s.svc.runningSnapshots := by
  cases storedBy_of_get hp with
  | kept hp => exact .inl hp
  | stored => exact .inr ((hd.store hc hf rfl).mp ha)
  | updated => exact absurd ha hok.2.2
  | promotedByUpdate | promotedByCancel | promotedBySweep | transitioned | taken => cases ha
  | released _ _ _ hph => rcases hph with rfl | rfl <;> cases ha

theorem releaseDropped_after (hc : s.calls.get c = some k) (hf : Fires s e k sec k') {n : Uuid}
    (hn : ∃ c', s.calls.get c' = some (.releaseDropped n))
    (hne : ∀ now order, sec ≠ .promoteAwaiting n now order) :
    ∃ c', (s.after c sec k').calls.get c' = some (.releaseDropped n) := by
  obtain ⟨c', hc'⟩ := hn
  refine ⟨c', ?_⟩
  rw [System.get_calls_after, if_neg, hc']
  rintro rfl
  cases hc.symm.trans hc'
  cases hf
  exact hne _ _ rfl

theorem ReleasePending.next (h : s.ReleasePending) (hd : s.Decided) (hc : s.calls.get c = some k)
    (hf : Fires s e k sec k') (hok : KeepsMoving s sec) : (s.after c sec k').ReleasePending := by
  intro id p hp ha
  change (sec.apply s.svc).sessions.get id = some p at hp
  change p.networkId ∈ (sec.apply s.svc).runningSnapshots ∨ _
  have hbefore : p.networkId ∈ s.svc.runningSnapshots ∨
      ∃ c', s.calls.get c' = some (.releaseDropped p.networkId) := by
    rcases awaiting_before hd hc hf hok hp ha with hold | hrun
    · exact h id p hold ha
    · exact .inl hrun
  rcases hbefore with hrun | hdrop
  · cases hw : sec.writesSnapshots with
    | false =>
      rw [runningSnapshots_apply hw]
      exact .inl hrun
    | true =>
      cases sec with
      | acquire n =>
        refine .inl ?_
        rcases tryAcquire_cases s.svc n with hs | ⟨-, hs⟩ <;> rw [Section.apply, hs]
        · exact hrun
        · exact Finset.mem_insert_of_mem hrun
      | dropSnapshot n =>
        by_cases hn : p.networkId = n
        · -- the release that drops the snapshot goes on to promote the session
          cases hf
          refine .inr ⟨c, ?_⟩
          rw [System.get_calls_after, if_pos rfl, hn]
        · exact .inl (Finset.mem_erase.mpr ⟨hn, hrun⟩)
      | _ => cases hw
  · by_cases hpromote : ∃ now order, sec = .promoteAwaiting p.networkId now order
    · obtain ⟨now, order, rfl⟩ := hpromote
      cases hf with
      | promote ho => exact absurd ha (ne_awaiting_promoteAwaiting _ ho hp rfl)
    · refine .inr (releaseDropped_after hc hf hdrop fun now order hsec => ?_)
      exact hpromote ⟨now, order, hsec⟩

end Step

theorem MovingInv.init : MovingInv System.init where
  agrees := .new
  decided _ _ h := by cases h
  moves _ h := absurd rfl h
  pending _ _ h := by cases h

theorem movingInv_of_keeps_moving {s : System} (hs : ReachedWith KeepsMoving s) :
    MovingInv s := by
  refine ReachedWith.invariant_ids .init (fun s c k _ h hc hk => ?_)
    (fun s c k e sec k' hids h hc hf hok => ?_) hs
  · refine ⟨h.agrees.spawn hc, h.decided.spawn hk, h.moves, fun id p hp ha => ?_⟩
    rcases h.pending id p hp ha with hrun | ⟨c', hc'⟩
    · exact .inl hrun
    · refine .inr ⟨c', ?_⟩
      rw [System.get_calls_spawn, if_neg, hc']
      rintro rfl
      cases hc.symm.trans hc'
  · exact ⟨agreesInFlight_next hids h.agrees hc hf hok.keepsIndexes, h.decided.next hc hf,
      h.moves.next hids h.agrees hc hf hok, ReleasePending.next h.pending h.decided hc hf hok⟩

/-- When no call runs, a session that awaits a snapshot is on a network that has one. -/
theorem no_stuck_queue_of_keeps_moving {s : System} (hs : ReachedWith KeepsMoving s)
    (hq : s.Quiescent) : NoStuckQueue s.svc := by
  have hinv := movingInv_of_keeps_moving hs
  have hids := idsInv_of_reached hs
  intro d hne hfree
  obtain ⟨id, hid, p, hp, hph⟩ := hinv.moves d hne
  refine ⟨id, hid, p, hp, DiscoveryPhase.canBeCleanedUp_iff_not_waiting.mpr
    ⟨(hids.stored id p hp).2, hph, fun ha => ?_⟩⟩
  rcases hinv.pending id p hp ha with hrun | ⟨c, hc⟩
  · exact hfree id hid p hp hrun
  · cases (hq c).symm.trans hc

def handedOverRun : List Label :=
  startRun 0 exampleDiscovery 10 ++ startRun 0 { exampleDiscovery with id := 101 } 11 ++
    updateRun 1 (exampleUpdate 10 .complete) [100, 101]

theorem no_stuck_queue_handedOverRun :
    sessionSystem.run .init handedOverRun = some (endState handedOverRun) ∧
      (endState handedOverRun).svc.queue 1 = [11] ∧ NoStuckQueue (endState handedOverRun).svc := by
  have hrun := run_endState handedOverRun (by decide +kernel)
  refine ⟨hrun, by decide +kernel, no_stuck_queue_of_keeps_moving ?_
    (System.quiescent_of_keys (by decide +kernel))⟩
  refine reachedWith_of_run (f := fun s sec => match sec with
    | .update u .. => (s.svc.sessions.get u.sessionId).all
        (fun p => decide (p.daemonId = u.daemonId)) && decide (u.phase = .complete)
    | .enqueue p => decide (p.sessionId ∉ s.svc.queue p.daemonId) &&
        (s.svc.sessions.get p.sessionId).any fun q => decide (q.daemonId = p.daemonId ∧
          (q.phase = .queued → s.svc.queue p.daemonId ≠ []))
    | .cancelQueued .. | .cleanupOld .. => false
    | _ => true) (fun s sec hsec => ?_) hrun (by decide +kernel)
  cases sec with
  | update u now db =>
    simp only [and_eq_true, decide_eq_true_eq] at hsec
    refine ⟨fun p hp => ?_, ?_, ?_⟩
    · simpa [hp] using hsec.1
    · simp [hsec.2]
    · simp [hsec.2]
  | enqueue p =>
    simp only [and_eq_true, Option.any_eq_true, decide_eq_true_eq] at hsec
    exact hsec
  | cancelQueued | cleanupOld => cases hsec
  | _ => trivial

/-- `start_session` finds the daemon busy and decides for Queued; before it queues the session, the
session that kept the daemon busy ends and finds no other one in the queue. -/
def stuckRun : List Label :=
  startRun 0 exampleDiscovery 10 ++
    [.call 1 (.startCalled { exampleDiscovery with id := 101 }), .next 1 {},
      .next 1 { freshId := 11 }, .next 1 {}, .next 1 {}] ++
    updateRun 2 (exampleUpdate 10 .complete) [100, 101] ++ List.replicate 3 (.next 1 {})

theorem not_no_stuck_queue :
    ¬ ∀ s, sessionSystem.Reachable s → s.Quiescent → NoStuckQueue s.svc := by
  intro h
  have hs := h _ (reachable_endState stuckRun (by decide +kernel))
    (System.quiescent_of_keys (by decide +kernel))
  have hqueue : (endState stuckRun).svc.queue 1 = [11] := by decide +kernel
  have hrunning : (endState stuckRun).svc.runningSnapshots = ∅ := by decide +kernel
  obtain ⟨id, hid, p, hp, hactive⟩ := hs 1 (by rw [hqueue]; exact cons_ne_nil _ _)
    (fun id hid p hp hn => by rw [hrunning] at hn; cases hn)
  rw [hqueue, mem_singleton] at hid
  have hwaits : ((endState stuckRun).svc.sessions.get 11).all (!·.phase.canBeCleanedUp) = true := by
    decide +kernel
  rw [← hid, hp, all_some, hactive] at hwaits
  cases hwaits

end Scanopy
