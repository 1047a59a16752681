import Scanopy.Discovery.SessionIds

/-! Historical rows. A session that ends leaves at most one row: a late terminal update finds its
tombstone in `session_last_updated` and is ignored. Other updates are not stopped by it. -/

namespace Scanopy
open DiscoveryService

def RecordedOnce (s : System) : Prop :=
  (∀ id, s.svc.rows id ≤ 1) ∧ ∀ id ∈ s.history.ended, s.svc.sessions.get id = none

def HonoursEnd (s : System) : Section → Prop
  | .update u _ db => u.sessionId ∈ s.history.ended → u.phase.isTerminal = true ∧
    (s.svc.ignoresUpdate u = true ∨ s.svc.rows u.sessionId = 0 ∨ db.createOk u.sessionId = false)
  | _ => True

theorem rows_apply (s : DiscoveryService) (sec : Section) (id : Uuid) :
    (sec.apply s).rows id = s.rows id ∨ (sec.apply s).rows id = s.rows id + 1 ∧ id ∈ sec.ends s ∧
        ((∃ p, s.sessions.get id = some p) ∨ ∃ u now db, sec = .update u now db ∧
          id = u.sessionId ∧ s.ignoresUpdate u = false ∧ db.createOk id = true) := by
  cases sec with
  | read | mapDiscovery | track | store | enqueue | setCancellation | dropSnapshot | pull =>
    exact .inl rfl
  | update u now db =>
    rw [Section.apply, rows_updateSession]
    split_ifs with h
    · obtain ⟨rfl, ht, hi, hc⟩ := h
      refine .inr ⟨rfl, ?_, .inr ⟨u, now, db, rfl, rfl, hi, hc⟩⟩
      simp [Section.ends, ht, hi]
    · exact .inl rfl
  | cancelQueued => exact .inl (rows_congr (cancelQueued_historical ..) id)
  | sweep ps now promotedAt db =>
    rcases rows_sweepStalled now promotedAt db s ps id with hrows | ⟨hrows, hmem, hstored⟩
    · exact .inl hrows
    · refine .inr ⟨hrows, ?_, .inl hstored⟩
      exact Finset.mem_inter.mpr ⟨List.mem_toFinset.mpr hmem, SessionMap.mem_keys.mpr hstored⟩
  | acquire n =>
    refine .inl (rows_congr ?_ id)
    rcases tryAcquire_cases s n with hs | ⟨-, hs⟩ <;> rw [Section.apply, hs]
  | promoteAwaiting => exact .inl (rows_congr (promoteAwaiting_frame ..).2.2.2.2 id)
  | transition | take => exact .inl (rows_congr (transitionSessionToStarting_frame ..).2.2.2.2 id)
  | cleanupOld => exact .inl (rows_congr (cleanupOldSessions_historical ..) id)
  | clear => exact .inl (rows_congr (clearSessionsForDaemon_historical ..) id)

theorem get_apply_of_mem_ends {s : DiscoveryService} {sec : Section} {id : Uuid}
    (h : id ∈ sec.ends s) : (sec.apply s).sessions.get id = none := by
  cases sec with
  | update u now db =>
    rw [Section.ends] at h
    split_ifs at h with hu
    · rw [Bool.and_eq_true, Bool.not_eq_true'] at hu
      rw [Section.apply, get_updateSession_of_terminal _ _ _ _ hu.1 hu.2,
        if_pos (Finset.mem_singleton.mp h)]
    · cases h
  | cancelQueued session now =>
    rw [Section.apply, get_cancelQueued, if_pos (Finset.mem_singleton.mp h)]
  | sweep ps now promotedAt db =>
    exact get_sweepStalled_of_mem now promotedAt db ps
      (List.mem_toFinset.mp (Finset.mem_inter.mp h).1)
  | _ => cases h

section Step
variable {s : System} {c : ℕ} {k : Call} {e : Env} {sec : Section} {k' : Option Call}

def RowsEnded (s : System) : Prop := ∀ id, s.svc.rows id ≠ 0 → id ∈ s.history.ended

theorem rowsEnded_of_reachable (hs : sessionSystem.Reachable s) : RowsEnded s := by
  refine Lts.ReachableVia.invariant (P := RowsEnded) (fun _ h => absurd rfl h) ?_ hs
  rintro s (⟨c, k⟩ | ⟨c, e⟩) s' - h - hstep
  · obtain ⟨-, -, -, rfl⟩ := System.step_call hstep
    exact h
  · obtain ⟨k, sec, k', -, -, -, rfl⟩ := System.step_next hstep
    intro id hid
    change (sec.apply s.svc).rows id ≠ 0 at hid
    rcases rows_apply s.svc sec id with hrows | ⟨-, hends, -⟩
    · rw [hrows] at hid
      exact Finset.mem_union_left _ (h id hid)
    · exact Finset.mem_union_right _ hends

/-- The id that `start_session` has drawn is in the hands of that call alone until it is stored, and
no session that is stored has ended. -/
theorem drawn_id_private {s : System} (hs : sessionSystem.Reachable s) :
    (∀ id ∈ s.history.unpublished,
      (∃ c k p, s.calls.get c = some k ∧ k.reserved = some p ∧ p.sessionId = id ∧
        ∀ c' k' p', s.calls.get c' = some k' → k'.reserved = some p' → p'.sessionId = id → c' = c) ∧
      s.svc.sessions.get id = none ∧ (∀ d, id ∉ s.svc.queue d) ∧
      (∀ c k, s.calls.get c = some k → id ∉ k.names) ∧ id ∉ s.history.dispatched ∧
      s.svc.rows id = 0) ∧
    ∀ id p, s.svc.sessions.get id = some p → p.phase.isTerminal = false := by
  have h := idsInv_of_reachable hs
  refine ⟨fun id hid => ⟨?_, ?_, ?_, ?_, ?_, ?_⟩, fun id p hp => (h.stored id p hp).2⟩
  · obtain ⟨c, k, p, hc, hk, rfl⟩ := h.holder id hid
    exact ⟨c, k, p, hc, hk, rfl, fun c' k' p' hc' hk' => h.unique c' c k' k p' p hc' hc hk' hk⟩
  · exact Option.eq_none_iff_forall_ne_some.mpr fun p hp => (h.stored id p hp).1.2 hid
  · exact fun d hmem => (h.queued d id hmem).2 hid
  · exact fun c k hc hmem => (h.names c k hc id hmem).2 hid
  · exact fun hmem => (h.dispatched id hmem).2 hid
  · exact not_not.mp fun hrow => (h.ended id (rowsEnded_of_reachable hs id hrow)).2 hid

theorem drawn_id_private_first :
    (endState (callRun 0 (.startCalled exampleDiscovery) [{}, { freshId := 7 }])).svc.sessions.get 7 =
      none :=
  ((drawn_id_private (reachable_endState (callRun 0 (.startCalled exampleDiscovery)
    [{}, { freshId := 7 }]) (by decide +kernel))).1 7 (by decide +kernel)).2.1

theorem honoursEnd_of_recordedOnce (h : RecordedOnce (s.after c sec k')) : HonoursEnd s sec := by
  cases sec with
  | update u now db =>
    intro hid
    have ht : u.phase.isTerminal = true := by
      by_contra ht
      have hgone := h.2 u.sessionId (Finset.mem_union_left _ hid)
      change (s.svc.updateSession u now db).sessions.get u.sessionId = none at hgone
      rw [get_updateSession_of_not_terminal _ _ _ _ (Bool.eq_false_iff.mpr ht), if_pos rfl] at hgone
      cases hgone
    refine ⟨ht, ?_⟩
    by_contra hnot
    rw [not_or, not_or, Bool.not_eq_true, Bool.not_eq_false] at hnot
    have hrows := h.1 u.sessionId
    change (s.svc.updateSession u now db).rows u.sessionId ≤ 1 at hrows
    rw [rows_updateSession, if_pos ⟨rfl, ht, hnot.1, hnot.2.2⟩] at hrows
    have := hnot.2.1
    omega
  | _ => trivial

theorem StoredBy.not_ended (hids : IdsInv s) (h : RecordedOnce s) (hsec : sec.FromIds s.history)
    (hok : HonoursEnd s sec) {id : Uuid} {p : DiscoveryUpdatePayload}
    (hp : StoredBy s.svc sec id p) : id ∉ s.history.ended := by
  intro hid
  have hgone := h.2 id hid
  cases hp with
  | stored => exact (hids.ended _ hid).2 hsec.1
  | updated ht =>
    rw [(hok hid).1] at ht
    cases ht
  | kept hp => cases hgone.symm.trans hp
  | promotedByUpdate _ _ _ hp | promotedByCancel _ _ hp | promotedBySweep hp _ =>
    cases hgone.symm.trans hp
  | released hp _ _ _ => cases hgone.symm.trans hp
  | transitioned hp _ | taken hp _ => cases hgone.symm.trans hp

theorem recordedOnce_next (hids : IdsInv s) (hrows : RowsEnded s) (h : RecordedOnce s)
    (hc : s.calls.get c = some k) (hf : Fires s e k sec k') :
    RecordedOnce (s.after c sec k') ↔ HonoursEnd s sec := by
  refine ⟨honoursEnd_of_recordedOnce, fun hok => ⟨fun id => ?_, fun id hid => ?_⟩⟩
  · change (sec.apply s.svc).rows id ≤ 1
    have hzero : id ∉ s.history.ended → s.svc.rows id = 0 := fun hid => by
      by_contra hne
      exact hid (hrows id hne)
    rcases rows_apply s.svc sec id with hsame | ⟨hplus, -, hwhy⟩
    · rw [hsame]
      exact h.1 id
    · have hnone : s.svc.rows id = 0 := by
        rcases hwhy with ⟨p, hp⟩ | ⟨u, now, db, rfl, rfl, hi, hcreate⟩
        · refine hzero fun hid => ?_
          cases (h.2 id hid).symm.trans hp
        · by_cases hid : u.sessionId ∈ s.history.ended
          · rcases (hok hid).2 with hi' | hr | hc'
            · rw [hi] at hi'
              cases hi'
            · exact hr
            · rw [hcreate] at hc'
              cases hc'
          · exact hzero hid
      rw [hplus, hnone]
  · change (sec.apply s.svc).sessions.get id = none
    rcases Finset.mem_union.mp hid with hid | hid
    · by_contra hne
      obtain ⟨p, hp⟩ := Option.ne_none_iff_exists'.mp hne
      exact (storedBy_of_get hp).not_ended hids h (hids.fromIds hc hf) hok hid
    · exact get_apply_of_mem_ends hid

end Step

/-- The runs with one row for each session and none that comes back are exactly those whose
updates honour the end of their session. -/
theorem recorded_once_iff_honours_end {ls : List Label} {s : System}
    (h : sessionSystem.run .init ls = some s) :
    sessionSystem.Always RecordedOnce .init ls ↔ Satisfies HonoursEnd .init ls := by
  refine always_iff_satisfies ?_ (fun s c k hP hk => hP) (fun s c k e sec k' hs hP hc hf => ?_) h
  · exact ⟨fun _ => Nat.zero_le 1, fun _ hid => by cases hid⟩
  · exact recordedOnce_next (idsInv_of_reachable hs) (rowsEnded_of_reachable hs) hP hc hf

def repeatedUpdateRun : List Label :=
  startRun 0 exampleDiscovery 10 ++ workRun 1 1 ++
    updateRun 2 (exampleUpdate 10 .complete) [100] ++ updateRun 3 (exampleUpdate 10 .complete) []

theorem recorded_once_repeatedUpdateRun :
    sessionSystem.run .init repeatedUpdateRun = some (endState repeatedUpdateRun) ∧
      (endState repeatedUpdateRun).svc.rows 10 = 1 ∧
      sessionSystem.Always RecordedOnce .init repeatedUpdateRun := by
  have hrun := run_endState repeatedUpdateRun (by decide +kernel)
  refine ⟨hrun, by decide +kernel, (recorded_once_iff_honours_end hrun).mpr ?_⟩
  refine satisfies_of_checkRun (f := fun s sec => match sec with
    | .update u _ _ => !decide (u.sessionId ∈ s.history.ended) ||
      u.phase.isTerminal && s.svc.ignoresUpdate u
    | _ => true) (fun s sec hsec => ?_) (by decide +kernel)
  cases sec with
  | update u now db =>
    intro hid
    simp only [hid, decide_true, Bool.not_true, Bool.false_or, Bool.and_eq_true] at hsec
    exact ⟨hsec.1, .inl hsec.2⟩
  | _ => trivial

def lateUpdateRun : List Label :=
  startRun 0 exampleDiscovery 10 ++ workRun 1 1 ++
    callRun 2 .stallCalled [{ now := minutes 6, order := [10] }, {}, { now := minutes 6 }] ++
    updateRun 3 (exampleUpdate 10 .complete) []

theorem not_recorded_once : ¬ ∀ s, sessionSystem.Reachable s → RecordedOnce s := by
  intro h
  have hs := h _ (reachable_endState lateUpdateRun (by decide +kernel))
  have htwo : (endState lateUpdateRun).svc.rows 10 = 2 := by decide +kernel
  have hone := hs.1 10
  rw [htwo] at hone
  exact absurd hone (by decide)

end Scanopy
