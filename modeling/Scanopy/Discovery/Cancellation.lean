import Scanopy.Discovery.SessionIds

/-! Cancellation of running sessions. The flag that a daemon polls names one session: the next flag
for the daemon replaces it, and any terminal update of the daemon drops it. -/

namespace Scanopy
open Option Bool DiscoveryService

def CancelsLive (s : System) : Prop :=
  ∀ c d, s.calls.get c = some (.workServed d) → ∀ id, s.svc.pendingCancellation d = (true, id) →
    ∃ p, s.svc.sessions.get id = some p ∧ p.daemonId = d ∧ p.phase.isTerminal = false

def KeepsFlags (s : System) (l : Label) (s' : System) : Prop :=
  ∀ d flag, s.svc.daemonPullCancellations.get d = some flag →
    s'.svc.daemonPullCancellations.get d = some flag ∨ s.sectionOf l = some (.pull d) ∨
      ∃ sec, s.sectionOf l = some sec ∧ flag.2 ∈ sec.ends s.svc

/-- A flag is set for a session that is still stored for the daemon, which has no flag for another
one; an update keeps the session's daemon and ends no session while its daemon has a flag for
another; `cancel_session` removes no session that a flag names. -/
def CancelsOwn (s : System) : Section → Prop
  | .setCancellation d id =>
    (∃ p, s.svc.sessions.get id = some p ∧ p.daemonId = d) ∧
      ∀ flag, s.svc.daemonPullCancellations.get d = some flag → flag = (true, id)
  | .update u _ _ =>
    (∀ p, s.svc.sessions.get u.sessionId = some p → p.daemonId = u.daemonId) ∧
    (u.phase.isTerminal = true → s.svc.ignoresUpdate u = false →
      ∀ flag, s.svc.daemonPullCancellations.get u.daemonId = some flag → flag.2 = u.sessionId)
  | .cancelQueued session _ =>
    ∀ p, s.svc.sessions.get session.sessionId = some p →
      ∀ flag, s.svc.daemonPullCancellations.get p.daemonId = some flag →
        flag.2 ≠ session.sessionId
  | .cleanupOld .. | .clear _ => False
  | _ => True

section Sweep
variable {s : DiscoveryService} {ps : List DiscoveryUpdatePayload} {now promotedAt : Timestamp}
  {db : Storage} {d : Uuid} {flag : Bool × Uuid}
variable {p q : DiscoveryUpdatePayload} {id : Uuid}

theorem flag_of_sweepSession
    (h : (s.sweepSession now promotedAt db q).daemonPullCancellations.get d = some flag) :
    s.daemonPullCancellations.get d = some flag := by
  cases hq : s.sessions.get q.sessionId with
  | none => rwa [sweepSession_of_none s now promotedAt db hq] at h
  | some r =>
    rw [get_daemonPullCancellations_sweepSession now promotedAt db hq] at h
    split_ifs at h
    · exact (filter_eq_some_iff.mp h).1
    · exact h

theorem flag_of_sweepStalled
    (h : (s.sweepStalled ps now promotedAt db).daemonPullCancellations.get d = some flag) :
    s.daemonPullCancellations.get d = some flag :=
  sweepStalled_induction (I := fun t => t.daemonPullCancellations.get d = some flag →
    s.daemonPullCancellations.get d = some flag) now promotedAt db
    (fun _ _ _ ht hflag => ht (flag_of_sweepSession hflag)) (fun _ ht => ht) (fun hflag => hflag) h

theorem sweepSession_keeps
    (hp : s.sessions.get id = some p) (hid : id ≠ q.sessionId) :
    ∃ p', (s.sweepSession now promotedAt db q).sessions.get id = some p' ∧
      p'.daemonId = p.daemonId := by
  cases hq : s.sessions.get q.sessionId with
  | none =>
    rw [sweepSession_of_none s now promotedAt db hq]
    exact ⟨p, hp, rfl⟩
  | some r =>
    rw [get_sweepSession now promotedAt db hq, if_neg hid, hp]
    split_ifs
    · exact ⟨_, rfl, rfl⟩
    · exact ⟨p, rfl, rfl⟩

theorem sweepStalled_keeps
    (hp : s.sessions.get id = some p) (hid : id ∉ ps.map (·.sessionId)) :
    ∃ p', (s.sweepStalled ps now promotedAt db).sessions.get id = some p' ∧
      p'.daemonId = p.daemonId := by
  refine sweepStalled_induction (I := fun t => ∃ p', t.sessions.get id = some p' ∧
    p'.daemonId = p.daemonId) now promotedAt db (fun t q hq ht => ?_) (fun _ ht => ht) ⟨p, hp, rfl⟩
  obtain ⟨p', hp', hd⟩ := ht
  have hne : id ≠ q.sessionId := by
    rintro rfl
    exact hid (List.mem_map_of_mem hq)
  obtain ⟨r, hr, hrd⟩ := sweepSession_keeps hp' hne
  exact ⟨r, hr, hrd.trans hd⟩

theorem no_flag_of_sweepStalled
    (hp : s.sessions.get flag.2 = some p) (hd : p.daemonId = d)
    (hmem : flag.2 ∈ ps.map (·.sessionId)) :
    (s.sweepStalled ps now promotedAt db).daemonPullCancellations.get d ≠ some flag := by
  let guarded : DiscoveryService → Prop := fun t =>
    (∃ p', t.sessions.get flag.2 = some p' ∧ p'.daemonId = d) ∨
      t.daemonPullCancellations.get d ≠ some flag
  have hstep : ∀ t, ∀ q ∈ ps, guarded t → guarded (t.sweepSession now promotedAt db q) := by
    rintro t q - (⟨p', hp', hd'⟩ | hflag)
    · by_cases hq : flag.2 = q.sessionId
      · refine .inr fun hflag => ?_
        rw [hq] at hp'
        rw [get_daemonPullCancellations_sweepSession now promotedAt db hp',
          if_pos hd'.symm] at hflag
        have hne := (filter_eq_some_iff.mp hflag).2
        rw [decide_eq_true_eq] at hne
        exact hne hq
      · have hkeeps : ∃ r, (t.sweepSession now promotedAt db q).sessions.get flag.2 = some r ∧
            r.daemonId = p'.daemonId := sweepSession_keeps hp' hq
        obtain ⟨r, hr, hrd⟩ := hkeeps
        exact .inl ⟨r, hr, hrd.trans hd'⟩
    · exact .inr fun h => hflag (flag_of_sweepSession h)
  have hguarded : guarded (s.sweepStalled ps now promotedAt db) :=
    sweepStalled_induction now promotedAt db hstep (fun _ ht => ht) (.inl ⟨p, hp, hd⟩)
  rcases hguarded with ⟨p', hp', -⟩ | hflag
  · rw [get_sweepStalled_of_mem now promotedAt db ps hmem] at hp'
    cases hp'
  · exact hflag

theorem flag_sweepStalled (h : s.daemonPullCancellations.get d = some flag)
    (hnot : flag.2 ∉ ps.map (·.sessionId)) :
    (s.sweepStalled ps now promotedAt db).daemonPullCancellations.get d = some flag := by
  refine sweepStalled_induction (I := fun t => t.daemonPullCancellations.get d = some flag)
    now promotedAt db (fun t q hq ht => ?_) (fun _ ht => ht) h
  cases hr : t.sessions.get q.sessionId with
  | none => rwa [sweepSession_of_none t now promotedAt db hr]
  | some r =>
    have hid : flag.2 ≠ q.sessionId := by
      intro hid
      rw [hid] at hnot
      exact hnot (List.mem_map_of_mem hq)
    rw [get_daemonPullCancellations_sweepSession now promotedAt db hr, ht]
    split_ifs
    · simp [Option.filter, hid]
    · rfl

end Sweep

section Step
variable {s : System} {c : ℕ} {k : Call} {e : Env} {sec : Section} {k' : Option Call}
variable {flag : Bool × Uuid} {d : Uuid}

def FlagsLive (s : DiscoveryService) : Prop :=
  ∀ d flag, s.daemonPullCancellations.get d = some flag →
    ∃ p, s.sessions.get flag.2 = some p ∧ p.daemonId = d

theorem flag_before (hok : CancelsOwn s sec)
    (h : (sec.apply s.svc).daemonPullCancellations.get d = some flag) :
    s.svc.daemonPullCancellations.get d = some flag ∨ sec = .setCancellation d flag.2 := by
  cases sec with
  | read | mapDiscovery | track | store | enqueue | dropSnapshot => exact .inl h
  | update u now db =>
    rw [Section.apply, updateSession_daemonPullCancellations] at h
    split_ifs at h
    · rw [HashMap.get_remove] at h
      split_ifs at h
      exact .inl h
    · exact .inl h
  | cancelQueued =>
    rw [Section.apply, cancelQueued_daemonPullCancellations] at h
    exact .inl h
  | setCancellation d' id =>
    rw [Section.apply, setCancellation_daemonPullCancellations, HashMap.get_insert] at h
    split_ifs at h with hd
    · cases h
      rw [hd]
      exact .inr rfl
    · exact .inl h
  | sweep => exact .inl (flag_of_sweepStalled h)
  | acquire n =>
    rcases tryAcquire_cases s.svc n with hs | ⟨-, hs⟩ <;> rw [Section.apply, hs] at h <;>
      exact .inl h
  | promoteAwaiting =>
    rw [Section.apply, (promoteAwaiting_frame ..).2.2.1] at h
    exact .inl h
  | transition | take =>
    rw [Section.apply, (transitionSessionToStarting_frame ..).2.2.1] at h
    exact .inl h
  | pull =>
    rw [Section.apply, pullCancellationForDaemon_daemonPullCancellations, HashMap.get_remove] at h
    split_ifs at h
    exact .inl h
  | cleanupOld | clear => exact hok.elim

theorem stored_after (hids : IdsInv s) (hsec : sec.FromIds s.history) (hok : CancelsOwn s sec)
    {id : Uuid} {p : DiscoveryUpdatePayload} (hp : s.svc.sessions.get id = some p) :
    (∃ q, (sec.apply s.svc).sessions.get id = some q ∧ q.daemonId = p.daemonId) ∨
      id ∈ sec.ends s.svc := by
  cases sec with
  | read | mapDiscovery | track | enqueue | setCancellation | dropSnapshot | pull =>
    exact .inl ⟨p, hp, rfl⟩
  | store q =>
    refine .inl ⟨p, ?_, rfl⟩
    rw [Section.apply, storeSession_sessions, SessionMap.get_put, if_neg, hp]
    rintro rfl
    exact (hids.stored _ p hp).1.2 hsec.1
  | update u now db =>
    rw [Section.apply]
    by_cases hid : id = u.sessionId
    · cases ht : u.phase.isTerminal with
      | false =>
        refine .inl ⟨u, ?_, (hok.1 p (hid ▸ hp)).symm⟩
        rw [get_updateSession_of_not_terminal _ _ _ _ ht, if_pos hid]
      | true =>
        have hi : s.svc.ignoresUpdate u = false := by simp [ignoresUpdate, ← hid, hp]
        refine .inr ?_
        simp [Section.ends, ht, hi, hid]
    · left
      cases ht : u.phase.isTerminal with
      | false =>
        rw [get_updateSession_of_not_terminal _ _ _ _ ht, if_neg hid]
        exact ⟨p, hp, rfl⟩
      | true =>
        cases hi : s.svc.ignoresUpdate u with
        | true =>
          rw [updateSession_of_ignores _ _ _ _ hi]
          exact ⟨p, hp, rfl⟩
        | false =>
          rw [get_updateSession_of_terminal _ _ _ _ ht hi, if_neg hid, hp]
          split_ifs
          · exact ⟨_, rfl, rfl⟩
          · exact ⟨p, rfl, rfl⟩
  | cancelQueued session now =>
    by_cases hid : id = session.sessionId
    · exact .inr (Finset.mem_singleton.mpr hid)
    · left
      rw [Section.apply, get_cancelQueued, if_neg hid, hp]
      split_ifs
      · exact ⟨_, rfl, rfl⟩
      · exact ⟨p, rfl, rfl⟩
  | sweep ps now promotedAt db =>
    by_cases hid : id ∈ ps.map (·.sessionId)
    · exact .inr (Finset.mem_inter.mpr
        ⟨List.mem_toFinset.mpr hid, SessionMap.mem_keys.mpr ⟨p, hp⟩⟩)
    · exact .inl (sweepStalled_keeps hp hid)
  | acquire n =>
    left
    rcases tryAcquire_cases s.svc n with hs | ⟨-, hs⟩ <;> rw [Section.apply, hs] <;>
      exact ⟨p, hp, rfl⟩
  | promoteAwaiting n now order =>
    left
    rw [Section.apply, promoteAwaiting]
    by_cases hid : id ∈ s.svc.awaitingSessionIds n order
    · obtain ⟨ph, -, hget⟩ := get_releaseSessions_of_mem now hid hp
      exact ⟨_, hget, rfl⟩
    · rw [get_releaseSessions_of_not_mem now hid]
      exact ⟨p, hp, rfl⟩
  | transition x now | take x now =>
    left
    rw [Section.apply, get_transitionSessionToStarting, hp]
    split_ifs
    · exact ⟨_, rfl, rfl⟩
    · exact ⟨p, rfl, rfl⟩
  | cleanupOld | clear => exact hok.elim

theorem no_flag_of_ends (hlive : FlagsLive s.svc) (hok : CancelsOwn s sec)
    (hflag : s.svc.daemonPullCancellations.get d = some flag)
    (hend : flag.2 ∈ sec.ends s.svc) :
    (sec.apply s.svc).daemonPullCancellations.get d ≠ some flag := by
  obtain ⟨p, hp, hd⟩ := hlive d flag hflag
  cases sec with
  | update u now db =>
    rw [Section.ends] at hend
    split_ifs at hend with hu
    · rw [and_eq_true, not_eq_true'] at hu
      rw [Finset.mem_singleton] at hend
      rw [hend] at hp
      have hdu : d = u.daemonId := hd.symm.trans (hok.1 p hp)
      rw [Section.apply, updateSession_daemonPullCancellations, if_pos ⟨hu.1, hu.2⟩, hdu,
        HashMap.get_remove_self]
      rintro ⟨⟩
    · cases hend
  | cancelQueued session now =>
    rw [Section.ends, Finset.mem_singleton] at hend
    rw [hend] at hp
    exact absurd hend (hok p hp flag (hd ▸ hflag))
  | sweep ps now promotedAt db =>
    exact no_flag_of_sweepStalled hp hd (List.mem_toFinset.mp (Finset.mem_inter.mp hend).1)
  | _ => cases hend

theorem FlagsLive.next (hids : IdsInv s) (h : FlagsLive s.svc) (hsec : sec.FromIds s.history)
    (hok : CancelsOwn s sec) : FlagsLive (sec.apply s.svc) := by
  intro d flag hflag
  rcases flag_before hok hflag with hold | rfl
  · obtain ⟨p, hp, hd⟩ := h d flag hold
    rcases stored_after hids hsec hok hp with ⟨q, hq, hqd⟩ | hend
    · exact ⟨q, hq, hqd.trans hd⟩
    · exact absurd hflag (no_flag_of_ends h hok hold hend)
  · exact hok.1

theorem flag_after (hlive : FlagsLive s.svc) (hok : CancelsOwn s sec)
    (h : s.svc.daemonPullCancellations.get d = some flag) :
    (sec.apply s.svc).daemonPullCancellations.get d = some flag ∨ sec = .pull d ∨
      flag.2 ∈ sec.ends s.svc := by
  cases sec with
  | read | mapDiscovery | track | store | enqueue | dropSnapshot => exact .inl h
  | update u now db =>
    rw [Section.apply, updateSession_daemonPullCancellations]
    split_ifs with hu
    · by_cases hd : d = u.daemonId
      · have hid := hok.2 hu.1 hu.2 flag (hd ▸ h)
        exact .inr (.inr (by simp [Section.ends, hu.1, hu.2, hid]))
      · rw [HashMap.get_remove, if_neg hd]
        exact .inl h
    · exact .inl h
  | cancelQueued =>
    rw [Section.apply, cancelQueued_daemonPullCancellations]
    exact .inl h
  | setCancellation d' id =>
    left
    rw [Section.apply, setCancellation_daemonPullCancellations, HashMap.get_insert]
    split_ifs with hd
    · rw [hok.2 flag (hd ▸ h)]
    · exact h
  | sweep ps now promotedAt db =>
    by_cases hmem : flag.2 ∈ ps.map (·.sessionId)
    · obtain ⟨p, hp, -⟩ := hlive d flag h
      exact .inr (.inr (Finset.mem_inter.mpr
        ⟨List.mem_toFinset.mpr hmem, SessionMap.mem_keys.mpr ⟨p, hp⟩⟩))
    · exact .inl (flag_sweepStalled h hmem)
  | acquire n =>
    left
    rcases tryAcquire_cases s.svc n with hs | ⟨-, hs⟩ <;> rw [Section.apply, hs] <;> exact h
  | promoteAwaiting =>
    rw [Section.apply, (promoteAwaiting_frame ..).2.2.1]
    exact .inl h
  | transition | take =>
    rw [Section.apply, (transitionSessionToStarting_frame ..).2.2.1]
    exact .inl h
  | pull d' =>
    by_cases hd : d = d'
    · rw [hd]
      exact .inr (.inl rfl)
    · left
      rw [Section.apply, pullCancellationForDaemon_daemonPullCancellations, HashMap.get_remove,
        if_neg hd]
      exact h
  | cleanupOld | clear => exact hok.elim

end Step

theorem flagsLive_of_cancels_own {s : System} (hs : ReachedWith CancelsOwn s) :
    FlagsLive s.svc := by
  refine ReachedWith.invariant_ids (I := fun s => FlagsLive s.svc) ?_ (fun _ _ _ _ h _ _ => h)
    (fun s c k e sec k' hids h hc hf hok => h.next hids (hids.fromIds hc hf) hok) hs
  intro d flag hflag
  cases hflag

/-- In a run whose sections all cancel their own session, every cancellation that a work request
polls is for a live session of the daemon, and a flag goes only when it is polled or when its
session ends. -/
theorem cancellation_reaches_own_session {s : System} (hs : ReachedWith CancelsOwn s) :
    CancelsLive s ∧ ∀ l s', sessionSystem.step s l = some s' →
      (∀ sec, s.sectionOf l = some sec → CancelsOwn s sec) → KeepsFlags s l s' := by
  have hids := idsInv_of_reached hs
  have hlive := flagsLive_of_cancels_own hs
  constructor
  · intro c d hc id hpending
    cases hflag : s.svc.daemonPullCancellations.get d with
    | none =>
      rw [pendingCancellation, hflag] at hpending
      cases hpending
    | some flag =>
      rw [pendingCancellation, hflag, getD_some] at hpending
      subst hpending
      obtain ⟨p, hp, hd⟩ := hlive d _ hflag
      exact ⟨p, hp, hd, (hids.stored _ p hp).2⟩
  · rintro (⟨c, k⟩ | ⟨c, e⟩) s' hstep hok d flag hflag
    · obtain ⟨-, -, -, rfl⟩ := System.step_call hstep
      exact .inl hflag
    · obtain ⟨k, sec, k', hc, hf, hsec, rfl⟩ := System.step_next hstep
      rcases flag_after hlive (hok sec hsec) hflag with hkept | rfl | hend
      · exact .inl hkept
      · exact .inr (.inl hsec)
      · exact .inr (.inr ⟨sec, hsec, hend⟩)

def cancelledRun : List Label :=
  startRun 0 exampleDiscovery 10 ++ workRun 1 1 ++
    updateRun 2 (exampleUpdate 10 .scanning) [100] ++ callRun 3 (.cancelCalled 10) [{}, {}, {}] ++
    callRun 4 (.workCalled 1 true) [{}]

/-- Enough for `CancelsOwn`, and evaluated on the run. -/
def cancelsOwnCheck (s : System) : Section → Bool
  | .setCancellation d id => (s.svc.sessions.get id).any (fun p => decide (p.daemonId = d)) &&
    (s.svc.daemonPullCancellations.get d).isNone
  | .update u _ _ => (s.svc.sessions.get u.sessionId).all
    (fun p => decide (p.daemonId = u.daemonId)) && !u.phase.isTerminal
  | .cancelQueued .. | .cleanupOld .. | .clear _ => false
  | _ => true

theorem cancelsOwn_of_check {s : System} {sec : Section} (h : cancelsOwnCheck s sec = true) :
    CancelsOwn s sec := by
  cases sec with
  | setCancellation d id =>
    simp only [cancelsOwnCheck, and_eq_true, Option.any_eq_true, decide_eq_true_eq,
      isNone_iff_eq_none] at h
    refine ⟨h.1, fun flag hflag => ?_⟩
    cases h.2.symm.trans hflag
  | update u now db =>
    simp only [cancelsOwnCheck, and_eq_true, not_eq_true'] at h
    refine ⟨fun p hp => ?_, fun ht => ?_⟩
    · simpa [hp] using h.1
    · cases h.2.symm.trans ht
  | cancelQueued | cleanupOld | clear => cases h
  | _ => trivial

theorem cancellation_reaches_own_session_cancelledRun :
    sessionSystem.run .init cancelledRun = some (endState cancelledRun) ∧
      (endState cancelledRun).svc.pendingCancellation 1 = (true, 10) ∧
      CancelsLive (endState cancelledRun) ∧
      ∀ s', sessionSystem.step (endState cancelledRun) (.next 4 {}) = some s' →
        KeepsFlags (endState cancelledRun) (.next 4 {}) s' := by
  have hrun := run_endState cancelledRun (by decide +kernel)
  have hpoll : Satisfies CancelsOwn (endState cancelledRun) [.next 4 {}] :=
    satisfies_of_checkRun (fun _ _ => cancelsOwn_of_check) (by decide +kernel)
  obtain ⟨hlive, hkeeps⟩ := cancellation_reaches_own_session
    (reachedWith_of_run (fun _ _ => cancelsOwn_of_check) hrun (by decide +kernel))
  exact ⟨hrun, by decide +kernel, hlive, fun s' hstep => hkeeps _ s' hstep hpoll.1⟩

def lateCancellationRun : List Label :=
  startRun 0 exampleDiscovery 10 ++ workRun 1 1 ++
    updateRun 2 (exampleUpdate 10 .scanning) [100] ++ callRun 3 (.cancelCalled 10) [{}, {}] ++
    updateRun 4 (exampleUpdate 10 .complete) [100] ++ [.next 3 {}] ++
    callRun 5 (.workCalled 1 false) [{}]

theorem not_cancellation_reaches_own_session :
    ¬ ((∀ s, sessionSystem.Reachable s → CancelsLive s) ∧
      ∀ s l s', sessionSystem.Reachable s → sessionSystem.step s l = some s' →
        KeepsFlags s l s') := by
  rintro ⟨h, -⟩
  have hs := h _ (reachable_endState lateCancellationRun (by decide +kernel))
  obtain ⟨k, hk, hserved⟩ := (Option.any_eq_true _ _).mp
    (show ((endState lateCancellationRun).calls.get 5).any (fun k => match k with
      | .workServed d => decide (d = 1)
      | _ => false) = true by decide +kernel)
  cases k with
  | workServed d =>
    rw [of_decide_eq_true hserved] at hk
    obtain ⟨p, hp, -⟩ := hs 5 1 hk 10 (by decide +kernel)
    have hgone : ((endState lateCancellationRun).svc.sessions.get 10).isNone = true := by
      decide +kernel
    rw [hp] at hgone
    cases hgone
  | _ => cases hserved

end Scanopy
