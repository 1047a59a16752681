import Scanopy.Discovery.SessionIds

/-! Dispatch of sessions. A session that has been handed to its daemon must not become Pending
again, and two work requests that both read a session as Pending must not both get it. -/

namespace Scanopy
open List Option Bool DiscoveryService DiscoveryPhase

def NeverReoffered (s : System) : Prop :=
  (∀ id ∈ s.history.dispatched, ∀ p, s.svc.sessions.get id = some p → p.phase.isWaiting = false) ∧
    ∀ d, ∀ p ∈ s.svc.getSessionsForDaemon d, p.sessionId ∉ s.history.dispatched

def KeepsDispatched (s : System) : Section → Prop
  | .update u _ _ =>
    (u.phase.isWaiting = true → u.sessionId ∉ s.history.dispatched) ∧
    (u.phase.isTerminal = true → s.svc.ignoresUpdate u = false →
      ∀ p, s.svc.nextSession u.daemonId u.sessionId = some p → p.phase.isDispatched = false)
  | .cancelQueued session _ =>
    session.phase = .pending → ∀ p, s.svc.nextSession session.daemonId session.sessionId = some p →
      p.phase.isDispatched = false
  | _ => True

theorem mem_getSessionsForDaemon {s : DiscoveryService} {d : Uuid} {p : DiscoveryUpdatePayload} :
    p ∈ s.getSessionsForDaemon d ↔
      ∃ id ∈ s.queue d, s.sessions.get id = some p ∧ p.phase = .pending := by
  simp only [getSessionsForDaemon, mem_filter, mem_filterMap, beq_iff_eq]
  constructor
  · rintro ⟨⟨id, hid, hp⟩, hph⟩
    exact ⟨id, hid, hp, hph⟩
  · rintro ⟨id, hid, hp, hph⟩
    exact ⟨⟨id, hid, hp⟩, hph⟩

variable {sec : Section} {s : System}

theorem neverReoffered_iff :
    NeverReoffered s ↔ ∀ id ∈ s.history.dispatched, ∀ p, s.svc.sessions.get id = some p →
      p.phase.isWaiting = false := by
  refine ⟨And.left, fun h => ⟨h, fun d p hp hid => ?_⟩⟩
  obtain ⟨id, -, hget, hpending⟩ := mem_getSessionsForDaemon.mp hp
  rw [SessionMap.get_sessionId hget] at hid
  have hwait := h id hid p hget
  rw [hpending] at hwait
  cases hwait

section Step
variable {s : System} {c : ℕ} {k : Call} {e : Env} {sec : Section} {k' : Option Call}
variable {p : DiscoveryUpdatePayload} {id : Uuid}

def DispatchRecorded (s : System) : Prop :=
  ∀ id p, s.svc.sessions.get id = some p → p.phase.isDispatched = true →
    id ∈ s.history.dispatched

theorem dispatchRecorded_of_reachable (hs : sessionSystem.Reachable s) : DispatchRecorded s := by
  refine Lts.ReachableVia.invariant (P := DispatchRecorded) (fun _ _ h => by cases h) ?_ hs
  rintro s (⟨c, k⟩ | ⟨c, e⟩) s' - h - hstep
  · obtain ⟨-, -, -, rfl⟩ := System.step_call hstep
    exact h
  · obtain ⟨k, sec, k', -, -, -, rfl⟩ := System.step_next hstep
    exact fun id p hp hd => Finset.mem_union_right _ (IdsInv.mem_dispatchedIds.mpr ⟨p, hp, hd⟩)

theorem not_neverReoffered_of_promoted
    (hrec : DispatchRecorded s) (hp : s.svc.sessions.get id = some p)
    (hd : p.phase.isDispatched = true)
    (hafter : (sec.apply s.svc).sessions.get id = some (p.withPhase .pending)) :
    ¬ NeverReoffered (s.after c sec k') := by
  intro h
  have hid : id ∈ (s.after c sec k').history.dispatched := Finset.mem_union_left _ (hrec id p hp hd)
  have hwait := h.1 id hid _ hafter
  rw [DiscoveryUpdatePayload.withPhase_phase] at hwait
  cases hwait

theorem keepsDispatched_of_neverReoffered (hrec : DispatchRecorded s)
    (h : NeverReoffered (s.after c sec k')) : KeepsDispatched s sec := by
  cases sec with
  | update u now db =>
    refine ⟨fun hw hid => ?_, fun ht hi p hnext => eq_false_iff.mpr fun hd => ?_⟩
    · have ht : u.phase.isTerminal = false := isTerminal_eq_false_of_isWaiting hw
      have hget : (s.svc.updateSession u now db).sessions.get u.sessionId = some u := by
        rw [get_updateSession_of_not_terminal _ _ _ _ ht, if_pos rfl]
      have hwait := h.1 u.sessionId (Finset.mem_union_left _ hid) u hget
      rw [hw] at hwait
      cases hwait
    · obtain ⟨id, hn, hp⟩ := bind_eq_some_iff.mp hnext
      refine not_neverReoffered_of_promoted hrec hp hd ?_ h
      rw [Section.apply, get_updateSession_of_terminal _ _ _ _ ht hi,
        if_neg (nextInQueue_eq_some hn).2, if_pos hn, hp]
      rfl
  | cancelQueued session now =>
    refine fun hs p hnext => eq_false_iff.mpr fun hd => ?_
    obtain ⟨id, hn, hp⟩ := bind_eq_some_iff.mp hnext
    refine not_neverReoffered_of_promoted hrec hp hd ?_ h
    rw [Section.apply, get_cancelQueued, if_neg (nextInQueue_eq_some hn).2, if_pos ⟨hs, hn⟩, hp]
    rfl
  | _ => trivial

theorem StoredBy.not_waiting (hids : IdsInv s) (h : NeverReoffered s)
    (hsec : sec.FromIds s.history) (hok : KeepsDispatched s sec) (hid : id ∈ s.history.dispatched)
    (hp : StoredBy s.svc sec id p) : p.phase.isWaiting = false := by
  -- a session that is stored, recorded as dispatched and not in a dispatched phase cannot be
  have hpromoted : ∀ q, s.svc.sessions.get id = some q → q.phase.isDispatched = false → False := by
    intro q hq hd
    have hwait := h.1 id hid q hq
    have ht := (hids.stored id q hq).2
    revert hd hwait ht
    cases q.phase <;> simp [isDispatched, isWaiting,
      isTerminal]
  cases hp with
  | kept hp => exact h.1 id hid p hp
  | stored => exact absurd hsec.1 (hids.dispatched _ hid).2
  | updated ht => exact eq_false_iff.mpr fun hw => hok.1 hw hid
  | promotedByUpdate ht hi hn hq =>
    exact (hpromoted _ hq (hok.2 ht hi _ (nextSession_eq_some hn hq))).elim
  | promotedByCancel hs hn hq =>
    exact (hpromoted _ hq (hok hs _ (nextSession_eq_some hn hq))).elim
  | promotedBySweep hq hqueued => exact (hpromoted _ hq (by rw [hqueued]; rfl)).elim
  | released hq _ ha => exact (hpromoted _ hq (by rw [ha]; rfl)).elim
  | transitioned | taken => rfl

theorem neverReoffered_next (hids : IdsInv s) (hrec : DispatchRecorded s) (h : NeverReoffered s)
    (hc : s.calls.get c = some k) (hf : Fires s e k sec k') :
    NeverReoffered (s.after c sec k') ↔ KeepsDispatched s sec := by
  refine ⟨keepsDispatched_of_neverReoffered hrec, fun hok => neverReoffered_iff.mpr ?_⟩
  intro id hid p hp
  rcases Finset.mem_union.mp hid with hid | hid
  · exact (storedBy_of_get hp).not_waiting hids h (hids.fromIds hc hf) hok hid
  · obtain ⟨q, hq, hd⟩ := IdsInv.mem_dispatchedIds.mp hid
    cases hp.symm.trans hq
    exact isWaiting_eq_false_of_isDispatched hd

end Step

/-- The runs in which no dispatched session ever waits again are exactly those whose sections all
keep the dispatched sessions. -/
theorem never_reoffered_iff_keeps_dispatched {ls : List Label} {s : System}
    (h : sessionSystem.run .init ls = some s) :
    sessionSystem.Always NeverReoffered .init ls ↔ Satisfies KeepsDispatched .init ls := by
  refine always_iff_satisfies ?_ (fun s c k hP hk => ?_) (fun s c k e sec k' hs hP hc hf => ?_) h
  · exact neverReoffered_iff.mpr fun id hid => by cases hid
  · exact neverReoffered_iff.mpr hP.1
  · exact neverReoffered_next (idsInv_of_reachable hs) (dispatchRecorded_of_reachable hs) hP hc hf

def dispatchedRun : List Label :=
  startRun 0 exampleDiscovery 10 ++ workRun 1 1 ++ updateRun 2 (exampleUpdate 10 .scanning) [100]

theorem never_reoffered_dispatchedRun :
    sessionSystem.run .init dispatchedRun = some (endState dispatchedRun) ∧
      10 ∈ (endState dispatchedRun).history.dispatched ∧
      sessionSystem.Always NeverReoffered .init dispatchedRun := by
  have hrun := run_endState dispatchedRun (by decide +kernel)
  refine ⟨hrun, by decide +kernel, (never_reoffered_iff_keeps_dispatched hrun).mpr ?_⟩
  refine satisfies_of_checkRun (f := fun _ sec => match sec with
    | .update u .. => !u.phase.isWaiting && !u.phase.isTerminal
    | .cancelQueued .. => false
    | _ => true) (fun s sec hsec => ?_) (by decide +kernel)
  cases sec with
  | update u now db =>
    rw [and_eq_true, not_eq_true', not_eq_true'] at hsec
    refine ⟨fun hw => ?_, fun ht => ?_⟩
    · rw [hsec.1] at hw
      cases hw
    · rw [hsec.2] at ht
      cases ht
  | cancelQueued => cases hsec
  | _ => trivial

/-- Then the daemon sends a terminal update for a session that the server does not know; the
session that it is scanning becomes Pending. -/
def reofferedRun : List Label :=
  dispatchedRun ++ updateRun 3 (exampleUpdate 11 .complete) [100]

theorem not_never_reoffered : ¬ ∀ s, sessionSystem.Reachable s → NeverReoffered s := by
  intro h
  have hs := h _ (reachable_endState reofferedRun (by decide +kernel))
  obtain ⟨p, hp, hwait⟩ := (Option.any_eq_true _ _).mp
    (show ((endState reofferedRun).svc.sessions.get 10).any (·.phase.isWaiting) = true by
      decide +kernel)
  have hnot := hs.1 10 (by decide +kernel) p hp
  rw [hwait] at hnot
  cases hnot

def TakesPending (s : System) : Section → Prop
  | .take id _ => (s.svc.sessions.get id).any (·.phase = .pending) = true
  | sec => KeepsDispatched s sec

theorem TakesPending.keepsDispatched (h : TakesPending s sec) :
    KeepsDispatched s sec := by
  cases sec with
  | take => trivial
  | _ => exact h

structure ReturnedOnce (s : System) : Prop where
  recorded : DispatchRecorded s
  kept : NeverReoffered s
  dispatched : ∀ id ∈ s.history.returned, id ∈ s.history.dispatched
  nodup : s.history.returned.Nodup

theorem ReturnedOnce.next {c : ℕ} {k : Call} {e : Env}
    {k' : Option Call} (hids : IdsInv s) (h : ReturnedOnce s) (hc : s.calls.get c = some k)
    (hf : Fires s e k sec k') (hok : TakesPending s sec) : ReturnedOnce (s.after c sec k') := by
  have hrec : DispatchRecorded (s.after c sec k') := fun id p hp hd =>
    Finset.mem_union_right _ (IdsInv.mem_dispatchedIds.mpr ⟨p, hp, hd⟩)
  have hkept := (neverReoffered_next hids h.recorded h.kept hc hf).mpr hok.keepsDispatched
  have hold : ∀ id ∈ s.history.returned, id ∈ (s.after c sec k').history.dispatched :=
    fun id hid => Finset.mem_union_left _ (h.dispatched id hid)
  cases sec with
  | take id now =>
    obtain ⟨p, hp, hpending⟩ := (Option.any_eq_true _ _).mp hok
    rw [decide_eq_true_eq] at hpending
    have hafter : (s.after c (.take id now) k').svc.sessions.get id =
        some (p.withPhase .starting) := by
      change (s.svc.transitionSessionToStarting id now).sessions.get id = _
      rw [get_transitionSessionToStarting, if_pos ⟨rfl, hok⟩, hp]
      rfl
    refine ⟨hrec, hkept, fun x hx => ?_, nodup_cons.mpr ⟨fun hid => ?_, h.nodup⟩⟩
    · rcases mem_cons.mp hx with rfl | hx
      · exact hrec x _ hafter rfl
      · exact hold x hx
    · -- a session returned before is dispatched, so it is not Pending now
      have hwait := h.kept.1 id (h.dispatched id hid) p hp
      rw [hpending] at hwait
      cases hwait
  | _ => exact ⟨hrec, hkept, hold, h.nodup⟩

theorem ReturnedOnce.init : ReturnedOnce System.init where
  recorded _ _ h := by cases h
  kept := neverReoffered_iff.mpr fun _ h => by cases h
  dispatched _ h := by cases h
  nodup := nodup_nil

theorem returned_nodup_of_takes_pending {s : System} (hs : ReachedWith TakesPending s) :
    s.history.returned.Nodup := by
  have hinv : ReturnedOnce s := ReachedWith.invariant_ids .init
    (fun s c k _ h _ _ => ⟨h.recorded, neverReoffered_iff.mpr h.kept.1, h.dispatched, h.nodup⟩)
    (fun _ _ _ _ _ _ hids h hc hf hok => h.next hids hc hf hok) hs
  exact hinv.nodup

def twoRequestsRun : List Label :=
  startRun 0 exampleDiscovery 10 ++ startRun 0 { exampleDiscovery with id := 101 } 11 ++
    workRun 1 1 ++ callRun 2 (.workCalled 1 true) [{}, {}]

theorem returned_nodup_twoRequestsRun :
    sessionSystem.run .init twoRequestsRun = some (endState twoRequestsRun) ∧
      (endState twoRequestsRun).history.returned = [10] ∧
      (endState twoRequestsRun).history.returned.Nodup := by
  have hrun := run_endState twoRequestsRun (by decide +kernel)
  refine ⟨hrun, by decide +kernel, returned_nodup_of_takes_pending ?_⟩
  refine reachedWith_of_run (f := fun s sec => match sec with
    | .take id _ => (s.svc.sessions.get id).any (·.phase = .pending)
    | .update .. | .cancelQueued .. => false
    | _ => true) (fun s sec hsec => ?_) hrun (by decide +kernel)
  cases sec with
  | take => exact hsec
  | update | cancelQueued => cases hsec
  | _ => trivial

def racingRequestsRun : List Label :=
  startRun 0 exampleDiscovery 10 ++ [.call 1 (.workCalled 1 true), .call 2 (.workCalled 1 true),
    .next 1 {}, .next 2 {}, .next 1 {}, .next 2 {}, .next 1 {}, .next 2 {}]

theorem not_returned_nodup :
    ¬ ∀ s, sessionSystem.Reachable s → s.history.returned.Nodup := by
  intro h
  have hs := h _ (reachable_endState racingRequestsRun (by decide +kernel))
  have htwice : (endState racingRequestsRun).history.returned = [10, 10] := by decide +kernel
  rw [htwice] at hs
  exact (nodup_cons.mp hs).1 mem_cons_self

end Scanopy
