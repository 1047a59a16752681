import Scanopy.Discovery.Provenance
import Scanopy.Discovery.Runs

/-! Snapshots and scans of a network exclude each other by the guard of `running_snapshots`, which
an update of a daemon and the promotion of a queued session do not look at. -/

namespace Scanopy
open DiscoveryService DiscoveryPhase Scanopy.System

def SnapshotExclusive (s : DiscoveryService) : Prop :=
  ∀ n ∈ s.runningSnapshots, ∀ id p, s.sessions.get id = some p → p.networkId = n →
    p.phase.canBeCleanedUp = false

def SnapshotsAwaited (s : DiscoveryService) : Prop :=
  ∀ id p, s.sessions.get id = some p → p.networkId ∈ s.runningSnapshots →
    p.phase = .awaitingSnapshot ∨ p.phase.isTerminal = true

variable {s : DiscoveryService} {n : Uuid}

theorem SnapshotsAwaited.exclusive (h : SnapshotsAwaited s) :
    SnapshotExclusive s := by
  rintro n hn id p hp rfl
  rcases h id p hp hn with ha | ht
  · rw [ha]
    rfl
  · exact Bool.eq_false_iff.mpr fun hc => by
      simp [isTerminal_eq_false_of_canBeCleanedUp hc] at ht

/-- The sections that store an active phase look at a network without a snapshot: a daemon's
update reports an active or Queued session only on such a network, the session promoted after a
terminal update or after the cancellation of a Pending session is on such a network, and a release
finds its network not acquired again while it has sessions to release. -/
def AvoidsSnapshots (s : System) : Section → Prop
  | .update u _ _ =>
    (u.phase.isTerminal = false → u.phase ≠ .awaitingSnapshot →
      u.networkId ∉ s.svc.runningSnapshots) ∧
    (u.phase.isTerminal = true → s.svc.ignoresUpdate u = false →
      ∀ p, s.svc.nextSession u.daemonId u.sessionId = some p →
        p.networkId ∉ s.svc.runningSnapshots)
  | .cancelQueued session _ =>
    session.phase = .pending → ∀ p, s.svc.nextSession session.daemonId session.sessionId = some p →
      p.networkId ∉ s.svc.runningSnapshots
  | .promoteAwaiting n _ _ =>
    n ∈ s.svc.runningSnapshots →
      ∀ id p, s.svc.sessions.get id = some p → p.networkId = n → p.phase ≠ .awaitingSnapshot
  | _ => True

/-- Every phase that a section stores on a network with a snapshot is AwaitingSnapshot or
terminal. -/
theorem SnapshotsAwaited.storedBy {s : System} {sec : Section} {id : Uuid}
    {p : DiscoveryUpdatePayload} (h : SnapshotsAwaited s.svc) (hok : AvoidsSnapshots s sec)
    (hstore : ∀ q, sec = .store q → q.networkId ∈ s.svc.runningSnapshots →
      q.phase = .awaitingSnapshot)
    (hp : StoredBy s.svc sec id p) (hn : p.networkId ∈ s.svc.runningSnapshots) :
    p.phase = .awaitingSnapshot ∨ p.phase.isTerminal = true := by
  cases hp with
  | kept hp => exact h id p hp hn
  | stored => exact .inl (hstore p rfl hn)
  | updated ht =>
    by_cases ha : p.phase = .awaitingSnapshot
    · exact .inl ha
    · exact absurd hn (hok.1 ht ha)
  | promotedByUpdate ht hi hnext hq =>
    have hfree := hok.2 ht hi _ (nextSession_eq_some hnext hq)
    exact absurd hn hfree
  | promotedByCancel hs hnext hq =>
    have hfree := hok hs _ (nextSession_eq_some hnext hq)
    exact absurd hn hfree
  | @promotedBySweep _ _ _ _ _ q hq hqueued =>
    -- the cleanup promotes Queued sessions only, and there is none on this network
    have hq' := h id q hq hn
    rw [hqueued] at hq'
    simp [isTerminal] at hq'
  | released hq hqn ha => exact absurd ha (hok (hqn ▸ hn) id _ hq hqn)
  | @transitioned _ _ q hq hpending | @taken _ _ q hq hpending =>
    have hq' := h id q hq hn
    rw [hpending] at hq'
    simp [isTerminal] at hq'

theorem SnapshotsAwaited.acquire (h : SnapshotsAwaited s) :
    SnapshotsAwaited (s.tryAcquireNetworkForSnapshot n).2 := by
  rcases tryAcquire_cases s n with hs | ⟨ht, hs⟩
  · rwa [hs]
  · rw [hs]
    intro id p hp hn
    rcases Finset.mem_insert.mp hn with hpn | hpn
    · exact .inr (ht id p hp hpn)
    · exact h id p hp hpn

theorem SnapshotsAwaited.drop (h : SnapshotsAwaited s) :
    SnapshotsAwaited (s.dropSnapshot n) :=
  fun id p hp hn => h id p hp (Finset.mem_of_mem_erase hn)

/-- What a call has decided under the guard of `running_snapshots` is still so. -/
def SnapshotDecision (running : Finset Uuid) : Call → Prop
  | .startGuarded p blocked => blocked = true ↔ p.networkId ∈ running
  | .startProbed p | .startTracked p => p.phase = .awaitingSnapshot ↔ p.networkId ∈ running
  | _ => True

def System.Decided (s : System) : Prop :=
  ∀ c k, s.calls.get c = some k → SnapshotDecision s.svc.runningSnapshots k

theorem SnapshotDecision.of_not_guard {running : Finset Uuid} {k : Call}
    (h : k.holdsSnapshotGuard = false) : SnapshotDecision running k := by
  cases k <;> trivial

theorem startPhase_eq_awaitingSnapshot {b r : Bool} :
    startPhase b r = .awaitingSnapshot ↔ b = true := by
  cases b <;> cases r <;> decide

section Step
variable {s : System} {c : ℕ} {k : Call} {e : Env} {sec : Section} {k' : Option Call}

theorem System.Decided.spawn (h : s.Decided) (hk : k.isInitial = true) : (s.spawn c k).Decided := by
  refine forall_calls_spawn h (.of_not_guard ?_)
  cases k <;> first | rfl | cases hk

theorem System.Decided.next (h : s.Decided) (hc : s.calls.get c = some k)
    (hf : Fires s e k sec k') : (s.after c sec k').Decided := by
  have hdec := h c k hc
  have hfree : s.snapshotGuardFree = true →
      k'.elim True (SnapshotDecision (sec.apply s.svc).runningSnapshots) →
      (s.after c sec k').Decided := fun hg =>
    forall_calls_after (snapshotGuardFree_iff.mp hg) fun _ => .of_not_guard
  have hsame : sec.writesSnapshots = false →
      k'.elim True (SnapshotDecision s.svc.runningSnapshots) → (s.after c sec k').Decided := by
    intro hw hk'
    change ∀ c' k'', (s.after c sec k').calls.get c' = some k'' →
      SnapshotDecision (sec.apply s.svc).runningSnapshots k''
    rw [runningSnapshots_apply hw]
    exact forall_calls_after h (fun _ => id) hk'
  cases hf with
  | acquire hg => exact hfree hg trivial
  | drop hg => exact hfree hg trivial
  | guard => exact hsame rfl decide_eq_true_iff
  | probe => exact hsame rfl (startPhase_eq_awaitingSnapshot.trans hdec)
  | track | noTrack => exact hsame rfl hdec
  | _ => exact hsame rfl trivial

theorem System.Decided.store (h : s.Decided) (hc : s.calls.get c = some k)
    (hf : Fires s e k sec k') {p : DiscoveryUpdatePayload} (hsec : sec = .store p) :
    p.phase = .awaitingSnapshot ↔ p.networkId ∈ s.svc.runningSnapshots := by
  subst hsec
  cases hf
  exact h c _ hc

theorem SnapshotsAwaited.next (h : SnapshotsAwaited s.svc) (hd : s.Decided)
    (hc : s.calls.get c = some k) (hf : Fires s e k sec k') (hok : AvoidsSnapshots s sec) :
    SnapshotsAwaited (s.after c sec k').svc := by
  change SnapshotsAwaited (sec.apply s.svc)
  cases hw : sec.writesSnapshots with
  | false =>
    intro id p hp hn
    rw [runningSnapshots_apply hw] at hn
    exact h.storedBy hok (fun q hq => (hd.store hc hf hq).mpr) (storedBy_of_get hp) hn
  | true =>
    cases sec with
    | acquire n => exact h.acquire
    | dropSnapshot n => exact h.drop
    | _ => cases hw

end Step

theorem snapshot_exclusive_of_avoids {s : System} (hs : ReachedWith AvoidsSnapshots s) :
    SnapshotExclusive s.svc := by
  have hinv : SnapshotsAwaited s.svc ∧ s.Decided := by
    refine ReachedWith.invariant (I := fun s => SnapshotsAwaited s.svc ∧ s.Decided) ?_
      (fun _ _ _ h _ hk _ => ⟨h.1, h.2.spawn hk⟩)
      (fun _ _ _ _ _ _ h hc hf hok => ⟨h.1.next h.2 hc hf hok, h.2.next hc hf⟩) hs
    constructor
    · intro id p hp
      cases hp
    · intro c k hk
      cases hk
  exact hinv.1.exclusive

def deferredRun : List Label :=
  callRun 0 (.acquireCalled 2) [{}] ++ startRun 0 exampleDiscovery 10

theorem snapshot_exclusive_of_avoids_deferred :
    sessionSystem.run .init deferredRun = some (endState deferredRun) ∧
      2 ∈ (endState deferredRun).svc.runningSnapshots ∧
      ((endState deferredRun).svc.sessions.get 10).map (·.phase) = some .awaitingSnapshot ∧
      SnapshotExclusive (endState deferredRun).svc := by
  have hrun := run_endState deferredRun (by decide +kernel)
  refine ⟨hrun, by decide +kernel, by decide +kernel, snapshot_exclusive_of_avoids ?_⟩
  refine reachedWith_of_run (f := fun _ sec => match sec with
    | .update .. | .cancelQueued .. | .promoteAwaiting .. => false
    | _ => true) (fun s sec hsec => ?_) hrun (by decide +kernel)
  cases sec <;> trivial

def promotedDuringSnapshotRun : List Label :=
  deferredRun ++ updateRun 0 (exampleUpdate 11 .complete) [100]

theorem not_snapshot_exclusive :
    ¬ ∀ s, sessionSystem.Reachable s → SnapshotExclusive s.svc := by
  intro h
  have hs := h _ (reachable_endState promotedDuringSnapshotRun (by decide +kernel))
  obtain ⟨p, hp, hactive⟩ := (Option.any_eq_true _ _).mp
    (show ((endState promotedDuringSnapshotRun).svc.sessions.get 10).any
      (fun p => decide (p.networkId = 2) && p.phase.canBeCleanedUp) = true by decide +kernel)
  rw [Bool.and_eq_true, decide_eq_true_eq] at hactive
  have hquiet := hs 2 (by decide +kernel) 10 p hp hactive.1
  rw [hactive.2] at hquiet
  cases hquiet

end Scanopy
