import Scanopy.Lib.Greedy
import Scanopy.Discovery.Effects
import Scanopy.Discovery.Runs

/-! Release of a network after its snapshot: the sessions that awaited it are visited in the
iteration order of the map, and one whose daemon has nothing to do becomes Pending. -/

namespace Scanopy
open List Option SessionMap
namespace DiscoveryService

def daemonOf (s : DiscoveryService) (id : Uuid) : Uuid :=
  ((s.sessions.get id).map (·.daemonId)).getD Uuid.nil

def Idle (s : DiscoveryService) (d : Uuid) : Prop :=
  ∀ id ∈ s.queue d, ∀ p, s.sessions.get id = some p → p.phase.canBeCleanedUp = false

/-- The first of `ids` that is a session of the daemon and awaits a snapshot of the network. -/
def firstAwaiting (s : DiscoveryService) (n d : Uuid) (ids : List Uuid) : Option Uuid :=
  Greedy.first s.daemonOf (s.awaitingSessionIds n ids) d

end DiscoveryService

open DiscoveryService
variable {s : DiscoveryService} {n : Uuid} {now : Timestamp} {order : List Uuid}
variable {p : DiscoveryUpdatePayload} {id : Uuid}

def MadePending (s t : DiscoveryService) (id : Uuid) : Prop :=
  (∃ p, s.sessions.get id = some p ∧ p.phase ≠ .pending) ∧
    ∃ q, t.sessions.get id = some q ∧ q.phase = .pending

/-- A release of the network `n` that leads from `s` to `t` leaves no session of the network
awaiting, leaves the sessions of other networks alone, makes at most one session of a daemon
Pending, the earliest one in the daemon's queue, and makes one Pending for every daemon that had
sessions awaiting and nothing Pending or dispatched. -/
structure RestoresQueues (n : Uuid) (s t : DiscoveryService) : Prop where
  released : ∀ id p, t.sessions.get id = some p → p.networkId = n → p.phase ≠ .awaitingSnapshot
  others : ∀ id p, p.networkId ≠ n → (t.sessions.get id = some p ↔ s.sessions.get id = some p)
  atMostOne : ∀ id id', MadePending s t id → MadePending s t id' →
    s.daemonOf id = s.daemonOf id' → id = id'
  earliest : ∀ id, MadePending s t id →
    s.firstAwaiting n (s.daemonOf id) (s.queue (s.daemonOf id)) = some id
  served : ∀ d, s.Idle d → (∃ id p, s.sessions.get id = some p ∧ p.daemonId = d ∧
    p.networkId = n ∧ p.phase = .awaitingSnapshot) → ∃ id, MadePending s t id ∧ s.daemonOf id = d

/-- For every idle daemon, the iteration visits first the session that is first in the daemon's
queue among those that await; and if the first one of another idle daemon stands in this queue too,
it is visited later. -/
def VisitsInQueueOrder (s : DiscoveryService) (n : Uuid) (order : List Uuid) : Prop :=
  ∀ d, s.Idle d → ∀ id, s.firstAwaiting n d order = some id →
    s.firstAwaiting n d (s.queue d) = some id ∧
    ∀ d', d' ≠ d → s.Idle d' → ∀ id', s.firstAwaiting n d' order = some id' → id' ∈ s.queue d →
      (s.awaitingSessionIds n order).idxOf id < (s.awaitingSessionIds n order).idxOf id'

theorem daemonOf_eq (h : s.sessions.get id = some p) :
    s.daemonOf id = p.daemonId := by
  rw [daemonOf, h]
  rfl

theorem nodup_awaitingSessionIds (h : order.Nodup) : (s.awaitingSessionIds n order).Nodup := by
  have hids : ∀ l : List Uuid, (l.filterMap s.sessions.get).map (·.sessionId) =
      l.filter fun id => (s.sessions.get id).isSome := by
    intro l
    induction l with
    | nil => rfl
    | cons id l ih =>
      cases hg : s.sessions.get id with
      | none => simp [hg, ih]
      | some p => simp [hg, ih, get_sessionId hg]
  have hsub : (s.awaitingSessionIds n order).Sublist (order.filter fun id =>
      (s.sessions.get id).isSome) := by
    rw [← hids]
    exact Sublist.map _ filter_sublist
  exact hsub.nodup (h.filter _)

theorem releaseSessions_append (l₁ l₂ : List Uuid) (s : DiscoveryService) :
    releaseSessions now (l₁ ++ l₂) s = releaseSessions now l₂ (releaseSessions now l₁ s) := by
  induction l₁ generalizing s with
  | nil => rfl
  | cons id l₁ ih => exact ih _

theorem releaseSessions_daemonSessions (ids : List Uuid) (s : DiscoveryService) :
    (releaseSessions now ids s).daemonSessions = s.daemonSessions :=
  releaseSessions_induction (I := fun t => t.daemonSessions = s.daemonSessions) now
    (fun _ id h => (releaseSession_frame now id).1.trans h) ids rfl

theorem daemonHasActive_releaseSessions {l₁ : List Uuid} {x d : Uuid}
    (hawait : ∀ y ∈ x :: l₁, ∃ p, s.sessions.get y = some p ∧ p.phase = .awaitingSnapshot)
    (hx : x ∉ l₁) :
    (releaseSessions now l₁ s).daemonHasActive d x = true ↔ ¬ s.Idle d ∨ ∃ y ∈ l₁, y ∈ s.queue d ∧
        ∃ q, (releaseSessions now l₁ s).sessions.get y = some q ∧ q.phase = .pending := by
  rw [daemonHasActive_eq_true, queue_congr (releaseSessions_daemonSessions l₁ s)]
  constructor
  · rintro ⟨z, hz, -, q, hq, hactive⟩
    by_cases hmem : z ∈ l₁
    · obtain ⟨p, hp, -⟩ := hawait z (mem_cons_of_mem _ hmem)
      obtain ⟨ph, hph, hget⟩ := get_releaseSessions_of_mem now hmem hp
      refine .inr ⟨z, hmem, hz, q, hq, ?_⟩
      cases hq.symm.trans hget
      rcases hph with rfl | rfl
      · cases hactive
      · rfl
    · rw [get_releaseSessions_of_not_mem now hmem] at hq
      refine .inl fun hidle => ?_
      rw [hidle z hz q hq] at hactive
      cases hactive
  · rintro (hidle | ⟨y, hy, hyd, q, hq, hpending⟩)
    · simp only [Idle, not_forall] at hidle
      obtain ⟨z, hz, q, hq, hactive⟩ := hidle
      rw [Bool.not_eq_false] at hactive
      have hnot : z ∉ x :: l₁ := by
        intro hmem
        obtain ⟨p, hp, ha⟩ := hawait z hmem
        cases hq.symm.trans hp
        rw [ha] at hactive
        cases hactive
      rw [mem_cons, not_or] at hnot
      refine ⟨z, hz, hnot.1, q, ?_, hactive⟩
      rw [get_releaseSessions_of_not_mem now hnot.2, hq]
    · refine ⟨y, hyd, ?_, q, hq, by rw [hpending]; rfl⟩
      rintro rfl
      exact hx hy

theorem selects_releaseSessions {ids : List Uuid} (hnd : ids.Nodup)
    (hawait : ∀ y ∈ ids, ∃ p, s.sessions.get y = some p ∧ p.phase = .awaitingSnapshot) :
    Greedy.Selects s.daemonOf s.Idle (fun d id => id ∈ s.queue d) ids fun id =>
      ∃ q, (releaseSessions now ids s).sessions.get id = some q ∧ q.phase = .pending := by
  rintro l₁ x l₂ rfl
  obtain ⟨p, hp, -⟩ := hawait x (mem_append_right _ mem_cons_self)
  have hx₁ : x ∉ l₁ := fun hx => disjoint_of_nodup_append hnd hx mem_cons_self
  have hx₂ : x ∉ l₂ := (nodup_cons.mp (nodup_append.mp hnd).2.1).1
  -- the visits before `x` are over, those after it do not touch it
  have hbefore : ∀ y ∈ l₁, (releaseSessions now (l₁ ++ x :: l₂) s).sessions.get y =
      (releaseSessions now l₁ s).sessions.get y := by
    intro y hy
    rw [releaseSessions_append]
    exact get_releaseSessions_of_not_mem now
      fun hy' => disjoint_of_nodup_append hnd hy hy'
  have hget : (releaseSessions now (l₁ ++ x :: l₂) s).sessions.get x =
      some (p.withPhase ((releaseSessions now l₁ s).releasePhase p)) := by
    have hp₁ : (releaseSessions now l₁ s).sessions.get x = some p := by
      rw [get_releaseSessions_of_not_mem now hx₁, hp]
    rw [releaseSessions_append, releaseSessions, get_releaseSessions_of_not_mem now hx₂,
      get_releaseSession now hp₁, if_pos rfl]
  have hphase : (∃ q, (releaseSessions now (l₁ ++ x :: l₂) s).sessions.get x = some q ∧
      q.phase = .pending) ↔ ¬ (releaseSessions now l₁ s).daemonHasActive p.daemonId x = true := by
    rw [hget]
    simp only [some.injEq, exists_eq_left', DiscoveryUpdatePayload.withPhase_phase,
      releasePhase, get_sessionId hp]
    split_ifs with ha <;> simp [ha]
  beta_reduce
  rw [hphase, daemonHasActive_releaseSessions (fun y hy => hawait y ?_) hx₁, daemonOf_eq hp]
  · simp only [not_or, not_not, not_exists, not_and]
    refine and_congr_right fun _ => forall₂_congr fun y hy => ?_
    rw [hbefore y hy]
    constructor
    · rintro hfree ⟨q, hq, hph⟩ hmem
      exact hfree hmem q hq hph
    · intro hfree hmem q hq hph
      exact hfree ⟨q, hq, hph⟩ hmem
  · rcases mem_cons.mp hy with rfl | hy
    · exact mem_append_right _ mem_cons_self
    · exact mem_append_left _ hy

theorem mem_of_mem_awaitingSessionIds (h : id ∈ s.awaitingSessionIds n order) :
    id ∈ order := by
  obtain ⟨p, hp, rfl⟩ := List.mem_map.mp h
  obtain ⟨x, hx, hg⟩ := mem_filterMap.mp (mem_of_mem_filter hp)
  rwa [get_sessionId hg]

theorem madePending_release :
    MadePending s (s.releaseNetworkForSnapshot n now order) id ↔ id ∈ s.awaitingSessionIds n order ∧
        ∃ q, (s.releaseNetworkForSnapshot n now order).sessions.get id = some q ∧
          q.phase = .pending := by
  constructor
  · rintro ⟨⟨p, hp, hph⟩, q, hq, hpending⟩
    refine ⟨?_, q, hq, hpending⟩
    by_contra hid
    have hkept : (s.releaseNetworkForSnapshot n now order).sessions.get id = s.sessions.get id :=
      get_releaseSessions_of_not_mem now (s := s.dropSnapshot n) hid
    rw [hkept, hp] at hq
    cases hq
    exact hph hpending
  · rintro ⟨hid, hpending⟩
    obtain ⟨p, hp, -, ha⟩ := of_mem_awaitingSessionIds hid
    refine ⟨⟨p, hp, ?_⟩, hpending⟩
    rw [ha]
    decide

theorem get_release_of_other (hn : p.networkId ≠ n) :
    (s.releaseNetworkForSnapshot n now order).sessions.get id = some p ↔
      s.sessions.get id = some p := by
  by_cases hid : id ∈ s.awaitingSessionIds n order
  · obtain ⟨q, hq, hqn, -⟩ := of_mem_awaitingSessionIds hid
    obtain ⟨ph, -, hget⟩ := get_releaseSessions_of_mem now (s := s.dropSnapshot n) hid hq
    -- a session that awaited the snapshot is on the network before and after
    constructor
    · intro hp
      cases hp.symm.trans hget
      exact absurd hqn hn
    · intro hp
      cases hp.symm.trans hq
      exact absurd hqn hn
  · have hkept : (s.releaseNetworkForSnapshot n now order).sessions.get id = s.sessions.get id :=
      get_releaseSessions_of_not_mem now (s := s.dropSnapshot n) hid
    rw [hkept]

theorem restores_queues_iff_visits_in_queue_order (ho : s.sessions.map.Enumerates order) :
    RestoresQueues n s (s.releaseNetworkForSnapshot n now order) ↔
      VisitsInQueueOrder s n order := by
  have hnd := nodup_awaitingSessionIds (s := s) (n := n) ho.1
  have hselects : Greedy.Selects s.daemonOf s.Idle (fun d id => id ∈ s.queue d)
      (s.awaitingSessionIds n order) fun id =>
        ∃ q, (s.releaseNetworkForSnapshot n now order).sessions.get id = some q ∧
          q.phase = .pending := by
    refine selects_releaseSessions (s := s.dropSnapshot n) hnd fun y hy => ?_
    obtain ⟨p, hp, -, ha⟩ := of_mem_awaitingSessionIds hy
    exact ⟨p, hp, ha⟩
  have hgreedy : _ ↔ VisitsInQueueOrder s n order := hselects.iff_follows hnd
    (q := fun d => s.firstAwaiting n d (s.queue d))
    fun d x hx => mem_of_mem_awaitingSessionIds (Greedy.mem_of_first hx)
  rw [← hgreedy]
  constructor
  · intro h
    refine ⟨fun x hx hpending => h.earliest x (madePending_release.mpr ⟨hx, hpending⟩), ?_⟩
    rintro d hd ⟨x, hx, rfl⟩
    obtain ⟨p, hp, hn, ha⟩ := of_mem_awaitingSessionIds hx
    obtain ⟨id, hmade, hid⟩ := h.served _ hd ⟨x, p, hp, (daemonOf_eq hp).symm, hn, ha⟩
    obtain ⟨hmem, hpending⟩ := madePending_release.mp hmade
    exact ⟨id, hmem, hid, hpending⟩
  · rintro ⟨hearliest, hserved⟩
    have hfirst : ∀ id, MadePending s (s.releaseNetworkForSnapshot n now order) id →
        s.firstAwaiting n (s.daemonOf id) (s.queue (s.daemonOf id)) = some id := by
      intro id hmade
      obtain ⟨hmem, hpending⟩ := madePending_release.mp hmade
      exact hearliest id hmem hpending
    refine ⟨fun id p hp hn => ?_, fun id p hn => get_release_of_other hn,
      fun id id' hid hid' hd => ?_, hfirst, ?_⟩
    · exact ne_awaiting_promoteAwaiting now (s := s.dropSnapshot n) ho hp hn
    · have h := hfirst id hid
      rw [hd, hfirst id' hid'] at h
      exact (some.inj h).symm
    · rintro d hd ⟨id, p, hp, hpd, hn, ha⟩
      obtain ⟨x, hx, hxd, hpending⟩ := hserved d hd
        ⟨id, (mem_awaitingSessionIds ho).mpr ⟨p, hp, hn, ha⟩, (daemonOf_eq hp).trans hpd⟩
      exact ⟨x, madePending_release.mpr ⟨hx, hpending⟩, hxd⟩

def awaitingRun : List Label :=
  callRun 0 (.acquireCalled 2) [{}] ++ startRun 0 exampleDiscovery 10 ++
    startRun 0 { exampleDiscovery with id := 101 } 11

theorem restores_queues_awaitingRun :
    (endState awaitingRun).svc.sessions.map.Enumerates [10, 11] ∧
      (endState awaitingRun).svc.queue 1 = [10, 11] ∧
      RestoresQueues 2 (endState awaitingRun).svc
        ((endState awaitingRun).svc.releaseNetworkForSnapshot 2 0 [10, 11]) := by
  have ho : (endState awaitingRun).svc.sessions.map.Enumerates [10, 11] := by decide +kernel
  refine ⟨ho, by decide +kernel, (restores_queues_iff_visits_in_queue_order ho).mpr ?_⟩
  have hone : ∀ d id, (endState awaitingRun).svc.firstAwaiting 2 d [10, 11] = some id → d = 1 := by
    intro d id h
    have hmem := mem_of_mem_awaitingSessionIds (Greedy.mem_of_first h)
    have hall : ∀ x ∈ ([10, 11] : List Uuid), (endState awaitingRun).svc.daemonOf x = 1 := by
      decide +kernel
    exact (Greedy.key_of_first h).symm.trans (hall id hmem)
  intro d hd id hid
  obtain rfl := hone d id hid
  have hten : (endState awaitingRun).svc.firstAwaiting 2 1 [10, 11] = some 10 := by decide +kernel
  rw [hten] at hid
  cases hid
  refine ⟨by decide +kernel, fun d' hne hd' id' hid' => ?_⟩
  exact absurd (hone d' id' hid') hne

/-- The iteration visits them the other way round: the one behind becomes Pending, and the front of
the queue waits. -/
theorem not_restores_queues :
    ¬ ∀ s n now order, sessionSystem.Reachable s → n ∈ s.svc.runningSnapshots →
      s.svc.sessions.map.Enumerates order →
        RestoresQueues n s.svc (s.svc.releaseNetworkForSnapshot n now order) := by
  intro h
  have hs := h (endState awaitingRun) 2 0 [11, 10] (reachable_endState _ (by decide +kernel))
    (by decide +kernel) (by decide +kernel)
  have hmade : MadePending (endState awaitingRun).svc
      ((endState awaitingRun).svc.releaseNetworkForSnapshot 2 0 [11, 10]) 11 := by
    refine madePending_release.mpr ⟨by decide +kernel, ?_⟩
    have hpending : (((endState awaitingRun).svc.releaseNetworkForSnapshot 2 0
        [11, 10]).sessions.get 11).any (fun q => decide (q.phase = .pending)) = true := by
      decide +kernel
    obtain ⟨q, hq, hph⟩ := (Option.any_eq_true _ _).mp hpending
    exact ⟨q, hq, of_decide_eq_true hph⟩
  have hearliest := hs.earliest 11 hmade
  have hten : (endState awaitingRun).svc.firstAwaiting 2 ((endState awaitingRun).svc.daemonOf 11)
      ((endState awaitingRun).svc.queue ((endState awaitingRun).svc.daemonOf 11)) = some 10 := by
    decide +kernel
  rw [hten] at hearliest
  exact absurd (some.inj hearliest) (by decide)

end Scanopy
