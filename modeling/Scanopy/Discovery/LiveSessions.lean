import Scanopy.Discovery.SessionIds

/-! One live session for each discovery. `start_session` looks a discovery up under one guard and
maps it under another; an update for an unknown session maps it without looking. -/

namespace Scanopy
open Option DiscoveryService

/-- No two live entries of the sessions map were made by `start_session` for one discovery. -/
def OneLiveSession (s : System) : Prop :=
  ∀ a b d, s.history.origin.get a = some d → s.history.origin.get b = some d →
    ∀ p q, s.svc.sessions.get a = some p → s.svc.sessions.get b = some q →
      p.phase.isTerminal = false → q.phase.isTerminal = false → a = b

/-- `start_session` maps a discovery that still has no session, and an update that creates its
session names no discovery that has another one. -/
def KeepsMapping (s : System) : Section → Prop
  | .mapDiscovery d _ => s.svc.discoverySessions.get d = none
  | .update u _ _ => s.svc.sessions.get u.sessionId = none → s.svc.ignoresUpdate u = false →
    ∀ d, u.discoveryId = some d → ∀ id, s.svc.discoverySessions.get d = some id → id = u.sessionId
  | _ => True

structure MappedInv (s : System) : Prop where
  origin : ∀ id d, s.history.origin.get id = some d → s.svc.discoverySessions.get d = some id
  reserved : ∀ c k, s.calls.get c = some k → ∀ p, k.reserved = some p →
    ∀ d, p.discoveryId = some d → s.svc.discoverySessions.get d = some p.sessionId

theorem MappedInv.init : MappedInv System.init where
  origin _ _ h := by cases h
  reserved _ _ h := by cases h

theorem MappedInv.oneLiveSession {s : System} (h : MappedInv s) : OneLiveSession s := by
  intro a b d ha hb p q _ _ _ _
  have hab := (h.origin a d ha).symm.trans (h.origin b d hb)
  exact some.inj hab

theorem get_origin_observe {h : History} {s : DiscoveryService} {sec : Section} {id d : Uuid}
    (ho : (h.observe s sec).origin.get id = some d) :
    (∃ p, (sec.apply s).sessions.get id = some p) ∧ (h.origin.get id = some d ∨
        ∃ p, sec = .store p ∧ p.sessionId = id ∧ p.discoveryId = some d) := by
  have hretain : ∀ m : HashMap Uuid Uuid,
      (m.retain fun id _ => ((sec.apply s).sessions.get id).isSome).get id = some d →
        m.get id = some d ∧ ∃ p, (sec.apply s).sessions.get id = some p := by
    intro m hm
    rwa [HashMap.get_retain, filter_eq_some_iff, isSome_iff_exists] at hm
  cases sec with
  | store p =>
    obtain ⟨hget, hstored⟩ :=
      hretain ((p.discoveryId.map (h.origin.insert p.sessionId)).getD h.origin) ho
    refine ⟨hstored, ?_⟩
    cases hd : p.discoveryId with
    | none =>
      rw [hd] at hget
      exact .inl hget
    | some d' =>
      rw [hd, map_some, getD_some, HashMap.get_insert] at hget
      split_ifs at hget with hid
      · cases hget
        exact .inr ⟨p, rfl, hid.symm, hd⟩
      · exact .inl hget
  | _ =>
    obtain ⟨hget, hstored⟩ := hretain _ ho
    exact ⟨hstored, .inl hget⟩

section Step
variable {s : System} {c : ℕ} {k : Call} {e : Env} {sec : Section} {k' : Option Call}

theorem KeepsMapping.mapped {d id : Uuid} (hok : KeepsMapping s sec)
    (h : s.svc.discoverySessions.get d = some id)
    (hlive : (∃ p, (sec.apply s.svc).sessions.get id = some p) ∨
      id ∈ s.history.unpublished ∧ IdsInv s ∧ sec.FromIds s.history) :
    (sec.apply s.svc).discoverySessions.get d = some id := by
  rcases mapped_apply h sec with hkept | hforgets | hover
  · exact hkept
  · exfalso
    rcases hlive with ⟨p, hp⟩ | ⟨hid, hids, hsec⟩
    · cases hforgets.get_eq_none.symm.trans hp
    · cases hforgets with
      | update | cancelQueued => exact hsec.2 hid
      | sweep hp | cleanupOld hp => exact (hids.stored id _ hp).1.2 hid
      | clear hq => exact (hids.queued _ id hq).2 hid
  · cases hover with
    | map =>
      have hnone : s.svc.discoverySessions.get d = none := hok
      cases hnone.symm.trans h
    | @create u now db _ hv hi hd =>
      have hid := hok hv hi d hd id h
      subst hid
      cases ht : u.phase.isTerminal with
      | false =>
        rw [Section.apply, get_discoverySessions_updateSession_of_not_terminal _ _ _ _ ht,
          if_pos ⟨hv, hd⟩]
      | true =>
        exfalso
        rcases hlive with ⟨p, hp⟩ | ⟨hid, -, hsec⟩
        · rw [Section.apply, get_updateSession_of_terminal _ _ _ _ ht hi, if_pos rfl] at hp
          cases hp
        · exact hsec.2 hid

theorem MappedInv.next (hids : IdsInv s) (h : MappedInv s) (hc : s.calls.get c = some k)
    (hf : Fires s e k sec k') (hok : KeepsMapping s sec) : MappedInv (s.after c sec k') where
  origin id d ho := by
    obtain ⟨hstored, hwhy⟩ := get_origin_observe ho
    rcases hwhy with hold | ⟨p, rfl, rfl, hd⟩
    · exact hok.mapped (h.origin id d hold) (.inl hstored)
    · cases hf
      exact hok.mapped (h.reserved c _ hc p rfl d hd) (.inl hstored)
  reserved := by
    intro c' k'' hk'' p hp d hd
    have hsec := hids.fromIds hc hf
    rw [System.get_calls_after] at hk''
    split_ifs at hk''
    · -- the call that goes on: it has just mapped its discovery, or it had its id before
      have hres := h.reserved c k hc
      cases hf with
      | map =>
        cases hk''
        cases hp
        cases hd
        exact HashMap.get_insert_self ..
      | @guard q | @probe q | @track q | @noTrack q =>
        cases hk''
        have hq := some.inj hp
        rw [← hq] at hd ⊢
        exact hres q rfl d hd
      | _ => cases hk'' <;> cases hp
    · exact hok.mapped (h.reserved c' k'' hk'' p hp d hd)
        (.inr ⟨(hids.reserved c' k'' hk'' p hp).1, hids, hsec⟩)

end Step

theorem one_live_session_of_keeps_mapping {s : System} (hs : ReachedWith KeepsMapping s) :
    OneLiveSession s := by
  have hinv : MappedInv s := by
    refine ReachedWith.invariant_ids .init (fun s c k _ h _ hk => ⟨h.origin, ?_⟩)
      (fun _ _ _ _ _ _ hids h hc hf hok => h.next hids hc hf hok) hs
    refine System.forall_calls_spawn h.reserved fun p hp => ?_
    rw [IdsInv.not_reserved_of_isInitial hk] at hp
    cases hp
  exact hinv.oneLiveSession

def restartedRun : List Label :=
  startRun 0 exampleDiscovery 10 ++ callRun 1 (.cancelCalled 10) [{}, {}, {}] ++
    startRun 2 exampleDiscovery 11

theorem one_live_session_restartedRun :
    sessionSystem.run .init restartedRun = some (endState restartedRun) ∧
      (endState restartedRun).history.origin.get 11 = some 100 ∧
      OneLiveSession (endState restartedRun) := by
  have hrun := run_endState restartedRun (by decide +kernel)
  refine ⟨hrun, by decide +kernel, one_live_session_of_keeps_mapping ?_⟩
  refine reachedWith_of_run (f := fun s sec => match sec with
    | .mapDiscovery d _ => (s.svc.discoverySessions.get d).isNone
    | .update .. => false
    | _ => true) (fun s sec hsec => ?_) hrun (by decide +kernel)
  cases sec with
  | mapDiscovery d id => exact isNone_iff_eq_none.mp hsec
  | update => cases hsec
  | _ => trivial

def racingStartsRun : List Label :=
  [.call 0 (.startCalled exampleDiscovery), .call 1 (.startCalled exampleDiscovery),
    .next 0 {}, .next 1 {}, .next 0 { freshId := 10 }, .next 1 { freshId := 11 }] ++
    List.replicate 5 (.next 0 {}) ++ List.replicate 5 (.next 1 {})

theorem not_one_live_session : ¬ ∀ s, sessionSystem.Reachable s → OneLiveSession s := by
  intro h
  have hs := h _ (reachable_endState racingStartsRun (by decide +kernel))
  have hlive : ∀ id ∈ ([10, 11] : List Uuid),
      ((endState racingStartsRun).svc.sessions.get id).any (!·.phase.isTerminal) = true := by
    decide +kernel
  obtain ⟨p, hp, hpt⟩ := (Option.any_eq_true _ _).mp (hlive 10 (by decide))
  obtain ⟨q, hq, hqt⟩ := (Option.any_eq_true _ _).mp (hlive 11 (by decide))
  rw [Bool.not_eq_true'] at hpt hqt
  have heq := hs 10 11 100 (by decide +kernel) (by decide +kernel) p q hp hq hpt hqt
  exact absurd heq (by decide)

end Scanopy
