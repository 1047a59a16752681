import Scanopy.Discovery.Calls

/-! What a call can do next, once and for all, and the induction over runs that uses it: an
invariant needs a proof for a call that begins and one for each way to go on (`Fires`). -/

namespace Scanopy

open Bool

inductive Fires (s : System) (e : Env) : Call → Section → Option Call → Prop
  | conflict {d : Discovery} (h : s.svc.hasSessionForDiscovery d.id = true) :
    Fires s e (.startCalled d) .read none
  | check {d : Discovery} (h : s.svc.hasSessionForDiscovery d.id = false) :
    Fires s e (.startCalled d) .read (some (.startChecked d))
  | notHydrated {d : Discovery} : Fires s e (.startChecked d) .read none
  | map {d : Discovery} (h : e.freshId ∉ s.history.known) :
    Fires s e (.startChecked d) (.mapDiscovery d.id e.freshId)
      (some (.startMapped (d.sessionPayload e.freshId)))
  | guard {p : DiscoveryUpdatePayload} :
    Fires s e (.startMapped p) .read
      (some (.startGuarded p (decide (p.networkId ∈ s.svc.runningSnapshots))))
  | probe {p : DiscoveryUpdatePayload} {b : Bool} :
    Fires s e (.startGuarded p b) .read (some (.startProbed
      (p.withPhase (startPhase b (s.svc.daemonIsRunningDiscovery p.daemonId)))))
  | track {p : DiscoveryUpdatePayload} (h : p.phase = .pending) :
    Fires s e (.startProbed p) (.track p.sessionId e.now) (some (.startTracked p))
  | noTrack {p : DiscoveryUpdatePayload} (h : p.phase ≠ .pending) :
    Fires s e (.startProbed p) .read (some (.startTracked p))
  | store {p : DiscoveryUpdatePayload} :
    Fires s e (.startTracked p) (.store p) (some (.startStored p))
  | enqueue {p : DiscoveryUpdatePayload} : Fires s e (.startStored p) (.enqueue p) none
  | receive {u : DiscoveryUpdatePayload} (h : s.svc.discoverySessions.Enumerates e.order) :
    Fires s e (.updateCalled u) .read (some (.updateReceived (enrich s.svc e.order u)))
  | update {u : DiscoveryUpdatePayload} :
    Fires s e (.updateReceived u) (.update u e.now e.db) none
  | cancelNotFound {id : Uuid} (h : s.svc.sessions.get id = none) :
    Fires s e (.cancelCalled id) .read none
  | cancelFound {id : Uuid} {p : DiscoveryUpdatePayload} (h : s.svc.sessions.get id = some p) :
    Fires s e (.cancelCalled id) .read (some (.cancelRead p))
  | cancelLookup {p : DiscoveryUpdatePayload} :
    Fires s e (.cancelRead p) .read (some (.cancelLooked p))
  | cancelQueued {p : DiscoveryUpdatePayload} (h : p.phase.isWaiting = true) :
    Fires s e (.cancelLooked p) (.cancelQueued p e.now) none
  | cancelRunning {p : DiscoveryUpdatePayload} (h : p.phase.isDispatched = true) :
    Fires s e (.cancelLooked p) (.setCancellation p.daemonId p.sessionId) none
  | cancelRefused {p : DiscoveryUpdatePayload} : Fires s e (.cancelLooked p) .read none
  | stallNone : Fires s e .stallCalled .read none
  | stallScan (h : s.svc.sessions.map.Enumerates e.order) :
    Fires s e .stallCalled .read (some (.stallFlagging e.now
      (s.svc.stalledSessions e.now e.order) (s.svc.stalledSessions e.now e.order)))
  | stallFlag {now : Timestamp} {ps todo : List DiscoveryUpdatePayload}
      {p : DiscoveryUpdatePayload} :
    Fires s e (.stallFlagging now ps (p :: todo)) (.setCancellation p.daemonId p.sessionId)
      (some (.stallFlagging now ps todo))
  | stallSweep {now : Timestamp} {ps : List DiscoveryUpdatePayload} :
    Fires s e (.stallFlagging now ps []) (.sweep ps now e.now e.db) none
  | acquire {n : Uuid} (h : s.snapshotGuardFree = true) :
    Fires s e (.acquireCalled n) (.acquire n) none
  | drop {n : Uuid} (h : s.snapshotGuardFree = true) :
    Fires s e (.releaseCalled n) (.dropSnapshot n) (some (.releaseDropped n))
  | promote {n : Uuid} (h : s.svc.sessions.map.Enumerates e.order) :
    Fires s e (.releaseDropped n) (.promoteAwaiting n e.now e.order) none
  | transition {id : Uuid} : Fires s e (.transitionCalled id) (.transition id e.now) none
  | workBusy {d : Uuid} {ready : Bool} :
    Fires s e (.workCalled d ready) .read (some (.workServed d))
  | workIdle {d : Uuid} {ready : Bool} (h : s.svc.hasActiveSessionForDaemon d = false) :
    Fires s e (.workCalled d ready) .read (some (.workChecked d))
  | workNone {d : Uuid} : Fires s e (.workChecked d) .read (some (.workServed d))
  | workOffer {d : Uuid} {work : DiscoveryUpdatePayload}
      (h : work ∈ s.svc.getSessionsForDaemon d) :
    Fires s e (.workChecked d) .read (some (.workOffered d work))
  | workTake {d : Uuid} {work : DiscoveryUpdatePayload} :
    Fires s e (.workOffered d work) (.take work.sessionId e.now) (some (.workServed d))
  | workPull {d : Uuid} : Fires s e (.workServed d) (.pull d) none
  | workReturn {d : Uuid} : Fires s e (.workServed d) .read none
  | old {h : ℤ} (ho : s.svc.sessions.map.Enumerates e.order) :
    Fires s e (.oldCalled h) (.cleanupOld h e.now e.order) none
  | clear {d : Uuid} : Fires s e (.clearCalled d) (.clear d) none

variable {k : Call} {P : Call → Prop} {e : Env} {ls : List Label} {sec : Section} {s s' : System}
  {f : System → Section → Bool} {ok : System → Section → Prop} {c : ℕ}

theorem Call.fires_of_next {k' : Option Call}
    (h : k.next s e = some (sec, k')) : Fires s e k sec k' := by
  cases k with
  | startCalled d =>
    simp only [Call.next, Option.some.injEq, Prod.mk.injEq] at h
    obtain ⟨rfl, rfl⟩ := h
    split_ifs with hd
    · exact .conflict hd
    · exact .check (eq_false_iff.mpr hd)
  | startChecked d =>
    simp only [Call.next] at h
    split_ifs at h with hh hk
    · cases h
      exact .map hk
    · cases h
      exact .notHydrated
  | startMapped p =>
    cases h
    exact .guard
  | startGuarded p b =>
    cases h
    exact .probe
  | startProbed p =>
    simp only [Call.next, Option.some.injEq, Prod.mk.injEq] at h
    obtain ⟨rfl, rfl⟩ := h
    split_ifs with hp
    · exact .track hp
    · exact .noTrack hp
  | startTracked p =>
    cases h
    exact .store
  | startStored p =>
    cases h
    exact .enqueue
  | updateCalled u =>
    simp only [Call.next] at h
    split_ifs at h with ho
    cases h
    exact .receive ho
  | updateReceived u =>
    cases h
    exact .update
  | cancelCalled id =>
    simp only [Call.next, Option.some.injEq, Prod.mk.injEq] at h
    obtain ⟨rfl, rfl⟩ := h
    cases hp : s.svc.sessions.get id with
    | none => exact .cancelNotFound hp
    | some p => exact .cancelFound hp
  | cancelRead p =>
    cases h
    exact .cancelLookup
  | cancelLooked p =>
    simp only [Call.next] at h
    split at h <;> rename_i hp <;> cases h
    · exact .cancelQueued (by rw [hp]; rfl)
    · exact .cancelQueued (by rw [hp]; rfl)
    · exact .cancelQueued (by rw [hp]; rfl)
    · exact .cancelRunning (by rw [hp]; rfl)
    · exact .cancelRunning (by rw [hp]; rfl)
    all_goals exact .cancelRefused
  | stallCalled =>
    simp only [Call.next] at h
    split_ifs at h with ho hs
    · cases h
      exact .stallNone
    · cases h
      exact .stallScan ho
  | stallFlagging now ps todo =>
    cases todo with
    | nil =>
      cases h
      exact .stallSweep
    | cons p todo =>
      cases h
      exact .stallFlag
  | acquireCalled n =>
    simp only [Call.next] at h
    split_ifs at h with hg
    cases h
    exact .acquire hg
  | releaseCalled n =>
    simp only [Call.next] at h
    split_ifs at h with hg
    cases h
    exact .drop hg
  | releaseDropped n =>
    simp only [Call.next] at h
    split_ifs at h with ho
    cases h
    exact .promote ho
  | transitionCalled id =>
    cases h
    exact .transition
  | workCalled d ready =>
    simp only [Call.next, Option.some.injEq, Prod.mk.injEq] at h
    obtain ⟨rfl, rfl⟩ := h
    split_ifs with hw
    · rw [and_eq_true, not_eq_true'] at hw
      exact .workIdle hw.2
    · exact .workBusy
  | workChecked d =>
    simp only [Call.next, Option.some.injEq, Prod.mk.injEq] at h
    obtain ⟨rfl, rfl⟩ := h
    split
    · rename_i work rest hw
      exact .workOffer (by rw [hw]; exact List.mem_cons_self)
    · exact .workNone
  | workOffered d work =>
    cases h
    exact .workTake
  | workServed d =>
    simp only [Call.next, Option.some.injEq, Prod.mk.injEq] at h
    obtain ⟨rfl, rfl⟩ := h
    split_ifs
    · exact .workPull
    · exact .workReturn
  | oldCalled m =>
    simp only [Call.next] at h
    split_ifs at h with ho
    cases h
    exact .old ho
  | clearCalled d =>
    cases h
    exact .clear

theorem System.step_call
    (h : s.step (.call c k) = some s') :
    s.calls.get c = none ∧ k.isInitial = true ∧ k.admissible s.history = true ∧
      s' = s.spawn c k := by
  simp only [step] at h
  split_ifs at h with hk
  simp only [and_eq_true, not_eq_true', HashMap.contains_eq_false] at hk
  exact ⟨hk.1.1, hk.1.2, hk.2, (Option.some.inj h).symm⟩

theorem System.step_next
    (h : s.step (.next c e) = some s') :
    ∃ k sec k', s.calls.get c = some k ∧ Fires s e k sec k' ∧
      s.sectionOf (.next c e) = some sec ∧ s' = s.after c sec k' := by
  obtain ⟨k, hk, hnext⟩ := Option.bind_eq_some_iff.mp h
  obtain ⟨⟨sec, k'⟩, hsec, rfl⟩ := Option.map_eq_some_iff.mp hnext
  refine ⟨k, sec, k', hk, Call.fires_of_next hsec, ?_, rfl⟩
  simp only [sectionOf, hk, hsec, Option.bind_some, Option.map_some]

theorem ReachedWith.invariant {I : System → Prop}
    (hinit : I System.init)
    (hcall : ∀ s c k, I s → s.calls.get c = none → k.isInitial = true →
      k.admissible s.history = true → I (s.spawn c k))
    (hnext : ∀ s c k e sec k', I s → s.calls.get c = some k → Fires s e k sec k' → ok s sec →
      I (s.after c sec k')) (hs : ReachedWith ok s) : I s := by
  refine Lts.ReachableVia.invariant hinit ?_ hs
  rintro s (⟨c, k⟩ | ⟨c, e⟩) s' - hI hok h
  · obtain ⟨hc, hk, ha, rfl⟩ := System.step_call h
    exact hcall s c k hI hc hk ha
  · obtain ⟨k, sec, k', hc, hf, hsec, rfl⟩ := System.step_next h
    exact hnext s c k e sec k' hI hc hf (hok sec hsec)

/-- Every section of the run of `ls` from `s` satisfies `ok` in the state before it. -/
def Satisfies (ok : System → Section → Prop) : System → List Label → Prop :=
  sessionSystem.Guarded fun s l => ∀ sec, s.sectionOf l = some sec → ok s sec

theorem always_iff_satisfies {P : System → Prop}
    (hinit : P System.init)
    (hcall : ∀ s c k, P s → k.isInitial = true → P (s.spawn c k))
    (hnext : ∀ s c k e sec k', sessionSystem.Reachable s → P s → s.calls.get c = some k →
      Fires s e k sec k' → (P (s.after c sec k') ↔ ok s sec))
        (h : sessionSystem.run .init ls = some s) :
    sessionSystem.Always P .init ls ↔ Satisfies ok .init ls := by
  refine Lts.always_iff_guarded hinit ?_ h
  rintro s (⟨c, k⟩ | ⟨c, e⟩) s' hs hP hstep
  · obtain ⟨-, hk, -, rfl⟩ := System.step_call hstep
    exact iff_of_true (hcall s c k hP hk) fun sec hsec => nomatch hsec
  · obtain ⟨k, sec, k', hc, hf, hsec, rfl⟩ := System.step_next hstep
    rw [hnext s c k e sec k' hs hP hc hf]
    constructor
    · intro hok sec' hsec'
      cases hsec.symm.trans hsec'
      exact hok
    · exact fun hok => hok sec hsec

theorem System.get_calls_spawn (s : System) (c c' : ℕ) (k : Call) :
    (s.spawn c k).calls.get c' = if c' = c then some k else s.calls.get c' :=
  HashMap.get_insert ..

theorem System.get_calls_after (s : System) (c c' : ℕ) (sec : Section) (k : Option Call) :
    (s.after c sec k).calls.get c' = if c' = c then k else s.calls.get c' := by
  cases k with
  | none => exact HashMap.get_remove ..
  | some k => exact HashMap.get_insert ..

theorem System.forall_calls_after {k : Option Call} {Q : Call → Prop}
    (hP : ∀ c' k', s.calls.get c' = some k' → P k')
    (hkeep : ∀ k', P k' → Q k') (hnew : k.elim True Q) :
    ∀ c' k', (s.after c sec k).calls.get c' = some k' → Q k' := by
  intro c' k' h
  rw [get_calls_after] at h
  split_ifs at h
  · rwa [h] at hnew
  · exact hkeep k' (hP c' k' h)

theorem System.forall_calls_spawn
    (hP : ∀ c' k', s.calls.get c' = some k' → P k') (hnew : P k) :
    ∀ c' k', (s.spawn c k).calls.get c' = some k' → P k' := by
  intro c' k' h
  rw [get_calls_spawn] at h
  split_ifs at h
  · cases h
    exact hnew
  · exact hP c' k' h

theorem System.snapshotGuardFree_iff :
    s.snapshotGuardFree = true ↔ ∀ c k, s.calls.get c = some k → k.holdsSnapshotGuard = false := by
  rw [snapshotGuardFree, not_eq_true', HashMap.any_eq_false]

/-- Evaluate a condition on the sections of the run of `ls` from `s`. -/
def checkRun (f : System → Section → Bool) (s : System) : List Label → Bool
  | [] => true
  | l :: ls => (s.sectionOf l).all (f s) && (s.step l).all fun s' => checkRun f s' ls

theorem satisfies_of_checkRun
    (hf : ∀ s sec, f s sec = true → ok s sec)
    (h : checkRun f s ls = true) : Satisfies ok s ls := by
  induction ls generalizing s with
  | nil => trivial
  | cons l ls ih =>
    rw [checkRun, and_eq_true, Option.all_eq_true, Option.all_eq_true] at h
    exact ⟨fun sec hsec => hf s sec (h.1 sec hsec), fun t ht => ih (h.2 t ht)⟩

theorem reachedWith_of_run
    (hf : ∀ s sec, f s sec = true → ok s sec)
    (h : sessionSystem.run .init ls = some s) (hcheck : checkRun f .init ls = true) :
    ReachedWith ok s := Lts.reachableVia_of_run .init (satisfies_of_checkRun hf hcheck) h

def endState (ls : List Label) : System := (sessionSystem.run .init ls).getD .init

theorem run_endState (ls : List Label) (h : (sessionSystem.run .init ls).isSome = true) :
    sessionSystem.run .init ls = some (endState ls) := by
  obtain ⟨s, hs⟩ := Option.isSome_iff_exists.mp h
  rw [endState, hs]
  rfl

theorem reachable_endState (ls : List Label) (h : (sessionSystem.run .init ls).isSome = true) :
    sessionSystem.Reachable (endState ls) := Lts.reachable_of_run (run_endState ls h)

theorem System.quiescent_of_keys (h : s.calls.keys = ∅) : s.Quiescent := by
  intro c
  by_contra hne
  obtain ⟨k, hk⟩ := Option.ne_none_iff_exists'.mp hne
  have hmem := HashMap.mem_keys.mpr ⟨k, hk⟩
  rw [h] at hmem
  cases hmem

def callRun (c : ℕ) (k : Call) (es : List Env) : List Label := .call c k :: es.map (.next c)

def startRun (c : ℕ) (d : Discovery) (sessionId : Uuid) : List Label :=
  callRun c (.startCalled d) [{}, { freshId := sessionId }, {}, {}, {}, {}, {}]

/-- `order` is the iteration order of `discovery_sessions`. -/
def updateRun (c : ℕ) (u : DiscoveryUpdatePayload) (order : List Uuid) : List Label :=
  callRun c (.updateCalled u) [{ order := order }, {}]

def workRun (c : ℕ) (daemonId : Uuid) : List Label :=
  callRun c (.workCalled daemonId true) [{}, {}, {}]

/-! The daemon, network and discovery of the concrete runs. -/

def exampleDiscovery : Discovery where
  id := 100
  daemonId := 1
  networkId := 2
  discoveryType := .unified 3 none {}

def exampleUpdate (sessionId : Uuid) (phase : DiscoveryPhase) : DiscoveryUpdatePayload where
  sessionId := sessionId
  daemonId := 1
  networkId := 2
  phase := phase
  discoveryType := .unified 3 none {}

end Scanopy
