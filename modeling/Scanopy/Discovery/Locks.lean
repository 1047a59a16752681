import Scanopy.Lib.RwLock

/-! The locks of the discovery service: each operation as the sequence in which it takes and drops
them, for every path it can go. What takes none of these locks is left out. -/

namespace Scanopy
open List RwLock State

inductive Lock
  | sessions
  | daemonSessions
  | discoverySessions
  | runningSnapshots
  | daemonPullCancellations
  | sessionLastUpdated
  deriving DecidableEq, Repr

abbrev LockProgram := List (Action Lock)

namespace Lock

/-- The guard lives through `body`. -/
def hold (l : Lock) (m : Mode) (body : LockProgram) : LockProgram :=
  .acquire l m :: (body ++ [.release l])

/-- A guard that is dropped at the end of its own expression. -/
def touch (l : Lock) (m : Mode) : LockProgram := l.hold m []

end Lock

/-- How far `start_session` goes: the discovery has a session already, its SNMP credentials
cannot be built, or the session is stored, `Pending` or not. -/
inductive StartPath
  | conflict
  | credentialError
  | stored (pending : Bool)
  deriving DecidableEq, Repr

inductive DiscoveryIdSource
  | payload
  | lookup
  | unknown
  deriving DecidableEq, Repr

inductive UpdatePath
  | ignored
  | applied (autoCreated terminal : Bool)
  deriving DecidableEq, Repr

inductive CancelPath
  | notFound
  | waiting (promotes : Bool)
  | starting
  | active
  | terminal
  deriving DecidableEq, Repr

/-- A call with the path it takes; the numbers count the rounds of its loop that await a lock. -/
inductive LockCall
  | getSessionsForDaemon
  | hasActiveSessionForDaemon
  | clearSessionsForDaemon
  | startSession (path : StartPath)
  | updateSession (source : DiscoveryIdSource) (path : UpdatePath)
  | cancelSession (path : CancelPath)
  | cleanupStalledSessions (stalled : ℕ)
  | tryAcquireNetworkForSnapshot
  | releaseNetworkForSnapshot (promoted : ℕ)
  deriving DecidableEq, Repr

namespace LockCall
open Lock

/-- `get_sessions_for_daemon` and `has_active_session_for_daemon` take the same two guards. -/
def readQueueThenSessions : LockProgram := daemonSessions.hold .read (sessions.touch .read)

def clearProgram : LockProgram :=
  sessions.hold .write (daemonSessions.hold .write (sessionLastUpdated.hold .write
    (daemonPullCancellations.hold .write (discoverySessions.touch .write))))

def startProgram : StartPath → LockProgram
  | .conflict => discoverySessions.touch .read
  | .credentialError => discoverySessions.touch .read
  | .stored pending =>
    discoverySessions.touch .read ++ discoverySessions.touch .write ++
      runningSnapshots.hold .read
        (daemonSessions.touch .read ++
          (if pending then sessionLastUpdated.touch .write else []) ++
          sessions.touch .write ++ daemonSessions.touch .write)

def enrichProgram : DiscoveryIdSource → LockProgram
  | .payload => []
  | .lookup => discoverySessions.touch .read
  | .unknown => discoverySessions.touch .read

def autoCreateProgram (source : DiscoveryIdSource) : LockProgram :=
  daemonSessions.touch .write ++
    (if source = .unknown then [] else discoverySessions.touch .write)

def updateProgram (source : DiscoveryIdSource) : UpdatePath → LockProgram
  | .ignored => enrichProgram source ++ sessions.hold .write (sessionLastUpdated.touch .write)
  | .applied autoCreated terminal =>
    enrichProgram source ++
      [.acquire sessions .write, .acquire sessionLastUpdated .write] ++
      (if autoCreated then autoCreateProgram source else []) ++
      if terminal then
        daemonPullCancellations.touch .write ++ discoverySessions.touch .read ++
          daemonSessions.touch .write ++ discoverySessions.touch .write ++
          -- `drop(sessions)` comes before `drop(last_updated)`
          [.release sessions, .release sessionLastUpdated]
      else [.release sessionLastUpdated, .release sessions]

def cancelProgram : CancelPath → LockProgram
  | .notFound => sessions.touch .read
  | .waiting promotes =>
    sessions.touch .read ++ discoverySessions.touch .read ++
      [.acquire sessions .write, .acquire daemonSessions .write] ++
      (if promotes then sessionLastUpdated.touch .write else []) ++
      discoverySessions.touch .write ++ [.release sessions, .release daemonSessions]
  | .starting => sessions.touch .read ++ discoverySessions.touch .read
  | .active =>
    sessions.touch .read ++ discoverySessions.touch .read ++ daemonPullCancellations.touch .write
  | .terminal => sessions.touch .read ++ discoverySessions.touch .read

def requestCancellation : LockProgram :=
  discoverySessions.touch .read ++ daemonPullCancellations.touch .write

def removeStalled : LockProgram :=
  sessions.hold .write (sessionLastUpdated.hold .write (daemonSessions.hold .write
    (daemonPullCancellations.hold .write (discoverySessions.touch .write))))

def cleanupProgram (stalled : ℕ) : LockProgram :=
  sessions.hold .read (sessionLastUpdated.touch .read) ++
    if stalled = 0 then [] else loop stalled requestCancellation ++ removeStalled

def tryAcquireProgram : LockProgram := runningSnapshots.hold .write (sessions.touch .read)

def releaseProgram (promoted : ℕ) : LockProgram :=
  runningSnapshots.touch .write ++
    [.acquire sessions .write, .acquire daemonSessions .read] ++
    loop promoted (sessionLastUpdated.touch .write) ++
    [.release daemonSessions, .release sessions]

def program : LockCall → LockProgram
  | getSessionsForDaemon => readQueueThenSessions
  | hasActiveSessionForDaemon => readQueueThenSessions
  | clearSessionsForDaemon => clearProgram
  | startSession path => startProgram path
  | updateSession source path => updateProgram source path
  | cancelSession path => cancelProgram path
  | cleanupStalledSessions stalled => cleanupProgram stalled
  | tryAcquireNetworkForSnapshot => tryAcquireProgram
  | releaseNetworkForSnapshot promoted => releaseProgram promoted

def requests (c : LockCall) : List (Request Lock) := RwLock.requests [] c.program

/-- The call takes `sessions` with its guard on `daemon_sessions` still alive. -/
def readsQueueFirst : LockCall → Bool
  | getSessionsForDaemon => true
  | hasActiveSessionForDaemon => true
  | _ => false

def nestsQueue : LockCall → Bool
  | clearSessionsForDaemon => true
  | updateSession _ (.applied autoCreated terminal) => autoCreated || terminal
  | cancelSession (.waiting _) => true
  | cleanupStalledSessions stalled => stalled ≠ 0
  | releaseNetworkForSnapshot _ => true
  | _ => false

def writesQueue : LockCall → Bool
  | startSession (.stored _) => true
  | releaseNetworkForSnapshot _ => false
  | c => c.nestsQueue

theorem release_of_nestsQueue {c : LockCall} (hn : c.nestsQueue) (hw : ¬c.writesQueue) :
    ∃ promoted, c = releaseNetworkForSnapshot promoted := by
  cases c with
  | releaseNetworkForSnapshot promoted => exact ⟨promoted, rfl⟩
  | startSession path => cases hn
  | _ => exact absurd hn hw

theorem start_of_writesQueue {c : LockCall} (hw : c.writesQueue) (hn : ¬c.nestsQueue) :
    ∃ pending, c = startSession (.stored pending) := by
  cases c with
  | startSession path =>
    cases path with
    | stored pending => exact ⟨pending, rfl⟩
    | _ => cases hw
  | releaseNetworkForSnapshot promoted => cases hw
  | _ => exact absurd hw hn

/-- The order `running_snapshots`, `daemon_sessions`, `sessions`, and then the leaves. -/
def rank : Lock → ℕ
  | runningSnapshots => 0
  | daemonSessions => 1
  | sessions => 2
  | sessionLastUpdated => 3
  | daemonPullCancellations => 4
  | discoverySessions => 5

/-- Where `c` may ask for a lock: either it has `sessions` to itself, or it follows the order and
holds nothing but `running_snapshots`, `sessions` or, on its way to `sessions`,
`daemon_sessions`. -/
structure Orderly (c : LockCall) (r : Request Lock) : Prop where
  fresh : ∀ x ∈ r.held, x.1 ≠ r.lock
  snapshots_first : r.lock = runningSnapshots → r.held = []
  climbs : (sessions, Mode.write) ∈ r.held ∨ ∀ x ∈ r.held, rank x.1 < rank r.lock ∧
    (x.1 = runningSnapshots ∨ x.1 = sessions ∨ (x.1 = daemonSessions ∧ c.readsQueueFirst))
  nests : r.lock = daemonSessions → (sessions, Mode.write) ∈ r.held → c.nestsQueue
  writes : r.lock = daemonSessions → r.mode = .write → c.writesQueue

instance (c : LockCall) (r : Request Lock) : Decidable (Orderly c r) :=
  decidable_of_iff (_ ∧ _ ∧ _ ∧ _ ∧ _)
    ⟨fun ⟨h₁, h₂, h₃, h₄, h₅⟩ => ⟨h₁, h₂, h₃, h₄, h₅⟩,
      fun h => ⟨h.fresh, h.snapshots_first, h.climbs, h.nests, h.writes⟩⟩

theorem cleanup_program_succ (k : ℕ) : (cleanupStalledSessions (k + 1)).program =
    sessions.hold .read (sessionLastUpdated.touch .read) ++ loop (k + 1) requestCancellation ++
      removeStalled := by
  simp only [program, cleanupProgram, Nat.succ_ne_zero, if_false, append_assoc]

theorem Orderly.of_classes {c c' : LockCall} {r : Request Lock} (h : Orderly c r)
    (hreads : c'.readsQueueFirst = c.readsQueueFirst) (hnests : c'.nestsQueue = c.nestsQueue)
    (hwrites : c'.writesQueue = c.writesQueue) : Orderly c' r where
  fresh := h.fresh
  snapshots_first := h.snapshots_first
  climbs := hreads ▸ h.climbs
  nests := hnests ▸ h.nests
  writes := hwrites ▸ h.writes

theorem disciplined (c : LockCall) :
    heldAfter [] c.program = [] ∧ ∀ r ∈ c.requests, Orderly c r := by
  cases c with
  | getSessionsForDaemon => decide
  | hasActiveSessionForDaemon => decide
  | clearSessionsForDaemon => decide
  | startSession path => obtain _ | _ | _ | _ := path <;> decide
  | updateSession source path =>
    cases source <;> obtain _ | ⟨_ | _, _ | _⟩ := path <;> decide
  | cancelSession path => obtain _ | ⟨_ | _⟩ | _ | _ | _ := path <;> decide
  | cleanupStalledSessions stalled =>
    cases stalled with
    | zero => decide
    | succ k =>
      have hone : ∀ r ∈ (cleanupStalledSessions 1).requests,
        Orderly (cleanupStalledSessions 1) r := by decide
      rw [requests, cleanup_program_succ, heldAfter_around_loop (by decide)]
      refine ⟨by decide, fun r hr => ?_⟩
      have hround := requests_around_loop_subset (by decide) _ _ hr
      exact (hone r hround).of_classes rfl rfl rfl
  | tryAcquireNetworkForSnapshot => decide
  | releaseNetworkForSnapshot promoted =>
    have hone : ∀ r ∈ (releaseNetworkForSnapshot 1).requests,
      Orderly (releaseNetworkForSnapshot 1) r := by decide
    refine ⟨(heldAfter_around_loop (by decide) _ _).trans (by decide), fun r hr => ?_⟩
    have hround := requests_around_loop_subset (by decide) _ _ hr
    exact (hone r hround).of_classes rfl rfl rfl

/-- A call that writes `daemon_sessions` inside `sessions` gets there without having asked for
`daemon_sessions` before. -/
theorem exists_nested_write (c : LockCall) (hn : c.nestsQueue) (hw : c.writesQueue) :
    ∃ p q, c.program = p ++ .acquire daemonSessions .write :: q ∧
      (∀ r ∈ RwLock.requests [] p, r.lock ≠ daemonSessions) ∧
      (sessions, Mode.write) ∈ heldAfter [] p := by
  cases c with
  | clearSessionsForDaemon =>
    exact ⟨[.acquire sessions .write], _, rfl, by decide, by decide⟩
  | updateSession source path =>
    let p : LockProgram := [.acquire sessions .write, .acquire sessionLastUpdated .write]
    obtain _ | ⟨_ | _, _ | _⟩ := path
    · cases hn
    · cases hn
    · -- the queue comes up after the cancellation is pulled and the parent looked up
      let p' := p ++ daemonPullCancellations.touch .write ++ discoverySessions.touch .read
      cases source
      · exact ⟨enrichProgram .payload ++ p', _, rfl, by decide, by decide⟩
      · exact ⟨enrichProgram .lookup ++ p', _, rfl, by decide, by decide⟩
      · exact ⟨enrichProgram .unknown ++ p', _, rfl, by decide, by decide⟩
    all_goals
      cases source
      · exact ⟨enrichProgram .payload ++ p, _, rfl, by decide, by decide⟩
      · exact ⟨enrichProgram .lookup ++ p, _, rfl, by decide, by decide⟩
      · exact ⟨enrichProgram .unknown ++ p, _, rfl, by decide, by decide⟩
  | cancelSession path =>
    obtain _ | promotes | _ | _ | _ := path
    case waiting =>
      exact ⟨sessions.touch .read ++ discoverySessions.touch .read ++ [.acquire sessions .write],
        _, rfl, by decide, by decide⟩
    all_goals cases hn
  | cleanupStalledSessions stalled =>
    cases stalled with
    | zero => cases hn
    | succ k =>
      let scan := sessions.hold .read (sessionLastUpdated.touch .read)
      let p : LockProgram := [.acquire sessions .write, .acquire sessionLastUpdated .write]
      refine ⟨scan ++ loop (k + 1) requestCancellation ++ p, _,
        (cleanup_program_succ k).trans (append_assoc _ p _).symm, ?_, ?_⟩
      · intro r hr
        have hone : ∀ r ∈ RwLock.requests [] (scan ++ requestCancellation ++ p),
          r.lock ≠ daemonSessions := by decide
        exact hone r (requests_around_loop_subset (by decide) _ _ hr)
      · rw [heldAfter_around_loop (by decide)]
        decide
  | startSession path => cases hn
  | getSessionsForDaemon => cases hn
  | hasActiveSessionForDaemon => cases hn
  | tryAcquireNetworkForSnapshot => cases hn
  | releaseNetworkForSnapshot promoted => cases hw

end LockCall

section Deadlock
open Lock LockCall
variable {n : ℕ} {P : Policy} {calls : Fin n → LockCall}
variable {pending : Bool} {i j k : Fin n} {c : LockCall} {r : Request Lock} {promoted : ℕ}

def lockPrograms (calls : Fin n → LockCall) : Fin n → LockProgram := fun i => (calls i).program

/-- Among the calls there is one that waits for `sessions` with `daemon_sessions` in hand, one
that goes the other way, and one for which readers of `daemon_sessions` have to wait. -/
structure DeadlockProne (calls : Fin n → LockCall) : Prop where
  reads_queue_first : ∃ i, (calls i).readsQueueFirst
  nests_queue : ∃ i, (calls i).nestsQueue
  writes_queue : ∃ i, (calls i).writesQueue

/-- A call with `sessions` to itself stands above all others. -/
def lockHeight (r : Request Lock) : ℕ :=
  if (sessions, Mode.write) ∈ r.held then 6 else rank r.lock

theorem orderly_of_asks (h : Asks (lockPrograms calls) r) :
    ∃ i, Orderly (calls i) r := h.imp fun i hi => (disciplined (calls i)).2 r hi

theorem lockHeight_climbs (hprone : ¬DeadlockProne calls) {t : Request Lock} {m : Mode}
    (hr : Asks (lockPrograms calls) r) (ht : Asks (lockPrograms calls) t)
    (hm : (r.lock, m) ∈ t.held) (hcoexist : Coexist r.held t.held)
    (hwrite : ∃ w, Asks (lockPrograms calls) w ∧ w.lock = r.lock ∧ w.mode = .write) :
    lockHeight r < lockHeight t := by
  obtain ⟨i, hi⟩ := orderly_of_asks hr
  obtain ⟨j, hj⟩ := orderly_of_asks ht
  have hrank : ∀ l, rank l < 6 := by
    intro l
    cases l <;> decide
  by_cases hexcl : (sessions, Mode.write) ∈ t.held
  · have hshared : (sessions, Mode.write) ∉ r.held :=
      fun h => absurd (hcoexist _ _ _ h hexcl) (by decide)
    simp only [lockHeight, hexcl, hshared, if_true, if_false]
    exact hrank _
  · obtain ⟨hlt, hkind⟩ := hj.climbs.resolve_left hexcl _ hm
    by_cases hnested : (sessions, Mode.write) ∈ r.held
    · -- `r` has `sessions`: only a reader of the queue can be in its way
      exfalso
      rcases hkind with hl | hl | ⟨hl, hreads⟩
      · rw [hi.snapshots_first hl] at hnested
        exact nomatch hnested
      · exact hi.fresh _ hnested hl.symm
      · obtain ⟨w, hw, hlock, hmode⟩ := hwrite
        obtain ⟨k, hk⟩ := orderly_of_asks hw
        exact hprone ⟨⟨j, hreads⟩, ⟨i, hi.nests hl hnested⟩, ⟨k, hk.writes (hlock.trans hl) hmode⟩⟩
    · simp only [lockHeight, hexcl, hnested, if_false]
      exact hlt

theorem deadlockFree_of_not_prone (hprone : ¬DeadlockProne calls) :
    DeadlockFree P (lockPrograms calls) := by
  refine deadlockFree_of_height (fun i => (disciplined (calls i)).1) ?_ lockHeight ?_
  · intro r hr m hm
    obtain ⟨i, hi⟩ := orderly_of_asks hr
    exact hi.fresh _ hm rfl
  · exact fun r t m hr ht hm hcoexist hwrite => lockHeight_climbs hprone hr ht hm hcoexist hwrite

/-- What a reader of the queue still has to do when it holds `daemon_sessions`. -/
def readerRest : LockProgram :=
  [.acquire sessions .read, .release sessions, .release daemonSessions]

theorem program_of_readsQueueFirst (h : c.readsQueueFirst) :
    c.program = [.acquire daemonSessions .read] ++ readerRest := by
  cases c <;> first | rfl | cases h

theorem fresh_of_program {p q : LockProgram} (hp : c.program = p ++ q) :
    ∀ r ∈ RwLock.requests [] p, ∀ m, (r.lock, m) ∉ r.held := by
  intro r hr m hm
  have hmem : r ∈ c.requests := by
    rw [LockCall.requests, hp, requests_append]
    exact mem_append_left _ hr
  exact ((disciplined c).2 r hmem).fresh _ hm rfl

theorem reachable_reader (hreads : (calls i).readsQueueFirst) :
    ∃ s, (system P (lockPrograms calls)).Reachable s ∧ (∀ l, s.queue l = []) ∧
      s.thread i = ⟨[(daemonSessions, .read)], readerRest⟩ ∧
      ∀ k, k ≠ i → s.thread k = ⟨[], (calls k).program⟩ := by
  have hp := program_of_readsQueueFirst hreads
  have ht : (system P (lockPrograms calls)).init.thread i =
      ⟨[], [.acquire daemonSessions .read] ++ readerRest⟩ := congrArg (Thread.mk []) hp
  have hothers : ∀ k, k ≠ i → ((system P (lockPrograms calls)).init.thread k).held ⊆ [] :=
    fun _ _ => List.Subset.refl _
  refine ⟨_, reachable_advance .init (fun _ => rfl) ht (fresh_of_program hp) hothers (by decide),
    fun _ => rfl, advance_self _, ?_⟩
  exact fun k hk => advance_of_ne hk _

theorem held_subset_of_reader {s : State n Lock}
    (hi : s.thread i = ⟨[(daemonSessions, .read)], readerRest⟩)
    (hne : ∀ k, k ≠ i → s.thread k = ⟨[], (calls k).program⟩) (k : Fin n) :
    (s.thread k).held ⊆ [(daemonSessions, .read)] := by
  by_cases hki : k = i
  · subst hki
    rw [hi]
    exact List.Subset.refl _
  · rw [hne k hki]
    exact nil_subset _

/-- The reader has the queue and the writer has `sessions`, and each goes on to ask for the
other's lock. -/
theorem not_deadlockFree_of_nested_write (hreads : (calls i).readsQueueFirst)
    (hnests : (calls j).nestsQueue) (hwrites : (calls j).writesQueue) :
    ¬DeadlockFree P (lockPrograms calls) := by
  have hij : i ≠ j := by
    rintro rfl
    cases hc : calls i <;> rw [hc] at hreads hnests <;> cases hreads <;> cases hnests
  obtain ⟨p, q, hp, hqueue, hsessions⟩ := exists_nested_write _ hnests hwrites
  obtain ⟨s₁, hs₁, hq₁, hi₁, hne₁⟩ := reachable_reader (P := P) hreads
  have hs₂ := reachable_advance (i := j) hs₁ hq₁
    ((hne₁ j hij.symm).trans (congrArg (Thread.mk []) hp)) (fresh_of_program hp)
    (fun k _ => held_subset_of_reader hi₁ hne₁ k)
    fun r hr x hx hl => absurd (hl ▸ congrArg Prod.fst (mem_singleton.mp hx)) (hqueue r hr)
  set s₂ := s₁.advance j ⟨heldAfter [] p, .acquire daemonSessions .write :: q⟩
  have hi₂ : s₂.thread i = ⟨[(daemonSessions, .read)], readerRest⟩ :=
    (advance_of_ne hij _).trans hi₁
  have hj₂ : s₂.thread j = ⟨heldAfter [] p, .acquire daemonSessions .write :: q⟩ :=
    advance_self _
  have hq₂ : ∀ l, s₂.queue l = [] := hq₁
  have hs₃ := reachable_request (i := i) hs₂ (congrArg Thread.program hi₂)
    (by simp [State.Waits, hq₂])
  have hs₄ := reachable_request (i := j) hs₃ (congrArg Thread.program hj₂)
    (by simp [State.Waits, State.request, hq₂])
  refine not_deadlockFree_of_knot (K := {i, j}) hs₄ ?_ ⟨i, .inl rfl⟩
  rintro k (rfl | rfl)
  · refine ⟨sessions, .read, _, congrArg Thread.program hi₂, ?_, .inl ⟨j, .inr rfl, .write, ?_,
      by decide⟩⟩
    · simp [State.Waits, State.request]
    · exact (congrArg Thread.held hj₂).symm ▸ hsessions
  · refine ⟨daemonSessions, .write, _, congrArg Thread.program hj₂, ?_,
      .inl ⟨i, .inl rfl, .read, ?_, by decide⟩⟩
    · simp [State.Waits, State.request]
    · exact (congrArg Thread.held hi₂).symm ▸ mem_cons_self

def startBeforePush (pending : Bool) : LockProgram :=
  discoverySessions.touch .read ++ discoverySessions.touch .write ++
    [.acquire runningSnapshots .read] ++ daemonSessions.touch .read ++
    (if pending then sessionLastUpdated.touch .write else []) ++ sessions.touch .write

def releaseRest (promoted : ℕ) : LockProgram :=
  .acquire daemonSessions .read :: (loop promoted (sessionLastUpdated.touch .write) ++
    [.release daemonSessions, .release sessions])

def startRest : LockProgram :=
  [.acquire daemonSessions .write, .release daemonSessions, .release runningSnapshots]

/-- With the queue read by `i`, `j` gets `sessions` to release its network's snapshot while `k`
is about to push its session. -/
theorem reachable_release_and_start
    (hreads : (calls i).readsQueueFirst) (hj : calls j = releaseNetworkForSnapshot promoted)
    (hk : calls k = startSession (.stored pending)) (hij : i ≠ j) (hik : i ≠ k) (hjk : j ≠ k) :
    ∃ s, (system P (lockPrograms calls)).Reachable s ∧ (∀ l, s.queue l = []) ∧
      s.thread i = ⟨[(daemonSessions, .read)], readerRest⟩ ∧
      s.thread j = ⟨[(sessions, .write)], releaseRest promoted⟩ ∧
      s.thread k = ⟨[(runningSnapshots, .read)], startRest⟩ := by
  have hpj : (calls j).program = runningSnapshots.touch .write ++
      ([.acquire sessions .write] ++ releaseRest promoted) := by
    rw [hj]
    rfl
  have hpk : (calls k).program = startBeforePush pending ++ startRest := by
    rw [hk]
    cases pending <;> rfl
  obtain ⟨s₁, hs₁, hq, hi₁, hne₁⟩ := reachable_reader (P := P) hreads
  have hheld₁ := held_subset_of_reader hi₁ hne₁
  -- `running_snapshots` is taken and dropped before `start_session` keeps it
  have hs₂ := reachable_advance (i := j) hs₁ hq
    ((hne₁ j hij.symm).trans (congrArg (Thread.mk []) hpj)) (fresh_of_program hpj)
    (fun t _ => hheld₁ t) (by decide)
  set s₂ := s₁.advance j ⟨heldAfter [] (runningSnapshots.touch .write),
    [.acquire sessions .write] ++ releaseRest promoted⟩
  have hheld₂ : ∀ t, (s₂.thread t).held ⊆ [(daemonSessions, .read)] := by
    intro t
    by_cases htj : t = j
    · subst htj
      rw [advance_self]
      exact nil_subset _
    · rw [advance_of_ne htj]
      exact hheld₁ t
  have hk₂ : s₂.thread k = ⟨[], startBeforePush pending ++ startRest⟩ :=
    ((advance_of_ne hjk.symm _).trans (hne₁ k hik.symm)).trans (congrArg (Thread.mk []) hpk)
  have hs₃ := reachable_advance (i := k) hs₂ hq hk₂ (fresh_of_program hpk)
    (fun t _ => hheld₂ t) (by cases pending <;> decide)
  have hstart : heldAfter [] (startBeforePush pending) = [(runningSnapshots, .read)] := by
    cases pending <;> rfl
  rw [hstart] at hs₃
  set s₃ := s₂.advance k ⟨[(runningSnapshots, .read)], startRest⟩
  have hheld₃ : ∀ t, (s₃.thread t).held ⊆ [(daemonSessions, .read), (runningSnapshots, .read)] := by
    intro t
    by_cases htk : t = k
    · subst htk
      rw [advance_self]
      exact subset_cons_self _ _
    · rw [advance_of_ne htk]
      exact List.Subset.trans (hheld₂ t) (subset_append_left _ _)
  have hj₃ : s₃.thread j = ⟨[], [.acquire sessions .write] ++ releaseRest promoted⟩ :=
    (advance_of_ne hjk _).trans (advance_self _)
  have hs₄ := reachable_advance (i := j) hs₃ hq hj₃ (fun r hr m hm => by
    cases mem_singleton.mp hr
    exact nomatch hm) (fun t _ => hheld₃ t) (by decide)
  refine ⟨_, hs₄, hq, ?_, advance_self _, ?_⟩
  · rw [advance_of_ne hij, advance_of_ne hik, advance_of_ne hij, hi₁]
  · rw [advance_of_ne hjk.symm, advance_self]

/-- The reader has the queue, `start_session` asks to push to it, and
`release_network_for_snapshot`, with `sessions` in hand, queues up behind that push. -/
theorem not_deadlockFree_of_queued_write
    (hreads : (calls i).readsQueueFirst) (hj : calls j = releaseNetworkForSnapshot promoted)
    (hk : calls k = startSession (.stored pending)) : ¬DeadlockFree P (lockPrograms calls) := by
  have hij : i ≠ j := by
    rintro rfl
    rw [hj] at hreads
    cases hreads
  have hik : i ≠ k := by
    rintro rfl
    rw [hk] at hreads
    cases hreads
  have hjk : j ≠ k := by
    rintro rfl
    cases hj.symm.trans hk
  obtain ⟨s, hs, hq, hti, htj, htk⟩ := reachable_release_and_start (P := P) hreads hj hk hij hik hjk
  have hs₁ := reachable_request (i := k) hs (congrArg Thread.program htk)
    (by simp [State.Waits, hq])
  have hs₂ := reachable_request (i := j) hs₁ (congrArg Thread.program htj)
    (by simp [State.Waits, State.request, hq, hjk])
  have hs₃ := reachable_request (i := i) hs₂ (congrArg Thread.program hti)
    (by simp [State.Waits, State.request, hq])
  refine not_deadlockFree_of_knot (K := {i, j, k}) hs₃ ?_ ⟨i, .inl rfl⟩
  rintro t (rfl | rfl | rfl)
  · refine ⟨sessions, .read, _, congrArg Thread.program hti, ?_,
      .inl ⟨j, .inr (.inl rfl), .write, ?_, by decide⟩⟩
    · simp [State.Waits, State.request]
    · exact (congrArg Thread.held htj).symm ▸ mem_cons_self
  · refine ⟨daemonSessions, .read, _, congrArg Thread.program htj, ?_,
      .inr ⟨k, .inr (.inr rfl), ?_⟩⟩
    · simp [State.Waits, State.request]
    · simp [State.ahead, State.request, hq, hjk.symm]
  · refine ⟨daemonSessions, .write, _, congrArg Thread.program htk, ?_,
      .inl ⟨i, .inl rfl, .read, ?_, by decide⟩⟩
    · simp [State.Waits, State.request]
    · exact (congrArg Thread.held hti).symm ▸ mem_cons_self

/-- A finite set of calls can deadlock exactly if it is prone to it. -/
theorem deadlockFree_iff_not_prone (P : Policy) (calls : Fin n → LockCall) :
    DeadlockFree P (lockPrograms calls) ↔ ¬DeadlockProne calls := by
  refine ⟨?_, deadlockFree_of_not_prone⟩
  rintro hfree ⟨⟨i, hi⟩, ⟨j, hj⟩, ⟨k, hk⟩⟩
  by_cases hwj : (calls j).writesQueue
  · exact not_deadlockFree_of_nested_write hi hj hwj hfree
  by_cases hnk : (calls k).nestsQueue
  · exact not_deadlockFree_of_nested_write hi hnk hk hfree
  obtain ⟨promoted, hrelease⟩ := release_of_nestsQueue hj hwj
  obtain ⟨pending, hstart⟩ := start_of_writesQueue hk hnk
  exact not_deadlockFree_of_queued_write hi hrelease hstart hfree

def getAndClear : Fin 2 → LockCall
  | 0 => getSessionsForDaemon
  | 1 => clearSessionsForDaemon

/-- `get_sessions_for_daemon` takes `daemon_sessions`, `clear_sessions_for_daemon` takes
`sessions`, and neither gets the other lock. -/
theorem not_deadlockFree_getAndClear :
    ¬DeadlockFree Policy.fifo (lockPrograms getAndClear) := by
  let T := system Policy.fifo (lockPrograms getAndClear)
  have hstuck : ∃ s, T.run T.init [0, 0, 1, 1, 0, 1] = some s ∧
      (s.thread 0).program ≠ [] ∧ ∀ i, (step Policy.fifo s i).isSome = false := by
    refine ⟨(T.run T.init [0, 0, 1, 1, 0, 1]).get (by decide +kernel), ?_, ?_, ?_⟩
    · exact (Option.some_get _).symm
    · decide +kernel
    · decide +kernel
  obtain ⟨s, hrun, hunfinished, hnone⟩ := hstuck
  intro hfree
  obtain hdone | ⟨i, hi⟩ := hfree s (Lts.reachable_of_run hrun)
  · exact hunfinished (hdone 0)
  · exact absurd hi (by simp [hnone i])

end Deadlock

end Scanopy
