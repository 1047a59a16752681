import Mathlib.Data.Finset.Basic
import Scanopy.Lib.Lts

/-! The loads of the topology viewer. A trigger that arrives during a load queues another one, which
is started only if the inputs differ from those that the ended load was begun with. The topology is
not one of these inputs. -/

namespace Scanopy

open List Option Nat

structure ReloadInputs where
  collapsed : Finset String
  expandedBundles : Finset String
  expandedPorts : Finset String
  bundleEdges : Bool
  hiddenEdgeTypes : String
  tagHidden : Finset String
  hiddenEntities : Finset String
  hiddenMetadata : String
  deriving DecidableEq

def reloadInputsDiff (previous next : ReloadInputs) : List String :=
  (if previous.bundleEdges ≠ next.bundleEdges then ["bundleEdges"] else []) ++
  (if previous.hiddenEdgeTypes ≠ next.hiddenEdgeTypes then ["hiddenEdgeTypes"] else []) ++
  (if previous.collapsed ≠ next.collapsed then ["collapsed"] else []) ++
  (if previous.expandedBundles ≠ next.expandedBundles then ["expandedBundles"] else []) ++
  (if previous.expandedPorts ≠ next.expandedPorts then ["expandedPorts"] else []) ++
  (if previous.tagHidden ≠ next.tagHidden then ["tagHidden"] else []) ++
  (if previous.hiddenEntities ≠ next.hiddenEntities then ["hiddenEntities"] else []) ++
  (if previous.hiddenMetadata ≠ next.hiddenMetadata then ["hiddenMetadata"] else [])

theorem reloadInputsDiff_eq_nil {previous next : ReloadInputs} :
    reloadInputsDiff previous next = [] ↔ previous = next := by
  cases previous
  cases next
  simp only [reloadInputsDiff, append_eq_nil_iff, ite_eq_right_iff, cons_ne_nil, imp_false,
    not_not, ReloadInputs.mk.injEq]
  tauto

section
variable (τ : Type)

/-- A load that is running: what it was begun with, and whether it has given up. -/
structure LoadRun where
  generation : ℕ
  topology : τ
  inputs : ReloadInputs
  abandoned : Bool := false

structure TopologyViewer where
  topology : τ
  inputs : ReloadInputs
  /-- Whether the options have arrived, or the wait for them has been given up. -/
  hydrated : Bool
  /-- The triggers that wait for a microtask or for the effects to run. -/
  owed : ℕ := 0
  running : Option (LoadRun τ) := none
  pendingReload : Bool := false
  inFlightInputs : Option ReloadInputs := none
  layoutGeneration : ℕ := 0
  /-- What the last load was begun with that has come to its end. -/
  completed : Option (τ × ReloadInputs) := none

/-- What happens to the viewer. Where a load begins, `writes` is the collapsed set that its
preparation stores, if it stores one. -/
inductive ViewerEvent
  | setTopology (topology : τ)
  | setCollapsed (collapsed : Finset String)
  | setInputs (inputs : ReloadInputs) (writes : Option (Finset String))
  | hydrate
  | flush (writes : Option (Finset String))
  | check
  | relayout (writes : Option (Finset String))
  | finish (writes : Option (Finset String))

end

namespace TopologyViewer
variable {τ : Type}
variable {v : TopologyViewer τ}

/-- `loadTopologyData` up to its first pause: it takes a generation, prepares, and takes a snapshot
of its inputs. What the preparation stores is a change like any other for the subscribers. -/
def beginLoad (v : TopologyViewer τ) (writes : Option (Finset String)) : TopologyViewer τ :=
  let inputs := { v.inputs with collapsed := writes.getD v.inputs.collapsed }
  { v with
    inputs
    owed := v.owed + writes.isSome.toNat
    running := some ⟨v.layoutGeneration + 1, v.topology, inputs, false⟩
    inFlightInputs := some inputs
    layoutGeneration := v.layoutGeneration + 1 }

def triggerLoad (v : TopologyViewer τ) (writes : Option (Finset String)) : TopologyViewer τ :=
  match v.running with
  | some _ =>
    { v with
      pendingReload := true
      layoutGeneration := if v.inFlightInputs.any fun i => reloadInputsDiff i v.inputs ≠ []
        then v.layoutGeneration + 1 else v.layoutGeneration }
  | none => if !v.hydrated then v else { v with pendingReload := false }.beginLoad writes

def endLoad (v : TopologyViewer τ) (run : LoadRun τ) : TopologyViewer τ :=
  { v with
    running := none
    pendingReload := false
    inFlightInputs := none
    completed := if run.abandoned then v.completed else some (run.topology, run.inputs) }

/-- The end of a load. The snapshot is dropped last, also that of the load that this one starts. -/
def finishLoad (v : TopologyViewer τ) (run : LoadRun τ) (writes : Option (Finset String)) :
    TopologyViewer τ :=
  if v.pendingReload then
    if v.inFlightInputs.any fun i => reloadInputsDiff i v.inputs = [] then v.endLoad run
    else { (v.endLoad run).triggerLoad writes with inFlightInputs := none }
  else v.endLoad run

def isStale (v : TopologyViewer τ) (run : LoadRun τ) : Bool := run.generation ≠ v.layoutGeneration

def step (v : TopologyViewer τ) : ViewerEvent τ → Option (TopologyViewer τ)
  | .setTopology topology => some { v with topology, owed := v.owed + 1 }
  | .setCollapsed collapsed =>
    some { v with inputs := { v.inputs with collapsed }, owed := v.owed + 1 }
  | .setInputs inputs writes =>
    some ({ v with inputs := { inputs with collapsed := v.inputs.collapsed } }.triggerLoad writes)
  | .hydrate => some { v with hydrated := true, owed := v.owed + 1 }
  | .flush writes =>
    if v.owed = 0 then none else some ({ v with owed := v.owed - 1 }.triggerLoad writes)
  | .check => v.running.map fun run =>
    { v with running := some { run with abandoned := run.abandoned || v.isStale run } }
  | .relayout writes => match v.running with
    | some run => if run.abandoned || v.isStale run then none else some (v.beginLoad writes)
    | none => none
  | .finish writes => v.running.map fun run => v.finishLoad run writes

def mounted (topology : τ) (inputs : ReloadInputs) (hydrated : Bool) : TopologyViewer τ :=
  { topology, inputs, hydrated, owed := 1 }

def system (topology : τ) (inputs : ReloadInputs) (hydrated : Bool) :
    Lts (TopologyViewer τ) (ViewerEvent τ) :=
  ⟨mounted topology inputs hydrated, step⟩

def Idle (v : TopologyViewer τ) : Prop :=
  v.running.isNone = true ∧ v.pendingReload = false ∧ v.owed = 0 ∧ v.hydrated = true

def ShowsCurrent (v : TopologyViewer τ) : Prop := v.completed = some (v.topology, v.inputs)

/-- The condition on the end of a load for which another one is queued and whose inputs are current:
it has read the current topology and has not been given up, or it has been given up and the load
before it shows what is current already. -/
def EndsCurrent (v : TopologyViewer τ) : ViewerEvent τ → Prop
  | .finish _ => ∀ run, v.running = some run → v.pendingReload = true →
    v.inFlightInputs = some v.inputs →
      (run.abandoned = false ∧ run.topology = v.topology) ∨
        (run.abandoned = true ∧ v.ShowsCurrent)
  | _ => True

structure LoadInv (v : TopologyViewer τ) : Prop where
  idle : v.running = none → v.pendingReload = false
  shows : v.running = none → v.hydrated = true → v.owed = 0 → v.ShowsCurrent
  opened : ∀ run, v.running = some run → v.hydrated = true
  fresh : ∀ run, v.running = some run → v.pendingReload = false →
    run.abandoned = false ∧ run.generation = v.layoutGeneration
  current : ∀ run, v.running = some run → v.pendingReload = false → v.owed = 0 →
    run.topology = v.topology ∧ run.inputs = v.inputs
  snapshot : ∀ run i, v.running = some run → v.inFlightInputs = some i → run.inputs = i

theorem triggerLoad_of_running {run : LoadRun τ} (h : v.running = some run)
    (writes : Option (Finset String)) :
    v.triggerLoad writes =
      { v with
        pendingReload := true
        layoutGeneration := if v.inFlightInputs.any fun i => reloadInputsDiff i v.inputs ≠ []
          then v.layoutGeneration + 1 else v.layoutGeneration } := by
  rw [triggerLoad, h]

theorem triggerLoad_of_idle (h : v.running = none)
    (writes : Option (Finset String)) :
    v.triggerLoad writes =
      if !v.hydrated then v else { v with pendingReload := false }.beginLoad writes := by
  rw [triggerLoad, h]

namespace LoadInv
variable {v : TopologyViewer τ}
variable {run : LoadRun τ}

theorem beginLoad (hopen : v.hydrated = true) (writes : Option (Finset String)) :
    LoadInv (v.beginLoad writes) where
  idle h := absurd h nofun
  shows h := absurd h nofun
  opened _ _ := hopen
  fresh run hrun _ := by
    obtain rfl := some.inj hrun
    exact ⟨rfl, rfl⟩
  current run hrun _ _ := by
    obtain rfl := some.inj hrun
    exact ⟨rfl, rfl⟩
  snapshot run i hrun hi := by
    obtain rfl := some.inj hrun
    exact some.inj hi

theorem triggerLoad (hidle : v.running = none → v.pendingReload = false)
    (hopen : ∀ run, v.running = some run → v.hydrated = true)
    (hsnapshot : ∀ run i, v.running = some run → v.inFlightInputs = some i → run.inputs = i)
    (writes : Option (Finset String)) : LoadInv (v.triggerLoad writes) := by
  cases hrun : v.running with
  | some run =>
    rw [triggerLoad_of_running hrun]
    exact ⟨fun h => absurd (hrun.symm.trans h) nofun, fun h => absurd (hrun.symm.trans h) nofun,
      hopen, fun _ _ h => absurd h nofun, fun _ _ h => absurd h nofun, hsnapshot⟩
  | none =>
    rw [triggerLoad_of_idle hrun]
    split_ifs with hhydrated
    · have hclosed : v.hydrated = false := by simpa using hhydrated
      exact ⟨hidle, fun _ h => absurd (hclosed.symm.trans h) nofun, hopen,
        fun _ h => absurd (hrun.symm.trans h) nofun, fun _ h => absurd (hrun.symm.trans h) nofun,
        hsnapshot⟩
    · have hhydrated : v.hydrated = true := by simpa using hhydrated
      exact beginLoad (v := { v with pendingReload := false }) hhydrated writes

theorem endLoad
    (hshows : v.hydrated = true → v.owed = 0 → (v.endLoad run).ShowsCurrent) :
    LoadInv (v.endLoad run) where
  idle _ := rfl
  shows _ := hshows
  opened _ h := absurd h nofun
  fresh _ h := absurd h nofun
  current _ h := absurd h nofun
  snapshot _ _ h := absurd h nofun

theorem showsCurrent_endLoad (hdone : run.abandoned = false)
    (htopology : run.topology = v.topology) (hinputs : run.inputs = v.inputs) :
    (v.endLoad run).ShowsCurrent := by
  simp only [ShowsCurrent, TopologyViewer.endLoad, hdone, Bool.false_eq_true, if_false, htopology,
    hinputs]

theorem finishLoad (hv : LoadInv v) (hrun : v.running = some run)
    {writes : Option (Finset String)} (hok : EndsCurrent v (.finish writes)) :
    LoadInv (v.finishLoad run writes) := by
  unfold TopologyViewer.finishLoad
  split_ifs with hpending hconsumed
  · -- the queued load is dropped, because the inputs are those of the load that ends
    obtain ⟨i, hi, hdiff⟩ := (Option.any_eq_true _ _).mp hconsumed
    have hinputs : i = v.inputs := reloadInputsDiff_eq_nil.mp (of_decide_eq_true hdiff)
    refine endLoad fun _ _ => ?_
    obtain ⟨hdone, htopology⟩ | ⟨habandoned, hshows⟩ := hok run hrun hpending (hinputs ▸ hi)
    · exact showsCurrent_endLoad hdone htopology ((hv.snapshot run i hrun hi).trans hinputs)
    · simp only [ShowsCurrent, TopologyViewer.endLoad, habandoned, if_true]
      exact hshows
  · have htriggered : LoadInv ((v.endLoad run).triggerLoad writes) :=
      triggerLoad (v := v.endLoad run) (fun _ => rfl) (fun _ h => nomatch h) (fun _ _ h => nomatch h)
        writes
    exact ⟨htriggered.idle, htriggered.shows, htriggered.opened, htriggered.fresh,
      htriggered.current, fun _ _ _ h => absurd h nofun⟩
  · have hquiet : v.pendingReload = false := Bool.eq_false_iff.mpr hpending
    refine endLoad fun _ howed => ?_
    obtain ⟨hdone, -⟩ := hv.fresh run hrun hquiet
    obtain ⟨htopology, hinputs⟩ := hv.current run hrun hquiet howed
    exact showsCurrent_endLoad hdone htopology hinputs

theorem step (hv : LoadInv v) {e : ViewerEvent τ} (hok : EndsCurrent v e) {v' : TopologyViewer τ}
    (h : v.step e = some v') : LoadInv v' := by
  cases e with
  | setTopology topology =>
    obtain rfl := some.inj h
    exact ⟨hv.idle, fun _ _ h => absurd h (succ_ne_zero _), hv.opened, hv.fresh,
      fun _ _ _ h => absurd h (succ_ne_zero _), hv.snapshot⟩
  | setCollapsed collapsed =>
    obtain rfl := some.inj h
    exact ⟨hv.idle, fun _ _ h => absurd h (succ_ne_zero _), hv.opened, hv.fresh,
      fun _ _ _ h => absurd h (succ_ne_zero _), hv.snapshot⟩
  | setInputs inputs writes =>
    obtain rfl := some.inj h
    exact triggerLoad (v := { v with inputs := { inputs with collapsed := v.inputs.collapsed } })
      hv.idle hv.opened hv.snapshot writes
  | hydrate =>
    obtain rfl := some.inj h
    exact ⟨hv.idle, fun _ _ h => absurd h (succ_ne_zero _), fun _ _ => rfl, hv.fresh,
      fun _ _ _ h => absurd h (succ_ne_zero _), hv.snapshot⟩
  | flush writes =>
    rw [TopologyViewer.step] at h
    split_ifs at h
    obtain rfl := some.inj h
    exact triggerLoad (v := { v with owed := v.owed - 1 }) hv.idle hv.opened hv.snapshot writes
  | check =>
    obtain ⟨run, hrun, rfl⟩ := map_eq_some_iff.mp h
    refine ⟨fun h => absurd h nofun, fun h => absurd h nofun, fun _ _ => hv.opened run hrun, ?_, ?_, ?_⟩
    · intro run' hrun' hpending
      obtain rfl := some.inj hrun'
      obtain ⟨hdone, hgeneration⟩ := hv.fresh run hrun hpending
      exact ⟨by simp [hdone, isStale, hgeneration], hgeneration⟩
    · intro run' hrun' hpending howed
      obtain rfl := some.inj hrun'
      exact hv.current run hrun hpending howed
    · intro run' i hrun' hi
      obtain rfl := some.inj hrun'
      exact hv.snapshot run i hrun hi
  | relayout writes =>
    cases hrun : v.running with
    | none => simp only [TopologyViewer.step, hrun] at h; exact absurd h nofun
    | some run =>
      simp only [TopologyViewer.step, hrun] at h
      split_ifs at h
      obtain rfl := some.inj h
      exact beginLoad (hv.opened run hrun) writes
  | finish writes =>
    obtain ⟨run, hrun, rfl⟩ := map_eq_some_iff.mp h
    exact hv.finishLoad hrun hok

end LoadInv

theorem loadInv_of_reachableVia {topology : τ} {inputs : ReloadInputs} {hydrated : Bool}
    (hv : (system topology inputs hydrated).ReachableVia EndsCurrent v) :
    LoadInv v := by
  refine hv.invariant ⟨fun _ => rfl, fun _ _ h => absurd h nofun, fun _ h => absurd h nofun,
    fun _ h => absurd h nofun, fun _ h => absurd h nofun, fun _ _ h => absurd h nofun⟩ ?_
  intro v e v' _ hinv hok hstep
  exact hinv.step hok hstep

theorem not_showsCurrent_of_not_endsCurrent (hv : LoadInv v)
    {writes : Option (Finset String)} (hends : ¬ EndsCurrent v (.finish writes))
    (howed : v.owed = 0) :
    ∃ v', v.step (.finish writes) = some v' ∧ v'.Idle ∧ ¬ v'.ShowsCurrent := by
  simp only [EndsCurrent, not_forall, not_or] at hends
  obtain ⟨run, hrun, hpending, hinputs, hnew, hold⟩ := hends
  have hsuppressed : (v.inFlightInputs.any fun i => reloadInputsDiff i v.inputs = []) = true := by
    rw [hinputs, any_some, decide_eq_true_iff, reloadInputsDiff_eq_nil]
  have hfinish : v.finishLoad run writes = v.endLoad run := by
    rw [finishLoad, if_pos hpending, if_pos hsuppressed]
  refine ⟨v.endLoad run, ?_, ⟨rfl, rfl, howed, hv.opened run hrun⟩, fun hshows => ?_⟩
  · rw [step, hrun, map_some, hfinish]
  · simp only [ShowsCurrent, endLoad] at hshows
    cases habandoned : run.abandoned with
    | false =>
      rw [habandoned, if_neg Bool.false_ne_true] at hshows
      exact hnew ⟨habandoned, congrArg Prod.fst (some.inj hshows)⟩
    | true =>
      rw [habandoned, if_pos rfl] at hshows
      exact hold ⟨habandoned, hshows⟩

theorem showsCurrent_of_endsCurrent (topology : τ) (inputs : ReloadInputs) (hydrated : Bool)
    (v : TopologyViewer τ) (hv : (system topology inputs hydrated).ReachableVia EndsCurrent v) :
    (v.Idle → v.ShowsCurrent) ∧ ∀ writes, ¬ EndsCurrent v (.finish writes) → v.owed = 0 →
        ∃ v', v.step (.finish writes) = some v' ∧ v'.Idle ∧ ¬ v'.ShowsCurrent := by
  have hinv := loadInv_of_reachableVia hv
  refine ⟨?_, fun writes hends howed => not_showsCurrent_of_not_endsCurrent hinv hends howed⟩
  rintro ⟨hnone, -, howed, hhydrated⟩
  exact hinv.shows (isNone_iff_eq_none.mp hnone) hhydrated howed

def noFilters : ReloadInputs := ⟨∅, ∅, ∅, false, "", ∅, ∅, ""⟩

/-- The first load, with nothing in between. -/
theorem showsCurrent_of_endsCurrent_firstLoad :
    ∃ v, (system 0 noFilters true).run (mounted 0 noFilters true) [.flush none, .finish none] =
      some v ∧ v.ShowsCurrent := by
  refine ⟨_, rfl, (showsCurrent_of_endsCurrent 0 noFilters true _ ?_).1 ⟨rfl, rfl, rfl, rfl⟩⟩
  have hstarted : (system 0 noFilters true).ReachableVia EndsCurrent
      ({ mounted 0 noFilters true with owed := 0 }.triggerLoad none) :=
    .step (l := .flush none) .init trivial rfl
  exact .step (l := .finish none) hstarted (fun _ _ hpending => nomatch hpending) rfl

theorem not_showsCurrent :
    ¬ ∀ (τ : Type) (topology : τ) (inputs : ReloadInputs) (hydrated : Bool) (v : TopologyViewer τ),
      (system topology inputs hydrated).Reachable v → v.Idle → v.ShowsCurrent := by
  intro h
  -- another topology arrives while the first load is running
  have hrun := Lts.reachable_of_run (show (system 0 noFilters true).run (mounted 0 noFilters true)
    [.flush none, .setTopology 1, .flush none, .finish none] = some _ from rfl)
  have hshows := h ℕ 0 noFilters true _ hrun ⟨rfl, rfl, rfl, rfl⟩
  exact absurd (congrArg Prod.fst (some.inj hshows)) (by decide)

end TopologyViewer

end Scanopy
