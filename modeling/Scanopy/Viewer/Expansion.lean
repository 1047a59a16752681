import Scanopy.Viewer.Collapse

/-! What the user has expanded against what the preparation collapses on its own. A step of the
ladder records every container that it leaves open; a toggle records nothing. -/

namespace Scanopy

open Option Finset

namespace ViewTopology
variable {t : ViewTopology} {id : String}
variable {collapsed : Finset String} {p : ViewNode → Bool}

theorem mem_idsWhere :
    id ∈ t.idsWhere p ↔ ∃ n ∈ t.containers, p n = true ∧ n.id = id := by
  simp [idsWhere, and_assoc]

theorem mem_containerIds_of_mem_idsWhere (h : id ∈ t.idsWhere p) :
    id ∈ t.containerIds := by
  obtain ⟨n, hn, -, hid⟩ := mem_idsWhere.mp h
  exact mem_idsWhere.mpr ⟨n, hn, rfl, hid⟩

theorem mem_leftExpanded (h : id ∈ t.autoCollapseCandidates)
    (hopen : id ∉ collapsed) : id ∈ t.autoCollapseCandidatesLeftExpanded collapsed := by
  obtain ⟨n, hn, hcandidate, rfl⟩ := mem_idsWhere.mp h
  refine mem_sdiff.mpr ⟨mem_union.mpr ?_, hopen⟩
  obtain hscale | hauto := Bool.or_eq_true_iff.mp hcandidate
  · have hscale : n.id ∈ t.scaleCollapseCandidates := of_decide_eq_true hscale
    unfold scaleCollapseCandidates at hscale
    split_ifs at hscale
    · exact absurd hscale (notMem_empty _)
    · exact .inl hscale
  · exact .inr (mem_idsWhere.mpr ⟨n, hn, hauto, rfl⟩)

theorem inferCurrentLevel_eq_four :
    t.inferCurrentLevel collapsed = .four ↔ collapsed = ∅ := by
  unfold inferCurrentLevel
  by_cases hempty : collapsed = ∅
  · simp [hempty, computeCollapsedForLevel]
  · simp only [hempty, iff_false]
    have hfour : ¬ collapsed = t.computeCollapsedForLevel .four := hempty
    split
    · rename_i l hl
      have := List.find?_some hl
      rintro rfl
      exact hfour (of_decide_eq_true this)
    · simp only [if_false]
      split_ifs <;> exact nofun

end ViewTopology

inductive ViewerAction
  | toggle (id : String)
  | step (direction : ViewTopology.StepDirection)
  | prepare (input : PrepareInput)

namespace ViewerState
variable {t : ViewTopology} {s : ViewerState}
variable {input : PrepareInput} {id : String}

def loaded (collapsed : Finset String) (level : CollapseLevel)
    (hadStoredLevel defaultsApplied : Bool) : ViewerState :=
  { collapsed, level, hadStoredLevel, defaultsApplied }

def act (t : ViewTopology) (s : ViewerState) : ViewerAction → Option ViewerState
  | .toggle id => some (s.toggleCollapse t id)
  | .step direction => some (s.stepLevel t direction)
  | .prepare input => if input.viewChanged then none else some (s.prepareTopologyData t input)

def recordExpanded (s : ViewerState) (a : ViewerAction) (s' : ViewerState)
    (expanded : Finset String) : Finset String :=
  match a with
  | .prepare _ => expanded
  | _ => (expanded ∪ s.collapsed) \ s'.collapsed

def viewer (t : ViewTopology) (s₀ : ViewerState) : Lts (ViewerState × Finset String) ViewerAction :=
  Lts.withHistory ⟨s₀, act t⟩ ∅ recordExpanded

def StaysExpanded (x : ViewerState × Finset String) : Prop := ∀ id ∈ x.2, id ∉ x.1.collapsed

theorem syncGraph_collapsed (s : ViewerState) (input : PrepareInput) :
    (s.syncGraph input).collapsed = s.collapsed ∧ (s.syncGraph input).level = s.level ∧
      (s.syncGraph input).collapseLevelInferred = s.collapseLevelInferred ∧
      (s.syncGraph input).collapseLevelReconciled = s.collapseLevelReconciled ∧
      (s.syncGraph input).lastSeenTopologyId = s.lastSeenTopologyId ∧
      s.seenAutoCollapseIds ⊆ (s.syncGraph input).seenAutoCollapseIds := by
  unfold syncGraph
  dsimp only
  split_ifs
  · exact ⟨rfl, rfl, rfl, rfl, rfl, Finset.Subset.refl _⟩
  · exact ⟨rfl, rfl, rfl, rfl, rfl, Finset.Subset.refl _⟩
  · exact ⟨rfl, rfl, rfl, rfl, rfl, subset_union_left⟩

theorem lastSeenTopologyId_seeded (s : ViewerState) (input : PrepareInput) :
    (((s.dropSeen t input).stripCollapsed t).seedCollapse t).lastSeenTopologyId =
      s.lastSeenTopologyId := by
  unfold dropSeen stripCollapsed seedCollapse
  split_ifs <;> rfl

theorem prepareTopologyData_eq (hid : s.lastSeenTopologyId = "" ∨ s.lastSeenTopologyId = t.id)
    (hview : input.viewChanged = false) :
    s.prepareTopologyData t input = ({ (((s.dropSeen t input).stripCollapsed t).seedCollapse t) with
        lastSeenTopologyId := t.id }.applyAutoCollapse t).syncGraph input := by
  have hsame : ∀ s' : ViewerState, s'.lastSeenTopologyId = s.lastSeenTopologyId →
      (s'.applyLevelOnViewSwitch t input).switchTopology t = s' := by
    intro s' hs'
    have hswitch : s'.applyLevelOnViewSwitch t input = s' := by
      simp only [applyLevelOnViewSwitch, hview, Bool.false_and, Bool.false_eq_true, if_false]
    rw [hswitch, switchTopology, if_neg]
    rw [hs']
    rintro ⟨hne, hnonempty⟩
    obtain hid | hid := hid
    · exact hnonempty hid
    · exact hne hid.symm
  have hskip : (input.viewChanged && !input.topologyChanged) = false := by rw [hview, Bool.false_and]
  unfold prepareTopologyData
  dsimp only
  rw [hskip, if_neg Bool.false_ne_true, hsame _ (lastSeenTopologyId_seeded s input)]

def seededLevel (t : ViewTopology) (s : ViewerState) : CollapseLevel :=
  if s.collapseLevelInferred then s.level
  else if !s.defaultsApplied && !s.hadStoredLevel then s.level
  else t.inferCurrentLevel (s.collapsed ∩ t.containerIds)

/-- The set that a preparation starts from. -/
def seededCollapsed (t : ViewTopology) (s : ViewerState) : Finset String :=
  if s.collapseLevelInferred then s.collapsed ∩ t.containerIds
  else if !s.defaultsApplied && !s.hadStoredLevel then t.computeCollapsedForLevel s.level
  else s.collapsed ∩ t.containerIds

theorem seeded_spec (s : ViewerState) (input : PrepareInput) :
    let s' := ((s.dropSeen t input).stripCollapsed t).seedCollapse t
    s'.collapsed = seededCollapsed t s ∧ s'.level = seededLevel t s ∧
      s'.collapseLevelInferred = true ∧ s'.collapseLevelReconciled = s.collapseLevelReconciled ∧
      s'.seenAutoCollapseIds = (s.dropSeen t input).seenAutoCollapseIds := by
  unfold dropSeen stripCollapsed seedCollapse seededCollapsed seededLevel
  split_ifs <;> simp_all

def autoCollapsed (t : ViewTopology) (s : ViewerState) (input : PrepareInput) : Finset String :=
  if seededLevel t s = .four then ∅
  else (t.autoCollapseCandidates \ seededCollapsed t s) \ (s.dropSeen t input).seenAutoCollapseIds

theorem prepareTopologyData_spec
    (hid : s.lastSeenTopologyId = "" ∨ s.lastSeenTopologyId = t.id)
    (hview : input.viewChanged = false) :
    let p := s.prepareTopologyData t input
    p.collapsed = seededCollapsed t s ∪ autoCollapsed t s input ∧
      p.level = (if s.collapseLevelReconciled then seededLevel t s
        else t.inferCurrentLevel p.collapsed) ∧
      p.collapseLevelInferred = true ∧ p.collapseLevelReconciled = true ∧
      p.lastSeenTopologyId = t.id ∧
      (s.dropSeen t input).seenAutoCollapseIds ⊆ p.seenAutoCollapseIds := by
  obtain ⟨hcollapsed, hlevel, hinferred, hreconciled, hseen⟩ := seeded_spec (t := t) s input
  rw [prepareTopologyData_eq hid hview]
  generalize ((s.dropSeen t input).stripCollapsed t).seedCollapse t = s' at *
  obtain ⟨hc, hl, hi, hr, hlast, hsub⟩ := syncGraph_collapsed
    ({ s' with lastSeenTopologyId := t.id }.applyAutoCollapse t) input
  have hauto : ({ s' with lastSeenTopologyId := t.id }.applyAutoCollapse t).collapsed =
      seededCollapsed t s ∪ autoCollapsed t s input := by
    simp only [applyAutoCollapse, hlevel, hinferred, hcollapsed, hseen, and_true, autoCollapsed]
  refine ⟨hc.trans hauto, ?_, hi.trans hinferred, hr.trans rfl, hlast, ?_⟩
  · rw [hl, hc, hauto]
    simp only [applyAutoCollapse, hreconciled, hlevel, hinferred, hcollapsed, hseen, and_true,
      autoCollapsed]
  · refine Finset.Subset.trans ?_ hsub
    rw [← hseen]
    exact subset_union_left

theorem mem_dropSeen (h : id ∈ s.seenAutoCollapseIds)
    (hid : id ∈ t.containerIds) : id ∈ (s.dropSeen t input).seenAutoCollapseIds := by
  unfold dropSeen
  split_ifs
  · exact mem_inter.mpr ⟨h, hid⟩
  · exact h

theorem dropSeen_subset (s : ViewerState) (input : PrepareInput) :
    (s.dropSeen t input).seenAutoCollapseIds ⊆ s.seenAutoCollapseIds := by
  unfold dropSeen
  split_ifs
  · exact inter_subset_left
  · exact Finset.Subset.refl _

/-- A candidate that no preparation closes: it has been recorded, or everything is expanded. -/
def Settled (t : ViewTopology) (level : CollapseLevel) (seen : Finset String) (id : String) : Prop :=
  id ∈ t.autoCollapseCandidates → id ∈ seen ∨ level = .four

instance (level : CollapseLevel) (seen : Finset String) (id : String) :
    Decidable (Settled t level seen id) := inferInstanceAs (Decidable (_ → _))

/-- The condition on an action: after the first preparation a toggle expands settled containers
only; the first preparation meets settled containers only, and in a fresh session none that the
default level closes. -/
def ExpandsSettled (t : ViewTopology) (x : ViewerState × Finset String) : ViewerAction → Prop
  | .toggle id => x.1.collapseLevelInferred = true →
    ∀ c ∈ x.1.collapsed \ (x.1.toggleCollapse t id).collapsed,
      Settled t x.1.level x.1.seenAutoCollapseIds c
  | .step _ => True
  | .prepare _ => x.1.collapseLevelInferred = false →
    ∀ c ∈ x.2, Settled t (seededLevel t x.1) x.1.seenAutoCollapseIds c ∧
      (x.1.defaultsApplied = false → x.1.hadStoredLevel = false →
        c ∉ t.computeCollapsedForLevel x.1.level)

instance (x : ViewerState × Finset String) :
    (a : ViewerAction) → Decidable (ExpandsSettled t x a)
  | .toggle _ => inferInstanceAs (Decidable (_ → ∀ _ ∈ _, _))
  | .step _ => inferInstanceAs (Decidable True)
  | .prepare _ => inferInstanceAs (Decidable (_ → ∀ _ ∈ _, _ ∧ (_ → _ → _)))

structure ExpansionInv (t : ViewTopology) (x : ViewerState × Finset String) : Prop where
  topology : x.1.lastSeenTopologyId = "" ∨ x.1.lastSeenTopologyId = t.id
  reconciled : x.1.collapseLevelInferred = true → x.1.collapseLevelReconciled = true
  stays : StaysExpanded x
  settled : x.1.collapseLevelInferred = true →
    ∀ id ∈ x.2, Settled t x.1.level x.1.seenAutoCollapseIds id

theorem seededCollapsed_of_four (hinferred : s.collapseLevelInferred = false)
    (h : seededLevel t s = .four) : seededCollapsed t s = ∅ := by
  unfold seededLevel at h
  unfold seededCollapsed
  simp only [hinferred, Bool.false_eq_true, if_false] at h ⊢
  split_ifs at h ⊢
  · rw [h]
    rfl
  · exact ViewTopology.inferCurrentLevel_eq_four.mp h

theorem exists_toggleCollapse_eq (t : ViewTopology) (s : ViewerState) (id : String) :
    ∃ collapsed, s.toggleCollapse t id = { s with collapsed } := by
  unfold toggleCollapse
  split_ifs
  · exact ⟨_, rfl⟩
  · exact ⟨_, rfl⟩

namespace ExpansionInv
variable {x : ViewerState × Finset String}
variable {input : PrepareInput}

theorem settled_seeded (hx : ExpansionInv t x)
    (hok : ExpandsSettled t x (.prepare input)) :
    ∀ id ∈ x.2, Settled t (seededLevel t x.1) x.1.seenAutoCollapseIds id := by
  intro id hid
  by_cases hinferred : x.1.collapseLevelInferred = true
  · rw [seededLevel, if_pos hinferred]
    exact hx.settled hinferred id hid
  · exact (hok (Bool.eq_false_iff.mpr hinferred) id hid).1

theorem notMem_seededCollapsed (hx : ExpansionInv t x)
    (hok : ExpandsSettled t x (.prepare input)) : ∀ id ∈ x.2, id ∉ seededCollapsed t x.1 := by
  intro id hid
  have hstripped : id ∉ x.1.collapsed ∩ t.containerIds :=
    fun hmem => hx.stays id hid (mem_inter.mp hmem).1
  unfold seededCollapsed
  split_ifs with hinferred hfresh
  · exact hstripped
  · rw [Bool.and_eq_true, Bool.not_eq_true', Bool.not_eq_true'] at hfresh
    exact (hok (Bool.eq_false_iff.mpr hinferred) id hid).2 hfresh.1 hfresh.2
  · exact hstripped

theorem prepare (hx : ExpansionInv t x)
    (hok : ExpandsSettled t x (.prepare input)) (hview : input.viewChanged = false) :
    ExpansionInv t (x.1.prepareTopologyData t input, x.2) := by
  obtain ⟨hcollapsed, hlevel, hinferred, hreconciled, hlast, hseen⟩ :=
    prepareTopologyData_spec hx.topology hview
  have hsettled := hx.settled_seeded hok
  refine ⟨.inr hlast, fun _ => hreconciled, ?_, fun _ id hid hcandidate => ?_⟩
  · intro id hid hmem
    rw [hcollapsed, mem_union] at hmem
    obtain hmem | hmem := hmem
    · exact hx.notMem_seededCollapsed hok id hid hmem
    · unfold autoCollapsed at hmem
      split_ifs at hmem with hfour
      · exact absurd hmem (notMem_empty _)
      · rw [mem_sdiff, mem_sdiff] at hmem
        obtain hrecorded | hfour' := hsettled id hid hmem.1.1
        · have hcontainer := ViewTopology.mem_containerIds_of_mem_idsWhere hmem.1.1
          exact hmem.2 (mem_dropSeen hrecorded hcontainer)
        · exact hfour hfour'
  · obtain hrecorded | hfour := hsettled id hid hcandidate
    · have hcontainer := ViewTopology.mem_containerIds_of_mem_idsWhere hcandidate
      exact .inl (hseen (mem_dropSeen hrecorded hcontainer))
    · -- everything is expanded, and the level that is read back from that is the same
      refine .inr (hlevel.trans ?_)
      by_cases hprepared : x.1.collapseLevelInferred = true
      · rw [if_pos (hx.reconciled hprepared)]
        exact hfour
      · have hempty := seededCollapsed_of_four (Bool.eq_false_iff.mpr hprepared) hfour
        split_ifs
        · exact hfour
        · rw [ViewTopology.inferCurrentLevel_eq_four, hcollapsed, hempty, autoCollapsed,
            if_pos hfour, empty_union]

theorem toggle (hx : ExpansionInv t x) {id : String} (hok : ExpandsSettled t x (.toggle id)) :
    ExpansionInv t (x.1.toggleCollapse t id,
      recordExpanded x.1 (.toggle id) (x.1.toggleCollapse t id) x.2) := by
  obtain ⟨collapsed, htoggle⟩ := exists_toggleCollapse_eq t x.1 id
  simp only [ExpandsSettled, htoggle] at hok
  rw [htoggle]
  refine ⟨hx.topology, hx.reconciled, fun c hc => (mem_sdiff.mp hc).2, ?_⟩
  intro hinferred c hc
  obtain ⟨hc, hopen⟩ := mem_sdiff.mp hc
  obtain hc | hc := mem_union.mp hc
  · exact hx.settled hinferred c hc
  · exact hok hinferred c (mem_sdiff.mpr ⟨hc, hopen⟩)

theorem step (hx : ExpansionInv t x) (direction : ViewTopology.StepDirection) :
    ExpansionInv t (x.1.stepLevel t direction,
      recordExpanded x.1 (.step direction) (x.1.stepLevel t direction) x.2) := by
  unfold stepLevel
  cases t.nextEffectiveLevel x.1.collapsed direction with
  | none =>
    refine ⟨hx.topology, hx.reconciled, fun c hc => (mem_sdiff.mp hc).2, ?_⟩
    intro hinferred c hc
    obtain ⟨hc, hopen⟩ := mem_sdiff.mp hc
    exact hx.settled hinferred c ((mem_union.mp hc).resolve_right hopen)
  | some level =>
    refine ⟨hx.topology, hx.reconciled, fun c hc => (mem_sdiff.mp hc).2, ?_⟩
    intro _ c hc hcandidate
    have hopen := (mem_sdiff.mp hc).2
    exact .inl (mem_union_right _ (ViewTopology.mem_leftExpanded hcandidate hopen))

theorem act (hx : ExpansionInv t x) {a : ViewerAction} (hok : ExpandsSettled t x a)
    {s' : ViewerState} (h : x.1.act t a = some s') :
    ExpansionInv t (s', recordExpanded x.1 a s' x.2) := by
  cases a with
  | toggle id =>
    obtain rfl := some.inj h
    exact hx.toggle hok
  | step direction =>
    obtain rfl := some.inj h
    exact hx.step direction
  | prepare input =>
    rw [ViewerState.act] at h
    split_ifs at h with hview
    obtain rfl := some.inj h
    exact hx.prepare hok (Bool.eq_false_iff.mpr hview)

end ExpansionInv

theorem mem_collapsed_of_not_settled (hid : s.lastSeenTopologyId = "" ∨ s.lastSeenTopologyId = t.id)
    (hinferred : s.collapseLevelInferred = true) {c : String}
    (hc : c ∈ s.collapsed \ (s.toggleCollapse t id).collapsed)
    (hunsettled : ¬ Settled t s.level s.seenAutoCollapseIds c)
    (hview : input.viewChanged = false) :
    c ∈ ((s.toggleCollapse t id).prepareTopologyData t input).collapsed := by
  obtain ⟨collapsed, htoggle⟩ := exists_toggleCollapse_eq t s id
  rw [htoggle] at hc ⊢
  rw [Settled, Classical.not_imp, not_or] at hunsettled
  obtain ⟨hcandidate, hunseen, hlevel⟩ := hunsettled
  have hopen : c ∉ collapsed := (mem_sdiff.mp hc).2
  rw [(prepareTopologyData_spec (s := { s with collapsed }) hid hview).1]
  refine mem_union_right _ ?_
  rw [autoCollapsed, seededLevel, seededCollapsed, if_pos hinferred, if_pos hinferred, if_neg hlevel,
    mem_sdiff, mem_sdiff]
  exact ⟨⟨hcandidate, fun hmem => hopen (mem_inter.mp hmem).1⟩,
    fun hmem => hunseen (dropSeen_subset { s with collapsed } input hmem)⟩

theorem expansionInv_of_reachableVia {t : ViewTopology} {collapsed : Finset String}
    {level : CollapseLevel} {hadStoredLevel defaultsApplied : Bool} {x : ViewerState × Finset String}
    (hx : (viewer t (loaded collapsed level hadStoredLevel defaultsApplied)).ReachableVia
      (ExpandsSettled t) x) : ExpansionInv t x := by
  refine hx.invariant ⟨.inl rfl, nofun, nofun, nofun⟩ fun x a x' _ hinv hok hstep => ?_
  obtain ⟨hact, hexpanded⟩ := Lts.step_withHistory hstep
  have hnext := hinv.act hok hact
  rw [← hexpanded] at hnext
  exact hnext

theorem staysExpanded_of_expandsSettled (t : ViewTopology) (collapsed : Finset String)
    (level : CollapseLevel) (hadStoredLevel defaultsApplied : Bool) (x : ViewerState × Finset String)
    (hx : (viewer t (loaded collapsed level hadStoredLevel defaultsApplied)).ReachableVia
      (ExpandsSettled t) x) :
    StaysExpanded x ∧ ∀ id c, x.1.collapseLevelInferred = true →
        c ∈ x.1.collapsed \ (x.1.toggleCollapse t id).collapsed →
        ¬ Settled t x.1.level x.1.seenAutoCollapseIds c →
          ∀ input : PrepareInput, input.viewChanged = false →
            c ∈ ((x.1.toggleCollapse t id).prepareTopologyData t input).collapsed := by
  have hinv := expansionInv_of_reachableVia hx
  refine ⟨hinv.stays, fun id c hinferred hc hunsettled input hview => ?_⟩
  exact mem_collapsed_of_not_settled hinv.topology hinferred hc hunsettled hview

def oneContainer : ViewTopology :=
  ⟨"t", [⟨"c", .container, none, some "Vpc", none⟩], none, fun _ => ⟨true, true, false⟩⟩

def plainRun : PrepareInput := ⟨false, false, oneContainer.nodes, false, false, ∅⟩

def ladderRun : List ViewerAction := [.prepare plainRun, .step .expand, .prepare plainRun]

def toggleRun : List ViewerAction := [.prepare plainRun, .toggle "c", .prepare plainRun]

def reloaded : Lts (ViewerState × Finset String) ViewerAction :=
  viewer oneContainer (loaded {"c"} .three true false)

theorem staysExpanded_of_expandsSettled_ladder :
    ∃ x, reloaded.run reloaded.init ladderRun = some x ∧ "c" ∈ x.2 ∧ StaysExpanded x := by
  have hrun : (reloaded.run reloaded.init ladderRun).map (fun x => decide ("c" ∈ x.2)) =
      some true := by decide +kernel
  obtain ⟨x, hx, hexpanded⟩ := map_eq_some_iff.mp hrun
  have hguarded : reloaded.Guarded (ExpandsSettled oneContainer) reloaded.init ladderRun := by
    decide +kernel
  have hreached := Lts.reachableVia_of_run .init hguarded hx
  exact ⟨x, hx, of_decide_eq_true hexpanded,
    (staysExpanded_of_expandsSettled oneContainer {"c"} .three true false x hreached).1⟩

theorem not_staysExpanded :
    ¬ ∀ (t : ViewTopology) (collapsed : Finset String) (level : CollapseLevel)
      (hadStoredLevel defaultsApplied : Bool) (x : ViewerState × Finset String),
        (viewer t (loaded collapsed level hadStoredLevel defaultsApplied)).Reachable x →
          StaysExpanded x := by
  intro h
  have hrun : (reloaded.run reloaded.init toggleRun).map
      (fun x => decide ("c" ∈ x.2 ∧ "c" ∈ x.1.collapsed)) = some true := by decide +kernel
  obtain ⟨x, hx, hboth⟩ := map_eq_some_iff.mp hrun
  obtain ⟨hexpanded, hcollapsed⟩ := of_decide_eq_true hboth
  exact h oneContainer {"c"} .three true false x (Lts.reachable_of_run hx) "c" hexpanded hcollapsed

end ViewerState

end Scanopy
