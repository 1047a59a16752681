import Scanopy.Graph.Types
import Scanopy.Lib.Loop
import Scanopy.Viewer.Expansion

/-! The buttons of the ladder. A step skips the levels that would not move the drawn set its way; it
is offered until everything is expanded, or everything that can be collapsed is. -/

namespace Scanopy

open List Option ViewTopology

namespace Graph.ContainerType

def id : ContainerType → String
  | subnet => "Subnet"
  | serviceCategory => "ServiceCategory"
  | application => "Application"
  | applicationUngrouped => "ApplicationUngrouped"
  | root => "Root"
  | host => "Host"
  | nestedTag => "NestedTag"
  | nestedServiceCategory => "NestedServiceCategory"
  | hypervisor => "Hypervisor"
  | containerRuntime => "ContainerRuntime"
  | stack => "Stack"
  | trunkPort => "TrunkPort"
  | vlan => "VLAN"
  | portOpStatus => "PortOpStatus"

def isSubcontainer : ContainerType → Bool
  | nestedTag | nestedServiceCategory | hypervisor | containerRuntime | stack | trunkPort | vlan
  | portOpStatus => true
  | _ => false

/-- `metadata`, as far as the collapse state reads it. -/
def metadata (ct : ContainerType) : ContainerTypeMetadata where
  isCollapsible := true
  collapsedByDefault := ct = .portOpStatus || ct = .applicationUngrouped
  isSubcontainer := ct.isSubcontainer

def all : List ContainerType :=
  [subnet, serviceCategory, application, applicationUngrouped, root, host, nestedTag,
    nestedServiceCategory, hypervisor, containerRuntime, stack, trunkPort, vlan, portOpStatus]

/-- `getMetadata` of the fixture. An unknown type has no metadata, which reads as false. -/
def getMetadata (name : String) : ContainerTypeMetadata :=
  match all.find? fun ct => ct.id = name with
  | some ct => ct.metadata
  | none => ⟨false, false, false⟩

theorem isCollapsible_getMetadata (ct : ContainerType) : (getMetadata ct.id).isCollapsible = true := by
  cases ct <;> rfl

end Graph.ContainerType

/-- A topology as the server sends it. The type of a container is one of the enumeration. -/
structure ServedTopology where
  id : String
  nodes : List ViewNode
  infraRuleId : Option String
  typed : ∀ n ∈ nodes, ∀ name ∈ n.containerType, ∃ ct : Graph.ContainerType, ct.id = name

def ServedTopology.view (t : ServedTopology) : ViewTopology :=
  ⟨t.id, t.nodes, t.infraRuleId, Graph.ContainerType.getMetadata⟩

namespace ViewTopology
variable {t : ViewTopology} {S : Finset String}
variable {level : CollapseLevel}

theorem computeCollapsedForLevel_subset (level : CollapseLevel) :
    t.computeCollapsedForLevel level ⊆ t.containerIds := by
  intro id hid
  cases level with
  | four => exact absurd hid (Finset.notMem_empty _)
  | _ => exact mem_containerIds_of_mem_idsWhere hid

theorem computeCollapsedForLevel_ssubset
    (h : t.nextEffectiveLevel S .expand = some level) : t.computeCollapsedForLevel level ⊂ S := by
  have hmoves := find?_some h
  exact of_decide_eq_true hmoves

theorem ssubset_computeCollapsedForLevel
    (h : t.nextEffectiveLevel S .collapse = some level) : S ⊂ t.computeCollapsedForLevel level := by
  have hmoves := find?_some h
  exact of_decide_eq_true hmoves

theorem isSome_nextEffectiveLevel_expand :
    (t.nextEffectiveLevel S .expand).isSome ↔ S ≠ ∅ := by
  constructor
  · intro h
    obtain ⟨level, hlevel⟩ := isSome_iff_exists.mp h
    rintro rfl
    exact Finset.not_ssubset_empty _ (computeCollapsedForLevel_ssubset hlevel)
  · intro hne
    have hlast : CollapseLevel.four ∈ levelsFrom .expand (t.inferCurrentLevel S) := by
      have hfour : t.inferCurrentLevel S ≠ .four := inferCurrentLevel_eq_four.not.mpr hne
      cases hlevel : t.inferCurrentLevel S with
      | four => exact absurd hlevel hfour
      | _ => simp [levelsFrom]
    have hmoves : t.computeCollapsedForLevel .four ⊂ S :=
      Finset.empty_ssubset.mpr (Finset.nonempty_iff_ne_empty.mpr hne)
    exact find?_isSome.mpr ⟨.four, hlast, decide_eq_true hmoves⟩

theorem subset_of_inferCurrentLevel_eq_one (h : t.inferCurrentLevel S = .one) :
    t.computeCollapsedForLevel .one ⊆ S := by
  unfold inferCurrentLevel at h
  split at h
  · rename_i l hl
    have hS := find?_some hl
    rw [of_decide_eq_true hS, h]
  · split_ifs at h with hempty hall
    intro id hid
    obtain ⟨n, hn, -, rfl⟩ := mem_idsWhere.mp hid
    exact of_decide_eq_true (List.all_eq_true.mp hall n hn)

theorem isSome_nextEffectiveLevel_collapse (hall : ∀ n ∈ t.containers, t.isCollapsible n = true)
    (hS : S ⊆ t.containerIds) : (t.nextEffectiveLevel S .collapse).isSome ↔
      ∃ n ∈ t.containers, t.isCollapsible n = true ∧ n.id ∉ S := by
  have hone : t.computeCollapsedForLevel .one = t.containerIds := by
    refine (computeCollapsedForLevel_subset _).antisymm fun id hid => ?_
    obtain ⟨n, hn, -, rfl⟩ := mem_idsWhere.mp hid
    exact mem_idsWhere.mpr ⟨n, hn, hall n hn, rfl⟩
  constructor
  · intro h
    obtain ⟨level, hlevel⟩ := isSome_iff_exists.mp h
    obtain ⟨id, hid, hopen⟩ := Finset.exists_of_ssubset (ssubset_computeCollapsedForLevel hlevel)
    obtain ⟨n, hn, -, rfl⟩ := mem_idsWhere.mp (computeCollapsedForLevel_subset _ hid)
    exact ⟨n, hn, hall n hn, hopen⟩
  · rintro ⟨n, hn, hcollapsible, hopen⟩
    have hmem : n.id ∈ t.computeCollapsedForLevel .one := mem_idsWhere.mpr ⟨n, hn, hcollapsible, rfl⟩
    have hlast : CollapseLevel.one ∈ levelsFrom .collapse (t.inferCurrentLevel S) := by
      cases hlevel : t.inferCurrentLevel S with
      | one => exact absurd (subset_of_inferCurrentLevel_eq_one hlevel hmem) hopen
      | _ => simp [levelsFrom]
    have hmoves : S ⊂ t.computeCollapsedForLevel .one := by
      rw [hone] at hmem ⊢
      exact Finset.ssubset_iff_subset_ne.mpr ⟨hS, fun heq => hopen (heq ▸ hmem)⟩
    exact find?_isSome.mpr ⟨.one, hlast, decide_eq_true hmoves⟩

end ViewTopology

namespace ViewerState
variable {t : ViewTopology} {s s' : ViewerState} {direction : ViewTopology.StepDirection}

def press (t : ViewTopology) (direction : ViewTopology.StepDirection) (s : ViewerState) :
    ViewerState ⊕ ViewerState :=
  if (t.nextEffectiveLevel s.collapsed direction).isSome then .inl (s.stepLevel t direction)
  else .inr s

structure LadderProgresses (t : ViewTopology) (s : ViewerState) : Prop where
  expand_available : (t.nextEffectiveLevel s.collapsed .expand).isSome ↔ s.collapsed ≠ ∅
  expand_smaller : (t.nextEffectiveLevel s.collapsed .expand).isSome →
    (s.stepLevel t .expand).collapsed ⊂ s.collapsed
  collapse_available : (t.nextEffectiveLevel s.collapsed .collapse).isSome ↔
    ∃ n ∈ t.containers, t.isCollapsible n = true ∧ n.id ∉ s.collapsed
  collapse_larger : (t.nextEffectiveLevel s.collapsed .collapse).isSome →
    s.collapsed ⊂ (s.stepLevel t .collapse).collapsed
  fully_expanded : ∃ presses s', Loop.run (press t .expand) presses s = some s' ∧ s'.collapsed = ∅
  fully_collapsed : ∃ presses s', Loop.run (press t .collapse) presses s = some s' ∧
    s'.collapsed = t.containerIds

theorem stepLevel_collapsed {level : CollapseLevel}
    (h : t.nextEffectiveLevel s.collapsed direction = some level) :
    (s.stepLevel t direction).collapsed = t.computeCollapsedForLevel level := by
  unfold stepLevel
  rw [h]

theorem stepLevel_expand_ssubset (h : (t.nextEffectiveLevel s.collapsed .expand).isSome) :
    (s.stepLevel t .expand).collapsed ⊂ s.collapsed := by
  obtain ⟨level, hlevel⟩ := isSome_iff_exists.mp h
  rw [stepLevel_collapsed hlevel]
  exact computeCollapsedForLevel_ssubset hlevel

theorem ssubset_stepLevel_collapse (h : (t.nextEffectiveLevel s.collapsed .collapse).isSome) :
    s.collapsed ⊂ (s.stepLevel t .collapse).collapsed := by
  obtain ⟨level, hlevel⟩ := isSome_iff_exists.mp h
  rw [stepLevel_collapsed hlevel]
  exact ssubset_computeCollapsedForLevel hlevel

theorem stepLevel_subset (h : (t.nextEffectiveLevel s.collapsed direction).isSome) :
    (s.stepLevel t direction).collapsed ⊆ t.containerIds := by
  obtain ⟨level, hlevel⟩ := isSome_iff_exists.mp h
  rw [stepLevel_collapsed hlevel]
  exact computeCollapsedForLevel_subset level

theorem press_eq_inl : press t direction s = .inl s' ↔
    (t.nextEffectiveLevel s.collapsed direction).isSome ∧ s.stepLevel t direction = s' := by
  unfold press
  split_ifs with h <;> simp [h]

theorem press_eq_inr : press t direction s = .inr s' ↔
    ¬(t.nextEffectiveLevel s.collapsed direction).isSome ∧ s = s' := by
  unfold press
  split_ifs with h <;> simp [h]

theorem exists_run_press (direction : ViewTopology.StepDirection) (measure : ViewerState → ℕ)
    (hS : s.collapsed ⊆ t.containerIds) (hmoves : ∀ s : ViewerState, s.collapsed ⊆ t.containerIds →
      (t.nextEffectiveLevel s.collapsed direction).isSome →
        measure (s.stepLevel t direction) < measure s) :
    ∃ presses s', Loop.run (press t direction) presses s = some s' ∧
      s'.collapsed ⊆ t.containerIds ∧ ¬(t.nextEffectiveLevel s'.collapsed direction).isSome := by
  have hturn : ∀ s s' : ViewerState, s.collapsed ⊆ t.containerIds → press t direction s = .inl s' →
      s'.collapsed ⊆ t.containerIds ∧ measure s' < measure s := by
    intro s s' hs hpress
    obtain ⟨havailable, rfl⟩ := press_eq_inl.mp hpress
    exact ⟨stepLevel_subset havailable, hmoves s hs havailable⟩
  obtain ⟨s', hrun⟩ := Loop.exists_run_of_measure hturn hS (Nat.lt_succ_self (measure s))
  have hends : ∀ s s' : ViewerState, s.collapsed ⊆ t.containerIds → press t direction s = .inr s' →
      s'.collapsed ⊆ t.containerIds ∧ ¬(t.nextEffectiveLevel s'.collapsed direction).isSome := by
    intro s s' hs hpress
    obtain ⟨hdone, rfl⟩ := press_eq_inr.mp hpress
    exact ⟨hs, hdone⟩
  exact ⟨_, s', hrun, Loop.invariant_of_run (fun s s' hs h => (hturn s s' hs h).1) hends hS hrun⟩

theorem exists_run_expand (hS : s.collapsed ⊆ t.containerIds) :
    ∃ presses s', Loop.run (press t .expand) presses s = some s' ∧ s'.collapsed = ∅ := by
  obtain ⟨presses, s', hrun, -, hdone⟩ := exists_run_press .expand (fun s => s.collapsed.card) hS
    fun s _ h => Finset.card_lt_card (stepLevel_expand_ssubset h)
  have hempty := isSome_nextEffectiveLevel_expand.not.mp hdone
  exact ⟨presses, s', hrun, not_not.mp hempty⟩

theorem exists_run_collapse (hall : ∀ n ∈ t.containers, t.isCollapsible n = true)
    (hS : s.collapsed ⊆ t.containerIds) : ∃ presses s',
      Loop.run (press t .collapse) presses s = some s' ∧ s'.collapsed = t.containerIds := by
  obtain ⟨presses, s', hrun, hsub, hdone⟩ := exists_run_press .collapse
    (fun s => t.containerIds.card - s.collapsed.card) hS fun s hs h => by
      have hlarger := Finset.card_lt_card (ssubset_stepLevel_collapse h)
      have hbound := Finset.card_le_card (stepLevel_subset h)
      omega
  refine ⟨presses, s', hrun, hsub.antisymm fun id hid => ?_⟩
  obtain ⟨n, hn, -, rfl⟩ := mem_idsWhere.mp hid
  have hfull := (isSome_nextEffectiveLevel_collapse hall hsub).not.mp hdone
  exact not_not.mp fun hopen => hfull ⟨n, hn, hall n hn, hopen⟩

end ViewerState

namespace ServedTopology

theorem isCollapsible (t : ServedTopology) : ∀ n ∈ t.view.containers, t.view.isCollapsible n = true := by
  intro n hn
  have hn := (mem_filter.mp hn).1
  show (Graph.ContainerType.getMetadata (n.containerType.getD "Subnet")).isCollapsible = true
  cases hname : n.containerType with
  | none => exact Graph.ContainerType.isCollapsible_getMetadata .subnet
  | some name =>
    obtain ⟨ct, rfl⟩ := t.typed n hn name hname
    exact ct.isCollapsible_getMetadata

theorem ladderProgresses (t : ServedTopology) (s : ViewerState)
    (hS : s.collapsed ⊆ t.view.containerIds) : s.LadderProgresses t.view where
  expand_available := isSome_nextEffectiveLevel_expand
  expand_smaller := ViewerState.stepLevel_expand_ssubset
  collapse_available := isSome_nextEffectiveLevel_collapse t.isCollapsible hS
  collapse_larger := ViewerState.ssubset_stepLevel_collapse
  fully_expanded := ViewerState.exists_run_expand hS
  fully_collapsed := ViewerState.exists_run_collapse t.isCollapsible hS

def office : ServedTopology where
  id := "office"
  nodes := [⟨"lan", .container, none, some "Subnet", none⟩, ⟨"dmz", .container, none, none, none⟩,
    ⟨"printers", .container, some "lan", some "NestedTag", none⟩]
  infraRuleId := none
  typed := by
    intro n hn name hname
    rcases List.mem_cons.mp hn with rfl | hn
    · exact ⟨.subnet, Option.some.inj hname⟩
    · rcases List.mem_cons.mp hn with rfl | hn
      · exact absurd hname nofun
      · obtain rfl := List.mem_singleton.mp hn
        exact ⟨.nestedTag, Option.some.inj hname⟩

/-- One subnet was closed by hand, which is the set of no level. -/
theorem ladderProgresses_office :
    (ViewerState.loaded {"lan"} .three true true).LadderProgresses office.view :=
  ladderProgresses office (.loaded {"lan"} .three true true) (by decide +kernel)

end ServedTopology

end Scanopy
