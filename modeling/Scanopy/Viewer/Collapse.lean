import Mathlib.Data.Finset.Union
import Scanopy.Lib.Lts

/-! The collapse state of the topology viewer: the ladder of levels, the user's toggles, and what
the preparation of a layout does. The record of containers that collapsed on their own does not
outlive the page. -/

namespace Scanopy

inductive ViewNodeType
  | container
  | element
  deriving DecidableEq

/-- A node of a view. `parentId` is the container of an element and the parent of a container. -/
structure ViewNode where
  id : String
  nodeType : ViewNodeType
  parentId : Option String := none
  containerType : Option String := none
  elementRuleId : Option String := none
  deriving DecidableEq

structure ContainerTypeMetadata where
  isCollapsible : Bool
  collapsedByDefault : Bool
  isSubcontainer : Bool

structure ViewTopology where
  id : String
  nodes : List ViewNode
  infraRuleId : Option String
  containerTypes : String → ContainerTypeMetadata

inductive CollapseLevel
  | one
  | two
  | three
  | four
  deriving DecidableEq

def ViewNode.isContainer (n : ViewNode) : Bool := n.nodeType = .container

namespace ViewTopology
variable (t : ViewTopology)

def containers : List ViewNode := t.nodes.filter ViewNode.isContainer

def idsWhere (p : ViewNode → Bool) : Finset String := ((t.containers.filter p).map (·.id)).toFinset

def containerIds : Finset String := t.idsWhere fun _ => true

def isAutoCollapseContainer (n : ViewNode) : Bool :=
  n.isContainer &&
    (n.containerType.any (fun ct => (t.containerTypes ct).collapsedByDefault) ||
      t.infraRuleId.any fun rule => n.elementRuleId = some rule)

def scaleCollapseElements : ℕ := 300

def isScaleCollapsed : Bool :=
  scaleCollapseElements ≤ (t.nodes.filter fun n => n.nodeType = .element).length

def isCollapsible (n : ViewNode) : Bool :=
  (t.containerTypes (n.containerType.getD "Subnet")).isCollapsible

def scaleCollapseCandidates (ignoreThreshold : Bool := false) : Finset String :=
  if !ignoreThreshold && !t.isScaleCollapsed then ∅ else t.idsWhere t.isCollapsible

def computeCollapsedForLevel : CollapseLevel → Finset String
  | .one => t.scaleCollapseCandidates true
  | .two => t.idsWhere fun n =>
    n.containerType.any (fun ct => (t.containerTypes ct).isSubcontainer) ||
      t.isAutoCollapseContainer n
  | .three => t.idsWhere t.isAutoCollapseContainer
  | .four => ∅

/-- The most expanded level with this set, or the closest one. -/
def inferCurrentLevel (collapsed : Finset String) : CollapseLevel :=
  match [.four, .three, .two, .one].find? fun l => collapsed = t.computeCollapsedForLevel l with
  | some l => l
  | none =>
    if collapsed = ∅ then .four
    else if t.containers.all fun n => n.id ∈ collapsed then .one
    else .three

def getAutoCollapseIds : Finset String := t.idsWhere t.isAutoCollapseContainer

inductive StepDirection
  | collapse
  | expand
  deriving DecidableEq

def levelsFrom : StepDirection → CollapseLevel → List CollapseLevel
  | .collapse, .one => []
  | .collapse, .two => [.one]
  | .collapse, .three => [.two, .one]
  | .collapse, .four => [.three, .two, .one]
  | .expand, .one => [.two, .three, .four]
  | .expand, .two => [.three, .four]
  | .expand, .three => [.four]
  | .expand, .four => []

def nextEffectiveLevel (rendered : Finset String) (direction : StepDirection) :
    Option CollapseLevel :=
  (levelsFrom direction (t.inferCurrentLevel rendered)).find? fun level =>
    match direction with
    | .collapse => rendered ⊂ t.computeCollapsedForLevel level
    | .expand => t.computeCollapsedForLevel level ⊂ rendered

/-- The candidates of any kind that a level leaves open. -/
def autoCollapseCandidatesLeftExpanded (collapsed : Finset String) : Finset String :=
  (t.scaleCollapseCandidates true ∪ t.getAutoCollapseIds) \ collapsed

def autoCollapseCandidates : Finset String :=
  t.idsWhere fun n => n.id ∈ t.scaleCollapseCandidates || t.isAutoCollapseContainer n

/-- The container and the containers right below it. -/
def withChildren (id : String) : Finset String :=
  insert id (t.idsWhere fun n => n.parentId = some id)

end ViewTopology

structure DrawnGraph where
  containers : List ViewNode
  collapsed : Finset String

structure ViewerState where
  /-- The two stores that are kept by the browser. -/
  collapsed : Finset String
  level : CollapseLevel
  /-- Whether a level was stored when the page was loaded. -/
  hadStoredLevel : Bool
  defaultsApplied : Bool
  seenAutoCollapseIds : Finset String := ∅
  collapseLevelInferred : Bool := false
  collapseLevelReconciled : Bool := false
  lastSeenTopologyId : String := ""
  layoutGraph : Option DrawnGraph := none

/-- What a preparation takes from elsewhere: whether the view or the structure has changed, the
nodes that the filters leave, whether the graph is built anew, whether the collapse waits for a first
layout, and the containers that have no size yet. -/
structure PrepareInput where
  viewChanged : Bool := false
  topologyChanged : Bool
  layoutNodes : List ViewNode
  isNewBaseStructure : Bool
  deferCollapse : Bool
  unsized : Finset String

namespace ViewerState
variable (t : ViewTopology)

/-- `toggleCollapse`: the children follow. -/
def toggleCollapse (s : ViewerState) (id : String) : ViewerState :=
  if id ∈ s.collapsed then { s with collapsed := s.collapsed \ t.withChildren id }
  else { s with collapsed := s.collapsed ∪ t.withChildren id }

/-- `stepExpand` and `stepCollapse`. What the new level leaves open is marked before the stores are
written. -/
def stepLevel (s : ViewerState) (direction : ViewTopology.StepDirection) : ViewerState :=
  match t.nextEffectiveLevel s.collapsed direction with
  | none => s
  | some level =>
    let collapsed := t.computeCollapsedForLevel level
    { s with
      seenAutoCollapseIds :=
        s.seenAutoCollapseIds ∪ t.autoCollapseCandidatesLeftExpanded collapsed
      collapsed
      level }

def dropSeen (s : ViewerState) (input : PrepareInput) : ViewerState :=
  if input.topologyChanged then
    { s with seenAutoCollapseIds := s.seenAutoCollapseIds ∩ t.containerIds }
  else s

def stripCollapsed (s : ViewerState) : ViewerState :=
  { s with collapsed := s.collapsed ∩ t.containerIds }

/-- The first preparation applies the default level in a fresh session, and infers the level from
the stored set in any other. -/
def seedCollapse (s : ViewerState) : ViewerState :=
  if s.collapseLevelInferred then s
  else if !s.defaultsApplied && !s.hadStoredLevel then
    { s with
      collapseLevelInferred := true
      collapsed := t.computeCollapsedForLevel s.level
      defaultsApplied := true }
  else
    { s with
      collapseLevelInferred := true
      level := t.inferCurrentLevel s.collapsed
      defaultsApplied := true }

def applyLevelOnViewSwitch (s : ViewerState) (input : PrepareInput) : ViewerState :=
  if input.viewChanged && input.topologyChanged && s.collapseLevelInferred then
    let level := if t.isScaleCollapsed then .one else s.level
    { s with collapsed := t.computeCollapsedForLevel level, level }
  else s

/-- Another topology: the records start anew, and an overview stays one. -/
def switchTopology (s : ViewerState) : ViewerState :=
  if t.id ≠ s.lastSeenTopologyId ∧ s.lastSeenTopologyId ≠ "" then
    let s := { s with
      seenAutoCollapseIds := ∅
      collapseLevelInferred := false
      collapseLevelReconciled := false }
    let wasFullyCollapsed := s.collapsed ≠ ∅ ∧ s.layoutGraph.any fun g =>
      let roots := g.containers.filter fun n => !g.containers.any fun p => n.parentId = some p.id
      !roots.isEmpty && roots.all fun n => n.id ∈ s.collapsed
    if wasFullyCollapsed then { s with collapsed := t.containerIds, level := .one }
    else s.stripCollapsed t
  else s

def applyAutoCollapse (s : ViewerState) : ViewerState :=
  let userExplicitlyExpandedAll := s.level = .four ∧ s.collapseLevelInferred
  let autoCollapseIds := if userExplicitlyExpandedAll then ∅
    else (t.autoCollapseCandidates \ s.collapsed) \ s.seenAutoCollapseIds
  let next := s.collapsed ∪ autoCollapseIds
  { s with
    seenAutoCollapseIds := s.seenAutoCollapseIds ∪ autoCollapseIds
    collapsed := next
    collapseLevelReconciled := true
    level := if s.collapseLevelReconciled then s.level else t.inferCurrentLevel next }

def syncGraph (s : ViewerState) (input : PrepareInput) : ViewerState :=
  let graph := match s.layoutGraph, input.isNewBaseStructure with
    | some g, false => g
    | _, _ => ⟨input.layoutNodes.filter ViewNode.isContainer, ∅⟩
  if input.deferCollapse then { s with layoutGraph := some graph }
  else
    let ids := (graph.containers.map (·.id)).toFinset
    let collapsed := s.collapsed ∩ ids
    let unsized := graph.containers.filter fun n => n.id ∉ collapsed && n.id ∈ input.unsized &&
      input.layoutNodes.any fun child => child.parentId = some n.id
    { s with
      layoutGraph := some { graph with collapsed }
      seenAutoCollapseIds := if collapsed = graph.collapsed then s.seenAutoCollapseIds
        else s.seenAutoCollapseIds ∪ (unsized.map (·.id)).toFinset }

/-- `prepareTopologyData`, as far as it reads and writes the collapse state. A view that has changed
before its nodes leaves the rest undone. -/
def prepareTopologyData (s : ViewerState) (input : PrepareInput) : ViewerState :=
  let s := s.dropSeen t input
  if input.viewChanged && !input.topologyChanged then s
  else
    let s := (((s.stripCollapsed t).seedCollapse t).applyLevelOnViewSwitch t input).switchTopology t
    ({ s with lastSeenTopologyId := t.id }.applyAutoCollapse t).syncGraph input

end ViewerState

end Scanopy
