import Scanopy.Lib.Ancestry
import Scanopy.Lib.Groups
import Scanopy.Viewer.Collapse

/-! The edges that the viewer draws: lifted to the containers that take them, aggregated at
collapsed containers, and bundled between the same two containers. -/

namespace Scanopy

inductive EdgeTypeDiscriminant
  | sameHost
  | hypervisor
  | containerRuntime
  | sameContainer
  | requestPath
  | hubAndSpoke
  | physicalLink
  | neighborLink
  deriving DecidableEq

inductive EdgeViewConfig
  | disabled
  | active (willTargetContainer : Bool)
  deriving DecidableEq

structure ViewEdge where
  id : String
  source : String
  target : String
  edgeType : EdgeTypeDiscriminant
  label : Option String := none
  viewConfig : Option EdgeViewConfig
  relationKey : Option String := none
  deriving DecidableEq

namespace ViewEdge
variable (e : ViewEdge)

def getViewConfig : EdgeViewConfig := e.viewConfig.getD .disabled

def isDisabledEdge : Bool := e.getViewConfig = .disabled

def willTargetContainer : Bool := e.getViewConfig = .active true

end ViewEdge

def parentIn (nodes : List ViewNode) (id : String) : Option String :=
  (nodes.find? fun n => n.id = id).bind (·.parentId)

def elementToContainer (nodes : List ViewNode) (id : String) : Option String :=
  (nodes.find? fun n => n.id = id).bind fun n =>
    match n.nodeType with
    | .element => n.parentId
    | .container => some n.id

def resolveCollapsedAncestor (collapsed : Finset String) (nodes : List ViewNode) (nodeId : String) :
    Option String :=
  Ancestry.outermost (parentIn nodes) (· ∈ collapsed) (nodes.map (·.id)) nodeId

section Filter

def pruneEmptySubcontainers (t : ViewTopology) (layoutNodes : List ViewNode) : List ViewNode :=
  layoutNodes.filter fun n =>
    !(n.isContainer && (t.containerTypes (n.containerType.getD "Subnet")).isSubcontainer &&
      !layoutNodes.any fun child => child.nodeType = .element && child.parentId = some n.id)

end Filter

section Elevation
variable (acceptsEdges : Finset String) (nodes : List ViewNode)

def elevationMap (id : String) : Option String :=
  ((nodes.find? fun n => n.nodeType = .element && n.id = id).bind (·.parentId)).bind fun container =>
    let containers := nodes.filter ViewNode.isContainer
    Ancestry.outermost (parentIn containers)
      (fun c => (∃ n ∈ containers, n.id = c) ∧ c ∈ acceptsEdges) (containers.map (·.id)) container

def elevateEdge (edge : ViewEdge) : Option ViewEdge :=
  if !edge.willTargetContainer then some edge
  else
    let source := (elevationMap acceptsEdges nodes edge.source).getD edge.source
    let target := (elevationMap acceptsEdges nodes edge.target).getD edge.target
    if source = target then none else some { edge with source, target }

def elevateEdgesToContainers (edges : List ViewEdge) : List ViewEdge :=
  if nodes.all fun n => (elevationMap acceptsEdges nodes n.id).isNone then edges
  else edges.filterMap (elevateEdge acceptsEdges nodes)

end Elevation

/-- The ids that the drawing gives out: `edge-0`, …, and `collapsed-edge-0`, …. -/
inductive FlowEdgeId
  | edge (index : ℕ)
  | collapsedEdge (index : ℕ)
  deriving DecidableEq

structure AggregatedEdge where
  id : FlowEdgeId
  source : String
  target : String
  count : ℕ
  originalEdges : List ViewEdge

/-- An id from each of two, in the order that does not depend on the direction. -/
def sortedPair (a b : String) : String × String := if a < b then (a, b) else (b, a)

section Collapse
variable (collapsed : Finset String) (nodes : List ViewNode)

def collapsedEndpoint (id : String) : String :=
  (resolveCollapsedAncestor collapsed nodes id).getD id

def isRemapped (edge : ViewEdge) : Bool :=
  ((resolveCollapsedAncestor collapsed nodes edge.source).isSome ||
      (resolveCollapsedAncestor collapsed nodes edge.target).isSome) &&
    collapsedEndpoint collapsed nodes edge.source ≠ collapsedEndpoint collapsed nodes edge.target

def aggregateKey (edge : ViewEdge) : String × String :=
  sortedPair (collapsedEndpoint collapsed nodes edge.source)
    (collapsedEndpoint collapsed nodes edge.target)

def collapsedGroups (edges : List ViewEdge) (hiddenEdgeTypes : List EdgeTypeDiscriminant) :
    List ((String × String) × List ViewEdge) :=
  let groups := Groups.groupOn (aggregateKey collapsed nodes)
    (edges.filter (isRemapped collapsed nodes))
  let visible := groups.map fun g => (g.1, g.2.filter fun e => e.edgeType ∉ hiddenEdgeTypes)
  visible.filter fun g => !g.2.isEmpty

def computeCollapsedEdges (edges : List ViewEdge) (hiddenEdgeTypes : List EdgeTypeDiscriminant) :
    List AggregatedEdge :=
  if collapsed = ∅ then []
  else
    (collapsedGroups collapsed nodes edges hiddenEdgeTypes).mapIdx fun idx g =>
      ⟨.collapsedEdge idx, g.1.1, g.1.2, g.2.length, g.2⟩

end Collapse

structure BundleKey where
  containerIds : String × String
  edgeType : EdgeTypeDiscriminant
  relationKey : Option String
  deriving DecidableEq

structure BundledEdge where
  id : BundleKey
  containerIds : String × String
  edges : List ViewEdge
  count : ℕ
  source : String
  target : String
  edgeType : EdgeTypeDiscriminant

section Bundles
variable (toContainer : String → Option String)

def isBundled (edge : ViewEdge) : Bool :=
  match toContainer edge.source, toContainer edge.target with
  | some sourceContainer, some targetContainer => sourceContainer ≠ targetContainer
  | _, _ => false

def containerPair (edge : ViewEdge) : String × String :=
  sortedPair ((toContainer edge.source).getD edge.source)
    ((toContainer edge.target).getD edge.target)

def bundleKey (edge : ViewEdge) : BundleKey :=
  ⟨containerPair toContainer edge, edge.edgeType, edge.relationKey⟩

def bundleOf (key : BundleKey) : List ViewEdge → Option BundledEdge
  | first :: second :: rest => some {
      id := key
      containerIds := containerPair toContainer first
      edges := first :: second :: rest
      count := rest.length + 2
      source := first.source
      target := first.target
      edgeType := first.edgeType }
  | _ => none

def bundleGroups (edges : List ViewEdge) : List (BundleKey × List ViewEdge) :=
  Groups.groupOn (bundleKey toContainer) (edges.filter (isBundled toContainer))

/-- `bundleEdges`: the bundles, and the edges that are in none. -/
def bundleEdges (edges : List ViewEdge) : List BundledEdge × List ViewEdge :=
  ((bundleGroups toContainer edges).filterMap fun g => bundleOf toContainer g.1 g.2,
    edges.filter (fun e => !isBundled toContainer e) ++
      (bundleGroups toContainer edges).flatMap fun g => if g.2.length < 2 then g.2 else [])

end Bundles

inductive FlowEdgeKind
  | plain
  | fanned (bundleId : BundleKey) (fanIndex fanTotal : ℕ)
  | bundle (bundleId : BundleKey) (bundleCount : ℕ) (bundleEdges : List ViewEdge)
  | aggregated (aggregatedCount : ℕ)

structure FlowEdge where
  id : FlowEdgeId
  source : String
  target : String
  label : Option String
  edgeIndex : ℕ
  /-- The edge whose fields are spread into the data. -/
  edge : Option ViewEdge
  kind : FlowEdgeKind

def createFlowEdge (edge : ViewEdge) (kind : FlowEdgeKind) (index : ℕ) : FlowEdge where
  id := .edge index
  source := edge.source
  target := edge.target
  label := edge.label
  edgeIndex := index
  edge := some edge
  kind

def createAggregatedFlowEdge (index : ℕ) (agg : AggregatedEdge) : FlowEdge where
  id := agg.id
  source := agg.source
  target := agg.target
  label := none
  edgeIndex := 1000 + index
  edge := agg.originalEdges.head?.map fun e => { e with source := agg.source, target := agg.target }
  kind := .aggregated agg.count

def drawBundle (expandedBundles : Finset BundleKey) (b : BundledEdge) :
    List (ViewEdge × FlowEdgeKind) :=
  if b.id ∈ expandedBundles then
    b.edges.mapIdx fun i edge => (edge, .fanned b.id i b.edges.length)
  else
    match b.edges with
    | [] => []
    | representative :: _ => [(representative, .bundle b.id b.count b.edges)]

structure BuildFlowEdgesParams where
  elevatedEdges : List ViewEdge
  collapsed : Finset String
  aggregatedEdges : List AggregatedEdge
  hiddenEdgeTypes : List EdgeTypeDiscriminant
  layoutNodes : List ViewNode
  bundleEnabled : Bool
  currentExpandedBundles : Finset BundleKey

structure BuildFlowEdgesResult where
  flowEdges : List FlowEdge
  originalsMap : List (FlowEdgeId × List ViewEdge)

namespace BuildFlowEdgesParams
variable (params : BuildFlowEdgesParams)

def inCollapsed (id : String) : Bool :=
  (elementToContainer params.layoutNodes id).any (· ∈ params.collapsed)

def aggregates : Bool := params.collapsed ≠ ∅ && !params.aggregatedEdges.isEmpty

def baseEdges : List ViewEdge :=
  if params.aggregates then
    params.elevatedEdges.filter fun e =>
      !params.inCollapsed e.source && !params.inCollapsed e.target
  else params.elevatedEdges

def nonDisabledEdges : List ViewEdge := params.baseEdges.filter fun e => !e.isDisabledEdge

def getRootContainer (id : String) : String :=
  let current := (elementToContainer params.layoutNodes id).getD id
  let containers := params.layoutNodes.filter ViewNode.isContainer
  (Ancestry.outermost (parentIn containers) (fun _ => True) (containers.map (·.id)) current).getD
    current

def stripLabel (e : ViewEdge) : ViewEdge :=
  if params.getRootContainer e.source = params.getRootContainer e.target ∧
      e.label.any (· ≠ "") then { e with label := none }
  else e

def visibleEdges : List ViewEdge :=
  ((params.nonDisabledEdges.filter fun e => e.edgeType ∉ params.hiddenEdgeTypes).filter fun e =>
    e.source ≠ e.target).map params.stripLabel

def hiddenEdges : List ViewEdge :=
  params.nonDisabledEdges.filter fun e => e.edgeType ∈ params.hiddenEdgeTypes

def drawnEdges : List (ViewEdge × FlowEdgeKind) :=
  if params.bundleEnabled then
    let (bundles, unbundled) := bundleEdges (elementToContainer params.layoutNodes) params.visibleEdges
    unbundled.map (·, .plain) ++ bundles.flatMap (drawBundle params.currentExpandedBundles)
  else params.visibleEdges.map (·, .plain)

def extraFlowEdges : List FlowEdge :=
  if params.aggregates then params.aggregatedEdges.mapIdx createAggregatedFlowEdge else []

def buildFlowEdges : BuildFlowEdgesResult where
  flowEdges :=
    (params.drawnEdges ++ params.hiddenEdges.map fun e => (e, FlowEdgeKind.plain)).mapIdx
        (fun index (edge, kind) => createFlowEdge edge kind index) ++
      params.extraFlowEdges
  originalsMap :=
    if params.aggregates then params.aggregatedEdges.map fun agg => (agg.id, agg.originalEdges)
    else []

end BuildFlowEdgesParams

/-- What a drawing starts from. The nodes of a view are a forest with distinct ids, and every edge
has an id of its own. -/
structure FlowInput where
  topology : ViewTopology
  edges : List ViewEdge
  /-- The containers that take the edges of what is in them. -/
  acceptsEdges : Finset String := ∅
  hiddenByFilter : Finset String := ∅
  collapsed : Finset String
  hiddenEdgeTypes : List EdgeTypeDiscriminant := []
  bundleEnabled : Bool := false
  currentExpandedBundles : Finset BundleKey := ∅
  nodup : (topology.nodes.map (·.id)).Nodup
  acyclic : Ancestry.Acyclic (parentIn topology.nodes)
  edges_nodup : (edges.map (·.id)).Nodup

namespace FlowInput
variable (input : FlowInput)

def layoutNodes : List ViewNode :=
  pruneEmptySubcontainers input.topology
    (input.topology.nodes.filter fun n => n.id ∉ input.hiddenByFilter)

def elevatedEdges : List ViewEdge :=
  (elevateEdgesToContainers input.acceptsEdges input.layoutNodes input.edges).filter fun e =>
    e.source ∉ input.hiddenByFilter && e.target ∉ input.hiddenByFilter

def aggregatedEdges : List AggregatedEdge :=
  computeCollapsedEdges input.collapsed input.topology.nodes input.elevatedEdges
    input.hiddenEdgeTypes

def params : BuildFlowEdgesParams where
  elevatedEdges := input.elevatedEdges
  collapsed := input.collapsed
  aggregatedEdges := input.aggregatedEdges
  hiddenEdgeTypes := input.hiddenEdgeTypes
  layoutNodes := input.layoutNodes
  bundleEnabled := input.bundleEnabled
  currentExpandedBundles := input.currentExpandedBundles

def drawing : BuildFlowEdgesResult := input.params.buildFlowEdges

end FlowInput

end Scanopy
