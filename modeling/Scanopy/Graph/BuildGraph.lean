import Scanopy.Graph.ApplicationBuilder
import Scanopy.Graph.L2Builder
import Scanopy.Graph.L3Builder
import Scanopy.Graph.WorkloadsBuilder

/-! The graphs of a request. The entities that the server-side filters hide are taken out first, for
all views together, and every view is built from what is left. -/

namespace Scanopy.Graph

section Filters

inductive FilterApplication
  | client
  | server
  deriving DecidableEq

def TopologyView.all : List TopologyView := [.l2Physical, .l3Logical, .workloads, .application]

def TopologyView.metadataFilters :
    TopologyView → EntityDiscriminants → List (MetadataFilterType × FilterApplication)
  | .l3Logical, .service => [(.category, .client), (.staleness, .client)]
  | .l2Physical, .interface => [(.linkState, .server)]
  | .workloads, .service => [(.category, .client), (.staleness, .client)]
  | .workloads, .host => [(.virtualization, .client), (.staleness, .client)]
  | .application, .service => [(.category, .client), (.staleness, .client)]
  | _, _ => []

def TopologyView.serverFilters (view : TopologyView) (entity : EntityDiscriminants) :
    List MetadataFilterType :=
  ((view.metadataFilters entity).filter fun f => f.2 = .server).map Prod.fst

structure ServerHideSet where
  /-- The values that views hide, once for every view. -/
  hidden : List (MetadataFilterType × String)
  /-- The number of views with such a filter. -/
  renderingViews : ℕ

def ServerHideSet.hides (set : ServerHideSet) (values : List (MetadataFilterType × String)) : Bool :=
  set.renderingViews ≠ 0 && values.any fun value => set.renderingViews ≤ set.hidden.count value

def serverHideSet (options : TopologyRequestOptions) (entity : EntityDiscriminants) :
    ServerHideSet where
  hidden := TopologyView.all.flatMap fun view => (view.serverFilters entity).flatMap fun filter =>
    ((options.hideMetadataValues view entity filter).getD []).map (filter, ·)
  renderingViews := (TopologyView.all.filter fun view => !(view.serverFilters entity).isEmpty).length

inductive InterfaceLinkState
  | linked
  | unlinked
  deriving DecidableEq

def InterfaceLinkState.id : InterfaceLinkState → String
  | linked => "Linked"
  | unlinked => "Unlinked"

def InterfaceLinkState.classify (neighbor : Option Neighbor) (referencedAsNeighbour : Bool) :
    InterfaceLinkState :=
  if neighbor.isSome || referencedAsNeighbour then linked else unlinked

def referencedNeighbourInterfaces (interfaces : List Interface) : List Uuid :=
  interfaces.filterMap fun e => match e.neighbor with
    | some (.interface id) => some id
    | _ => none

def Interface.linkState (referenced : List Uuid) (e : Interface) : InterfaceLinkState :=
  .classify e.neighbor (e.id ∈ referenced)

def Interface.filterValues (referenced : List Uuid) (e : Interface) :
    List (MetadataFilterType × String) := [(.linkState, (e.linkState referenced).id)]

def Host.filterValues (h : Host) : List (MetadataFilterType × String) :=
  [(.virtualization, if h.hasVirtualizationMetadata then "Virtualized" else "BareMetal")]

def Service.filterValues (s : Service) : List (MetadataFilterType × String) :=
  [(.category, s.serviceDefinition.category.id)]

def retainVisible {A : Type} (entities : List A) (set : ServerHideSet)
    (filterValues : A → List (MetadataFilterType × String)) : List A :=
  entities.filter fun a => !set.hides (filterValues a)

def applyServerMetadataFilters (inv : Inventory) (options : TopologyRequestOptions) : Inventory :=
  { inv with
    interfaces := retainVisible inv.interfaces (serverHideSet options .interface)
      (Interface.filterValues (referencedNeighbourInterfaces inv.interfaces))
    hosts := retainVisible inv.hosts (serverHideSet options .host) Host.filterValues
    services := retainVisible inv.services (serverHideSet options .service) Service.filterValues }

end Filters

structure TopologyGraph where
  nodes : List Node
  edges : List Edge

def buildView (env : BuildEnv) (inv : Inventory) (grouping : GroupingConfig) :
    TopologyView → List Node × List Edge
  | .l3Logical => inv.buildL3 env grouping
  | .application => inv.buildApplication env grouping
  | .workloads => inv.buildWorkloads env grouping
  | .l2Physical => inv.buildL2 env grouping

def stampEdge (view : TopologyView) (edge : Edge) : Edge :=
  { edge with
    viewConfig := view.edgeViewConfig edge.edgeType
    relationKey := edge.edgeType.relationKey }

def addEdgesToGraph (nodes : List Node) (edges : List Edge) : List Edge :=
  edges.filter fun edge => nodes.any (fun n => n.id = edge.source) && nodes.any fun n => n.id = edge.target

def buildGraph (env : BuildEnv) (inv : Inventory) (options : TopologyRequestOptions)
    (view : TopologyView) : TopologyGraph :=
  let built := buildView env inv (.fromRequestOptions options view) view
  ⟨built.1, addEdgesToGraph built.1 (built.2.map (stampEdge view))⟩

def topologyRenderData (env : BuildEnv) (inv : Inventory) (options : TopologyRequestOptions)
    (view : TopologyView) : TopologyGraph :=
  buildGraph env (applyServerMetadataFilters inv options) options view

end Scanopy.Graph
