import Scanopy.Graph.EdgeBuilder
import Scanopy.Graph.ElementRules

/-! The view of the applications. Every service with a binding is an element in the box of its
application, or in the box of those that have none. -/

namespace Scanopy.Graph

def ungroupedContainerId : Uuid := 0x40008000000000000001

namespace Inventory
variable (inv : Inventory)

def appTag (tagId : Uuid) : Option Tag :=
  (inv.tags.filter (·.isApplication)).find? fun t => t.id = tagId

def findAppTag (s : Service) : Option Tag :=
  (s.tags.findSome? inv.appTag).or
    ((inv.getHostById s.hostId).bind fun h => h.tags.findSome? inv.appTag)

def eligibleServices : List Service :=
  inv.services.filter fun s =>
    !s.bindings.isEmpty && s.serviceDefinition.category ≠ .openPorts

def servicesByTag : List (Tag × List Service) :=
  Groups.collect (inv.eligibleServices.filterMap fun s => (inv.findAppTag s).map (·, s))

def ungroupedServices : List Service :=
  inv.eligibleServices.filter fun s => (inv.findAppTag s).isNone

def applicationNodes (env : BuildEnv) (tag : Tag) (services : List Service) : List Node :=
  { id := env.newV5 (.applicationTag tag.id)
    nodeType := .container { containerType := .application, entityId := some tag.id }
    header := some tag.name } ::
  services.map fun s =>
    .element s.id (env.newV5 (.applicationTag tag.id)) s.hostId .service (some s.name)

def ungroupedNodes : List Node :=
  if inv.ungroupedServices.isEmpty then []
  else
    { id := ungroupedContainerId
      nodeType := .container { containerType := .applicationUngrouped }
      header := some "Ungrouped" } ::
    inv.ungroupedServices.map fun s =>
      .element s.id ungroupedContainerId s.hostId .service (some s.name)

def resolveApplicationService (n : Node) : Option ElementMatchData :=
  (inv.eligibleServices.find? fun s => s.id = n.id).map fun s => {
    categories := [s.serviceDefinition.category]
    tagIds := s.tags
    elementEntity := .service
    deploymentGroup := s.virtualizationMetadata.bind (·.composeProject) }

def applicationInput (env : BuildEnv) : RuleInput where
  env
  nodes := (env.order.visit .applicationTags inv.servicesByTag).flatMap
    (fun (tag, services) => applicationNodes env tag services) ++ inv.ungroupedNodes
  resolveElement := inv.resolveApplicationService

def applicationMembers (d : Dependency) : List Uuid :=
  match d.members with
  | .services serviceIds => serviceIds
  | .bindings bindingIds => (bindingIds.filterMap inv.bindingToService).foldl pushDistinct []

def hasServiceNode (id : Uuid) : Bool := inv.eligibleServices.any fun s => s.id = id

def applicationDependencyEdges : List Edge :=
  inv.dependencies.flatMap fun d => (serviceEdges d (inv.applicationMembers d)).filter fun edge =>
    inv.hasServiceNode edge.source && inv.hasServiceNode edge.target

def runtimeOverlayEdges : List Edge :=
  inv.services.filterMap fun s => s.virtualizationServiceId.bind fun runtimeServiceId =>
    if inv.hasServiceNode s.id && inv.hasServiceNode runtimeServiceId then some {
      source := runtimeServiceId
      target := s.id
      edgeType := .containerRuntime s.hostId runtimeServiceId [] [s.id]
      label := none }
    else none

def buildApplication (env : BuildEnv) (grouping : GroupingConfig) : List Node × List Edge :=
  (applyStackRuntimeLogos (applyElementRules (inv.applicationInput env) grouping.elementRules).1
      inv.services,
    inv.applicationDependencyEdges ++ inv.runtimeOverlayEdges)

end Inventory

end Scanopy.Graph
