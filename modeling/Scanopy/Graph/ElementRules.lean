import Scanopy.Graph.Types
import Scanopy.Lib.Groups
import Scanopy.Lib.Inserts

/-! The element rules. A rule puts elements into subcontainers that it makes, which the rules after
it leave there, or shows services on the node of their host instead. -/

namespace Scanopy.Graph

structure ElementMatchData where
  categories : List ServiceCategory := []
  tagIds : List Uuid := []
  elementEntity : EntityDiscriminants
  virtualizerServiceId : Option Uuid := none
  deploymentGroup : Option String := none
  vlanNumber : Option (BitVec 16) := none
  vlanName : Option String := none
  isTrunkPort : Bool := false
  operStatus : Option IfOperStatus := none

inductive PlacementDecision
  | element
  | becomeSubcontainer (containerId : Uuid)
  | placeInContainer (containerId : Uuid)
  | inlineOn (nodeId : Uuid) (inlineGroup : Option InlineGroup)
  deriving DecidableEq

/-- The decisions as they are made; the last one for an entity counts. -/
abbrev Placements := List (Uuid × PlacementDecision)

structure RulePlacement where
  containers : List Node
  placements : Placements
  claimed : List Uuid

structure InlineContext where
  hosts : List Host
  services : List Service
  /-- The services that a service runs in containers. -/
  virtToContainerSvcs : List (Uuid × List Uuid)

namespace InlineContext
variable (inline : InlineContext)

def getHost (id : Uuid) : Option Host := inline.hosts.find? fun h => h.id = id

def getService (id : Uuid) : Option Service := inline.services.find? fun s => s.id = id

def runsOnMachine (serviceId : Uuid) : Bool :=
  (inline.getService serviceId).any fun s =>
    (inline.getHost s.hostId).any fun h => h.virtualizationServiceId.isSome

end InlineContext

structure PlacementContext where
  env : BuildEnv
  ruleId : Uuid
  elementsByContainer : List (Uuid × List Uuid)
  matchData : Uuid → Option ElementMatchData
  claimed : List Uuid
  virtualizerTitles : Uuid → Option String
  inlineCtx : Option InlineContext

inductive GroupKey
  | virtualizer (serviceId : Uuid)
  | stack (project : String)
  | matched
  | trunk
  | vlan (vlanNumber : BitVec 16)
  | status (status : IfOperStatus)
  deriving DecidableEq

structure Group where
  parentId : Uuid
  key : GroupKey
  elementIds : List Uuid

def Group.idName (g : Group) (ruleId : Uuid) : IdName :=
  match g.key with
  | .virtualizer serviceId => .virtualizer g.parentId ruleId serviceId
  | .stack project => .stack project g.parentId
  | .matched => .rule g.parentId ruleId
  | .trunk => .trunk g.parentId ruleId
  | .vlan vlanNumber => .vlan g.parentId ruleId vlanNumber
  | .status status => .status g.parentId ruleId status

namespace PlacementContext
variable (ctx : PlacementContext)

def groupsBy (key : ElementMatchData → Option GroupKey) : List Group :=
  (ctx.env.order.visit (.parents ctx.ruleId) ctx.elementsByContainer).flatMap
    fun (parentId, elementIds) =>
      let unclaimed := elementIds.filter fun id => id ∉ ctx.claimed
      let keyed := unclaimed.filterMap fun id => ((ctx.matchData id).bind key).map (·, id)
      (ctx.env.order.visit (.groups ctx.ruleId parentId) (Groups.collect keyed)).map
        fun (key, members) => ⟨parentId, key, members⟩

def groupId (g : Group) : Uuid := ctx.env.newV5 (g.idName ctx.ruleId)

def groupPlacements (g : Group) : Placements :=
  (match g.key with
    | .virtualizer serviceId => [(serviceId, .becomeSubcontainer (ctx.groupId g))]
    | _ => []) ++
  g.elementIds.map fun id => (id, .placeInContainer (ctx.groupId g))

def subcontainer (g : Group) (containerType : ContainerType) (header : Option String)
    (willAcceptEdges : Bool) (associatedServiceDefinition : Option String := none) : Node where
  id := ctx.groupId g
  nodeType := .container {
    containerType
    parentContainerId := some g.parentId
    associatedServiceDefinition
    elementRuleId := some ctx.ruleId
    willAcceptEdges }
  header

def placeGroups (groups : List Group) (container : Group → Node) : RulePlacement where
  containers := groups.map container
  placements := groups.flatMap ctx.groupPlacements
  claimed := groups.flatMap (·.elementIds)

def virtualizerKey (target : EntityDiscriminants) (d : ElementMatchData) : Option GroupKey :=
  if d.elementEntity = target then d.virtualizerServiceId.map .virtualizer else none

def isGrouped (g : Group) : Bool :=
  match g.key, ctx.inlineCtx with
  | .virtualizer serviceId, some inline => !inline.runsOnMachine serviceId
  | _, _ => true

def inlineMachineServices (inline : InlineContext) (placed : Placements) : Placements :=
  (ctx.env.order.visit (.hosts ctx.ruleId) inline.hosts).flatMap fun host =>
    if host.virtualizationServiceId.isNone then []
    else
      (ctx.env.order.visit (.services ctx.ruleId host.id) inline.services).filterMap fun svc =>
        if svc.hostId = host.id && svc.virtualizationServiceId.isNone &&
            !placed.any (fun p => p.1 = svc.id) then
          some (svc.id, .inlineOn host.id none)
        else none

def inlineRuntimes (inline : InlineContext) : Placements :=
  (ctx.env.order.visit (.runtimes ctx.ruleId) inline.virtToContainerSvcs).flatMap
    fun (virtSvcId, containerSvcIds) =>
      match inline.getService virtSvcId with
      | none => []
      | some virtSvc =>
        if inline.runsOnMachine virtSvcId then
          (virtSvcId, .inlineOn virtSvc.hostId (some ⟨virtSvcId, virtSvcId, .header⟩)) ::
            containerSvcIds.map fun svcId =>
              (svcId, .inlineOn virtSvc.hostId (some ⟨svcId, virtSvcId, .member⟩))
        else []

def virtualizerGroups (target : EntityDiscriminants) : List Group :=
  (ctx.groupsBy (virtualizerKey target)).filter ctx.isGrouped

def virtualizerSubcontainer (containerType : ContainerType) (g : Group) : Node :=
  let title := match g.key with
    | .virtualizer serviceId => ctx.virtualizerTitles serviceId
    | _ => none
  ctx.subcontainer g containerType title true title

def computeHypervisorPlacements : RulePlacement :=
  let result := ctx.placeGroups (ctx.virtualizerGroups .host) (ctx.virtualizerSubcontainer .hypervisor)
  match ctx.inlineCtx with
  | none => result
  | some inline => { result with
      placements := result.placements ++ ctx.inlineMachineServices inline result.placements }

def computeContainerRuntimePlacements : RulePlacement :=
  let result := ctx.placeGroups (ctx.virtualizerGroups .service)
    (ctx.virtualizerSubcontainer .containerRuntime)
  match ctx.inlineCtx with
  | none => result
  | some inline => { result with
      placements := result.placements ++ ctx.inlineRuntimes inline }

def stackKey (d : ElementMatchData) : Option GroupKey := d.deploymentGroup.map .stack

def computeStackPlacements : RulePlacement :=
  ctx.placeGroups (ctx.groupsBy stackKey) fun g =>
    let project := match g.key with
      | .stack project => some project
      | _ => none
    ctx.subcontainer g .stack project true

def serviceCategoryKey (categories : List ServiceCategory) (d : ElementMatchData) :
    Option GroupKey :=
  if categories.any (· ∈ d.categories) then some .matched else none

def computeServiceCategoryPlacements (categories : List ServiceCategory) (title : Option String) :
    RulePlacement :=
  ctx.placeGroups (ctx.groupsBy (serviceCategoryKey categories)) fun g =>
    ctx.subcontainer g .nestedServiceCategory title false

def tagKey (tagIds : List Uuid) (d : ElementMatchData) : Option GroupKey :=
  if tagIds.any (· ∈ d.tagIds) then some .matched else none

def computeTagPlacements (tagIds : List Uuid) (title : Option String) : RulePlacement :=
  ctx.placeGroups (ctx.groupsBy (tagKey tagIds)) fun g =>
    ctx.subcontainer g .nestedTag title false

def trunkKey (d : ElementMatchData) : Option GroupKey := if d.isTrunkPort then some .trunk else none

def computeTrunkPortPlacements : RulePlacement :=
  ctx.placeGroups (ctx.groupsBy trunkKey) fun g =>
    ctx.subcontainer g .trunkPort (some "Trunk Ports") false

def vlanKey (d : ElementMatchData) : Option GroupKey := d.vlanNumber.map .vlan

def vlanHeader (g : Group) : Option String :=
  match g.key with
  | .vlan vlanNumber =>
    let vlanName := (g.elementIds.head?.bind ctx.matchData).bind (·.vlanName)
    some (match vlanName with
      | some name => "VLAN " ++ toString vlanNumber.toNat ++ " (" ++ name ++ ")"
      | none => "VLAN " ++ toString vlanNumber.toNat)
  | _ => none

def computeVlanPlacements : RulePlacement :=
  ctx.placeGroups (ctx.groupsBy vlanKey) fun g => ctx.subcontainer g .vlan (ctx.vlanHeader g) false

def statusKey (d : ElementMatchData) : Option GroupKey := d.operStatus.map .status

def statusHeader (g : Group) : Option String :=
  match g.key with
  | .status .up => some "Up"
  | .status .down => some "Down"
  | .status .testing => some "Testing"
  | .status .unknown => some "Unknown"
  | .status .dormant => some "Dormant"
  | .status .notPresent => some "NotPresent"
  | .status .lowerLayerDown => some "LowerLayerDown"
  | _ => none

def computePortOpStatusPlacements : RulePlacement :=
  ctx.placeGroups (ctx.groupsBy statusKey) fun g =>
    ctx.subcontainer g .portOpStatus (statusHeader g) false

def computePlacements : ElementRule → RulePlacement
  | .byHypervisor => ctx.computeHypervisorPlacements
  | .byContainerRuntime => ctx.computeContainerRuntimePlacements
  | .byStack => ctx.computeStackPlacements
  | .byServiceCategory categories title => ctx.computeServiceCategoryPlacements categories title
  | .byTag tagIds title => ctx.computeTagPlacements tagIds title
  | .byTrunkPort => ctx.computeTrunkPortPlacements
  | .byVLAN => ctx.computeVlanPlacements
  | .byPortOpStatus => ctx.computePortOpStatusPlacements

end PlacementContext

structure RuleState where
  claimed : List Uuid := []
  allPlacements : Placements := []
  newContainers : List Node := []
  reassignments : List (Uuid × Uuid) := []

structure RuleInput where
  env : BuildEnv
  nodes : List Node
  resolveElement : Node → Option ElementMatchData
  virtualizerTitles : Uuid → Option String := fun _ => none
  inlineCtx : Option InlineContext := none

namespace RuleInput
variable (input : RuleInput)

def elementsByContainer : List (Uuid × List Uuid) :=
  Groups.collect (input.nodes.filterMap fun n => n.containerId.map fun c => (c, n.id))

def matchData (id : Uuid) : Option ElementMatchData :=
  (input.nodes.find? fun n => !n.isContainer && n.id = id).bind input.resolveElement

def context (claimed : List Uuid) (ruleId : Uuid) : PlacementContext where
  env := input.env
  ruleId
  elementsByContainer := input.elementsByContainer
  matchData := input.matchData
  claimed
  virtualizerTitles := input.virtualizerTitles
  inlineCtx := input.inlineCtx

def applyRule (st : RuleState) (r : IdentifiedRule ElementRule) : RuleState :=
  let placement := (input.context st.claimed r.id).computePlacements r.rule
  let decisions := Inserts.entries placement.placements
  { newContainers := st.newContainers ++ placement.containers
    claimed := st.claimed ++ placement.claimed
    allPlacements := st.allPlacements ++ decisions
    reassignments := st.reassignments ++ decisions.filterMap fun (id, decision) =>
      match decision with
      | .placeInContainer containerId => some (id, containerId)
      | _ => none }

def runRules (rules : List (IdentifiedRule ElementRule)) : RuleState :=
  rules.foldl input.applyRule {}

end RuleInput

def Node.reassign (reassignments : List (Uuid × Uuid)) (n : Node) : Node :=
  match n.nodeType, Inserts.get reassignments n.id with
  | .element data, some containerId => { n with nodeType := .element { data with containerId } }
  | _, _ => n

def applyElementRules (input : RuleInput) (rules : List (IdentifiedRule ElementRule)) :
    List Node × Placements :=
  let st := input.runRules rules
  (input.nodes.map (Node.reassign st.reassignments) ++ st.newContainers, st.allPlacements)

def stackRuntimeLogo (services : List Service) (project : String) : Option String :=
  let runtimes := services.filterMap fun s => s.virtualizationMetadata.bind fun v =>
    if v.composeProject = some project then some v.runtimeServiceDefinitionId else none
  match runtimes with
  | [] => none
  | runtime :: rest => if rest.all (· = runtime) then some runtime else none

def applyStackRuntimeLogos (nodes : List Node) (services : List Service) : List Node :=
  nodes.map fun n =>
    match n.nodeType with
    | .container data =>
      if data.containerType = .stack then
        { n with nodeType := .container { data with
            associatedServiceDefinition := n.header.bind (stackRuntimeLogo services) } }
      else n
    | .element _ => n

end Scanopy.Graph
