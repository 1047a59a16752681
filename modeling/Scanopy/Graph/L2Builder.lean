import Scanopy.Graph.EdgeBuilder
import Scanopy.Graph.ElementRules

/-! The view of the ports. A host gets a box if one of its ports is linked, and its ports are the
elements of the box. -/

namespace Scanopy.Graph

def excludedIfTypes : List ℤ := [24, 53, 71, 131, 135, 136, 209]

namespace Inventory
variable (inv : Inventory)

/-- A link between two ports. The pair is noted before the other port is looked up. -/
def portLink (e : Interface) : Option ((Uuid × Uuid) × Option Edge) :=
  match e.neighbor with
  | some (.interface targetId) => some (pairKey e.id targetId,
      (inv.getInterfaceById targetId).bind fun t =>
        if e.hostId = t.hostId then none
        else some {
          source := e.id
          target := t.id
          edgeType := .physicalLink e.id t.id .lldp
          label := linkLabel e.displayName t.displayName })
  | _ => none

def portLinks : List Edge := Once.onceBy inv.portLink [] inv.getInterfacesWithNeighbor

def deviceLinks (env : BuildEnv) : List Edge :=
  inv.createNeighborLinkEdges (fun h => env.newV5 (.l2Host h))
    (inv.physicalLinkHostPairs inv.portLinks)

def qualifyingHostIds (env : BuildEnv) : List Uuid :=
  (inv.getInterfacesWithNeighbor.map (·.hostId) ++
    (inv.deviceLinks env).flatMap (fun edge => match edge.edgeType with
      | .neighborLink sourceHostId targetHostId _ => [sourceHostId, targetHostId]
      | _ => []) ++
    inv.portLinks.filterMap fun edge => match edge.edgeType with
      | .physicalLink _ targetId _ => (inv.getInterfaceById targetId).map (·.hostId)
      | _ => none).dedup

def l2HostNode (env : BuildEnv) (host : Host) : Node where
  id := env.newV5 (.l2Host host.id)
  nodeType := .container { containerType := .host, entityId := some host.id }
  header := some host.name

def portNodes (env : BuildEnv) (hostId : Uuid) : List Node :=
  ((inv.getInterfacesForHost hostId).filter fun e => e.ifType ∉ excludedIfTypes).map fun e =>
    .element e.id (env.newV5 (.l2Host hostId)) hostId (.interface e.id) (some e.displayName)

def resolvePort (n : Node) : Option ElementMatchData :=
  match n.nodeType with
  | .container _ => none
  | .element data =>
    let port := inv.getInterfaceById n.id
    let vlan := (port.bind (·.nativeVlanId)).bind inv.getVlanById
    some {
      tagIds := inv.hostTagIds data.hostId
      elementEntity := .interface
      vlanNumber := vlan.map (·.vlanNumber)
      vlanName := vlan.map (·.name)
      isTrunkPort := (port.bind (·.vlanIds)).any fun ids => !ids.isEmpty
      operStatus := port.map (·.operStatus) }

def l2Nodes (env : BuildEnv) : List Node :=
  let hostIds := env.order.visit .qualifyingHosts (inv.qualifyingHostIds env)
  (hostIds.filterMap fun id => (inv.getHostById id).map (l2HostNode env)) ++
    hostIds.flatMap (inv.portNodes env)

def l2Input (env : BuildEnv) : RuleInput where
  env
  nodes := inv.l2Nodes env
  resolveElement := inv.resolvePort

def buildL2 (env : BuildEnv) (grouping : GroupingConfig) : List Node × List Edge :=
  ((applyElementRules (inv.l2Input env) grouping.elementRules).1,
    inv.portLinks ++ inv.deviceLinks env)

end Inventory

end Scanopy.Graph
