import Scanopy.Shared.Entities

/-! What a topology graph is built from, and what it is made of. The entities hold what the builders
read of them; each node names the container that it is in. -/

namespace Scanopy.Graph

/-- The order of the bytes. -/
def rank (id : Uuid) : ℕ := BitVec.toNat (w := 128) id

inductive ServiceCategory
  | networkCore | networkAccess | networkAppliance | remoteAccess | storage | backup | media
  | homeAutomation | hypervisor | containerRuntime | container | orchestrator | dns | vpn
  | monitoring | adBlock | reverseProxy | workstation | mobile | ioT | printer | database
  | development | dashboard | messageQueue | identityAndAccess | integration | office
  | projectManagement | messaging | conferencing | telephony | email | publishing | unknown
  | custom | scanopy | openPorts
  deriving DecidableEq

def ServiceCategory.id : ServiceCategory → String
  | networkCore => "NetworkCore"
  | networkAccess => "NetworkAccess"
  | networkAppliance => "NetworkAppliance"
  | remoteAccess => "RemoteAccess"
  | storage => "Storage"
  | backup => "Backup"
  | media => "Media"
  | homeAutomation => "HomeAutomation"
  | hypervisor => "Hypervisor"
  | containerRuntime => "ContainerRuntime"
  | container => "Container"
  | orchestrator => "Orchestrator"
  | dns => "DNS"
  | vpn => "VPN"
  | monitoring => "Monitoring"
  | adBlock => "AdBlock"
  | reverseProxy => "ReverseProxy"
  | workstation => "Workstation"
  | mobile => "Mobile"
  | ioT => "IoT"
  | printer => "Printer"
  | database => "Database"
  | development => "Development"
  | dashboard => "Dashboard"
  | messageQueue => "MessageQueue"
  | identityAndAccess => "IdentityAndAccess"
  | integration => "Integration"
  | office => "Office"
  | projectManagement => "ProjectManagement"
  | messaging => "Messaging"
  | conferencing => "Conferencing"
  | telephony => "Telephony"
  | email => "Email"
  | publishing => "Publishing"
  | unknown => "Unknown"
  | custom => "Custom"
  | scanopy => "Scanopy"
  | openPorts => "OpenPorts"

structure ServiceDefinition where
  name : String
  category : ServiceCategory
  /-- Whether it has a virtualization role. -/
  isVirtualizer : Bool
  deriving DecidableEq

inductive ServiceVirtualization
  | docker (composeProject : Option String)
  | podman (composeProject : Option String)
  deriving DecidableEq

def ServiceVirtualization.composeProject : ServiceVirtualization → Option String
  | docker composeProject | podman composeProject => composeProject

def ServiceVirtualization.runtimeServiceDefinitionId : ServiceVirtualization → String
  | docker _ => "Docker"
  | podman _ => "Podman"

structure Host where
  id : Uuid
  name : String
  tags : List Uuid := []
  /-- The service that runs the host, if it is a virtual machine. -/
  virtualizationServiceId : Option Uuid := none
  hasVirtualizationMetadata : Bool := false
  deriving DecidableEq

structure Binding where
  id : Uuid
  ipAddressId : Option Uuid
  deriving DecidableEq

structure Service where
  id : Uuid
  hostId : Uuid
  name : String
  serviceDefinition : ServiceDefinition
  bindings : List Binding := []
  tags : List Uuid := []
  /-- The service that runs this one in a container. -/
  virtualizationServiceId : Option Uuid := none
  virtualizationMetadata : Option ServiceVirtualization := none
  deriving DecidableEq

structure IPAddress where
  id : Uuid
  hostId : Uuid
  subnetId : Uuid
  ipAddress : IpAddr
  /-- The address as it is shown. -/
  text : String
  deriving DecidableEq

structure Subnet where
  id : Uuid
  name : String
  cidr : String
  subnetType : SubnetType
  deriving DecidableEq

inductive IfOperStatus
  | up | down | testing | unknown | dormant | notPresent | lowerLayerDown
  deriving DecidableEq

structure Interface where
  id : Uuid
  hostId : Uuid
  ifDescr : String
  ifAlias : Option String := none
  ifType : ℤ
  operStatus : IfOperStatus := .up
  neighbor : Option Neighbor := none
  ipAddressId : Option Uuid := none
  nativeVlanId : Option Uuid := none
  vlanIds : Option (List Uuid) := none
  hasLldpData : Bool := false
  deriving DecidableEq

def Interface.displayName (i : Interface) : String := i.ifAlias.getD i.ifDescr

inductive DependencyType
  | requestPath
  | hubAndSpoke
  deriving DecidableEq

inductive DependencyMembers
  | services (serviceIds : List Uuid)
  | bindings (bindingIds : List Uuid)
  deriving DecidableEq

structure Dependency where
  id : Uuid
  name : String
  dependencyType : DependencyType
  members : DependencyMembers
  deriving DecidableEq

def Dependency.bindingIds (d : Dependency) : List Uuid :=
  match d.members with
  | .bindings bindingIds => bindingIds
  | .services _ => []

structure Tag where
  id : Uuid
  name : String
  isApplication : Bool
  deriving DecidableEq

structure Vlan where
  id : Uuid
  vlanNumber : BitVec 16
  name : String
  deriving DecidableEq

inductive TopologyView
  | l2Physical
  | l3Logical
  | workloads
  | application
  deriving DecidableEq

inductive ContainerRule
  | bySubnet
  | mergeContainerBridges
  | byApplication (tagIds : List Uuid)
  | byHost
  deriving DecidableEq

inductive ElementRule
  | byServiceCategory (categories : List ServiceCategory) (title : Option String)
  | byTag (tagIds : List Uuid) (title : Option String)
  | byHypervisor
  | byContainerRuntime
  | byStack
  | byTrunkPort
  | byVLAN
  | byPortOpStatus
  deriving DecidableEq

structure IdentifiedRule (R : Type) where
  id : Uuid
  rule : R
  deriving DecidableEq

def ElementRule.applicableViews : ElementRule → List TopologyView
  | byServiceCategory .. => [.application, .workloads]
  | byTag .. => [.l3Logical, .l2Physical, .workloads, .application]
  | byHypervisor => [.workloads]
  | byContainerRuntime => [.workloads]
  | byStack => [.l3Logical, .application]
  | byTrunkPort => [.l2Physical]
  | byVLAN => [.l2Physical]
  | byPortOpStatus => [.l2Physical]

def ElementRule.willAcceptEdges : ElementRule → Bool
  | byHypervisor | byContainerRuntime | byStack => true
  | byServiceCategory .. | byTag .. | byTrunkPort | byVLAN | byPortOpStatus => false

inductive MetadataFilterType
  | category
  | virtualization
  | linkState
  | staleness
  deriving DecidableEq

structure TopologyRequestOptions where
  hideMetadataValues :
    TopologyView → EntityDiscriminants → MetadataFilterType → Option (List String) :=
      fun _ _ _ => none
  containerRules : TopologyView → List (IdentifiedRule ContainerRule) := fun _ => []
  elementRules : List (IdentifiedRule ElementRule) := []

structure GroupingConfig where
  containerRules : List (IdentifiedRule ContainerRule)
  elementRules : List (IdentifiedRule ElementRule)

namespace GroupingConfig

def fromRequestOptions (options : TopologyRequestOptions) (view : TopologyView) :
    GroupingConfig where
  containerRules := options.containerRules view
  elementRules := options.elementRules.filter fun r => view ∈ r.rule.applicableViews

def shouldGroupContainerBridges (grouping : GroupingConfig) : Bool :=
  grouping.containerRules.any fun r => r.rule = .mergeContainerBridges

def subnetsAreContainers (grouping : GroupingConfig) : Bool :=
  grouping.containerRules.any fun r => r.rule = .bySubnet

end GroupingConfig

section Nodes

inductive ContainerType
  | subnet | serviceCategory | application | applicationUngrouped | root | host | nestedTag
  | nestedServiceCategory | hypervisor | containerRuntime | stack | trunkPort | vlan
  | portOpStatus
  deriving DecidableEq

inductive ElementEntityType
  | ipAddress (subnetId : Uuid) (ipAddressId : Option Uuid)
  | service
  | host
  | interface (interfaceId : Uuid)
  deriving DecidableEq

inductive InlineGroupRole
  | header
  | member
  deriving DecidableEq

/-- How an entity that has no node of its own is shown on another one. -/
structure InlineGroup where
  entityId : Uuid
  groupId : Uuid
  role : InlineGroupRole
  deriving DecidableEq

structure ContainerData where
  containerType : ContainerType
  parentContainerId : Option Uuid := none
  entityId : Option Uuid := none
  associatedServiceDefinition : Option String := none
  elementRuleId : Option Uuid := none
  willAcceptEdges : Bool := false
  deriving DecidableEq

structure ElementData where
  containerId : Uuid
  hostId : Uuid
  element : ElementEntityType
  inlineGroups : List InlineGroup := []
  deriving DecidableEq

inductive NodeType
  | container (data : ContainerData)
  | element (data : ElementData)
  deriving DecidableEq

structure Node where
  id : Uuid
  nodeType : NodeType
  header : Option String
  deriving DecidableEq

namespace Node

def element (id containerId hostId : Uuid) (element : ElementEntityType) (header : Option String) :
    Node := ⟨id, .element { containerId, hostId, element }, header⟩

def isContainer (n : Node) : Bool :=
  match n.nodeType with
  | .container _ => true
  | .element _ => false

def isHostBox (n : Node) : Bool :=
  match n.nodeType with
  | .container data => data.containerType = .host
  | .element _ => false

def containerId (n : Node) : Option Uuid :=
  match n.nodeType with
  | .container _ => none
  | .element data => some data.containerId

def parentId (n : Node) : Option Uuid :=
  match n.nodeType with
  | .container data => data.parentContainerId
  | .element data => some data.containerId

end Node

end Nodes

section Edges

inductive DiscoveryProtocol
  | lldp
  | cdp
  deriving DecidableEq

inductive EdgeType
  | sameHost (hostId : Uuid)
  | hypervisor (hypervisorServiceId : Uuid)
  | containerRuntime (hostId serviceId : Uuid) (subnetIds containerizedServiceIds : List Uuid)
  | sameContainer (serviceId : Uuid)
  | requestPath (dependencyId sourceId targetId : Uuid)
  | hubAndSpoke (dependencyId sourceId targetId : Uuid)
  | physicalLink (sourceEntityId targetEntityId : Uuid) (protocol : DiscoveryProtocol)
  | neighborLink (sourceHostId targetHostId : Uuid) (protocol : DiscoveryProtocol)
  deriving DecidableEq

inductive RelationKey
  | entity (id : Uuid)
  | pair (first second : Uuid)
  deriving DecidableEq

def pairKey (a b : Uuid) : Uuid × Uuid := if rank a < rank b then (a, b) else (b, a)

theorem pairKey_eq {a b c d : Uuid} (h : pairKey a b = pairKey c d) :
    (a = c ∧ b = d) ∨ (a = d ∧ b = c) := by
  rw [pairKey, pairKey] at h
  split at h <;> split at h <;> obtain ⟨rfl, rfl⟩ := Prod.mk.inj h <;> simp

def EdgeType.relationKey : EdgeType → Option RelationKey
  | requestPath dependencyId .. | hubAndSpoke dependencyId .. => some (.entity dependencyId)
  | sameHost hostId => some (.entity hostId)
  | sameContainer serviceId => some (.entity serviceId)
  | physicalLink source target _ => some (.pair (pairKey source target).1 (pairKey source target).2)
  | neighborLink source target _ => some (.pair (pairKey source target).1 (pairKey source target).2)
  | hypervisor .. | containerRuntime .. => none

inductive EdgeStroke
  | solid
  | dashed
  | dotted
  deriving DecidableEq

inductive EdgeHighlightBehavior
  | whenVisible
  | always
  deriving DecidableEq

inductive EdgeViewConfig
  | disabled
  | active (affectsLayout hiddenByDefault : Bool) (stroke : EdgeStroke)
      (highlightBehavior : EdgeHighlightBehavior) (willTargetContainer showDirectionality : Bool)
  deriving DecidableEq

structure Edge where
  source : Uuid
  target : Uuid
  edgeType : EdgeType
  label : Option String
  isMultiHop : Bool := false
  viewConfig : EdgeViewConfig := .disabled
  relationKey : Option RelationKey := none
  deriving DecidableEq

def TopologyView.edgeViewConfig : TopologyView → EdgeType → EdgeViewConfig
  | .l3Logical, .sameHost .. => .active true false .solid .whenVisible false false
  | .l3Logical, .containerRuntime .. => .active true false .solid .whenVisible true false
  | .l3Logical, .requestPath .. => .active false false .dashed .whenVisible false true
  | .l3Logical, .hubAndSpoke .. => .active false false .dashed .whenVisible false true
  | .l3Logical, .hypervisor .. => .active false true .dashed .whenVisible true false
  | .l3Logical, .physicalLink .. => .disabled
  | .l3Logical, .neighborLink .. => .disabled
  | .l3Logical, .sameContainer .. => .active false true .dotted .whenVisible false false
  | .l2Physical, .physicalLink .. => .active true false .solid .whenVisible false false
  | .l2Physical, .neighborLink .. => .active true false .dashed .whenVisible false false
  | .l2Physical, .sameHost .. => .active false true .dashed .whenVisible false false
  | .l2Physical, _ => .disabled
  | .workloads, .physicalLink .. => .active false true .dashed .whenVisible false false
  | .workloads, .neighborLink .. => .active false true .dashed .whenVisible false false
  | .workloads, .requestPath .. => .active false true .dashed .whenVisible false true
  | .workloads, .hubAndSpoke .. => .active false true .dashed .whenVisible false true
  | .workloads, _ => .disabled
  | .application, .requestPath .. => .active true false .solid .whenVisible false true
  | .application, .hubAndSpoke .. => .active true false .solid .whenVisible false true
  | .application, .containerRuntime .. => .active true true .dashed .always true false
  | .application, _ => .disabled

end Edges

inductive IdName
  | l2Host (hostId : Uuid)
  | workloadsHost (hostId : Uuid)
  | applicationTag (tagId : Uuid)
  | rule (parentId ruleId : Uuid)
  | virtualizer (parentId ruleId serviceId : Uuid)
  | stack (project : String) (parentId : Uuid)
  | trunk (parentId ruleId : Uuid)
  | vlan (parentId ruleId : Uuid) (vlanNumber : BitVec 16)
  | status (parentId ruleId : Uuid) (status : IfOperStatus)
  deriving DecidableEq

/-- The places where a builder goes through a hash map. -/
inductive HashSite
  | parents (ruleId : Uuid)
  | groups (ruleId parentId : Uuid)
  | hosts (ruleId : Uuid)
  | services (ruleId hostId : Uuid)
  | runtimes (ruleId : Uuid)
  | placements
  | bridges
  | subnets
  | subnetNodes
  | qualifyingHosts
  | machines
  | containers
  | applicationTags

structure HashOrder where
  visit : {A : Type} → HashSite → List A → List A
  visit_perm : ∀ {A : Type} (site : HashSite) (l : List A), (visit site l).Perm l

theorem HashOrder.mem_visit (order : HashOrder) {A : Type} {site : HashSite} {l : List A} {a : A} :
    a ∈ order.visit site l ↔ a ∈ l := (order.visit_perm site l).mem_iff

/-- What the builders take from elsewhere: the ids for names (`Uuid::new_v5`), and the orders. -/
structure BuildEnv where
  newV5 : IdName → Uuid
  order : HashOrder

structure Inventory where
  hosts : List Host
  ipAddresses : List IPAddress := []
  subnets : List Subnet := []
  services : List Service := []
  dependencies : List Dependency := []
  interfaces : List Interface := []
  tags : List Tag := []
  vlans : List Vlan := []

end Scanopy.Graph
