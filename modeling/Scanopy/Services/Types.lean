import Scanopy.Shared.Entities

/-! Services with the columns that decide when two of them are the same service. -/

namespace Scanopy

def EntitySource.isFromDiscovery : EntitySource → Bool
  | discovery | discoveryWithMatch => true
  | manual | system | unknown => false

inductive ContainerRuntime
  | docker
  | podman
  deriving DecidableEq

structure ServiceVirtualization where
  runtime : ContainerRuntime
  containerName : Option String
  containerId : Option String
  deriving DecidableEq

structure TrackedServiceBase extends ServiceBase where
  virtualizationMetadata : Option ServiceVirtualization := none
  source : EntitySource := .manual
  lastSeenAt : Timestamp := 0
  deriving DecidableEq

abbrev TrackedService := Row TrackedServiceBase

structure ServiceDefinitions where
  isGeneric : String → Bool
  isGateway : String → Bool
  isOpenPorts : String → Bool

namespace BindingType

def portId : BindingType → Option Uuid
  | ipAddress _ => none
  | port portId _ => some portId

def ipAddressId : BindingType → Option Uuid
  | ipAddress ipAddressId => some ipAddressId
  | port _ ipAddressId => ipAddressId

end BindingType

namespace TrackedService

def containerId (s : TrackedService) : Option String :=
  s.base.virtualizationMetadata.bind (·.containerId)

def portIds (s : TrackedService) : List Uuid := s.base.bindings.filterMap (·.base.bindingType.portId)

def hasSharedPorts (a b : TrackedService) : Bool := a.portIds.any b.portIds.contains

def sameGeneric (a b : TrackedService) : Bool :=
  match a.base.virtualizationMetadata, b.base.virtualizationMetadata with
  | some va, some vb =>
    match va.containerId, vb.containerId with
    | some ca, some cb => ca = cb
    | some _, none | none, some _ => false
    | none, none =>
      match va.containerName, vb.containerName with
      | some na, some nb => na = nb
      | _, _ => hasSharedPorts a b
  | _, _ => hasSharedPorts a b

/-- `PartialEq` of services. -/
def same (defs : ServiceDefinitions) (a b : TrackedService) : Bool :=
  if a.id = b.id then true
  else if a.base.hostId ≠ b.base.hostId || a.base.networkId ≠ b.base.networkId then false
  else if a.base.serviceDefinition ≠ b.base.serviceDefinition then false
  else if !defs.isGeneric a.base.serviceDefinition then
    -- Two containers can run one service each, everything else runs it once on a host.
    match a.containerId, b.containerId with
    | some ca, some cb => ca = cb
    | _, _ => true
  else if defs.isGateway a.base.serviceDefinition || defs.isOpenPorts a.base.serviceDefinition then
    true
  else sameGeneric a b

end TrackedService
end Scanopy
