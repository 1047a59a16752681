import Scanopy.Snapshots.Clone

/-! The creation of a subnet: a live subnet of the network with the same natural key is refreshed
instead. -/

namespace Scanopy

/-- `PartialEq`: the same network, or the same id. -/
def Subnet.eq (a b : Subnet) : Bool :=
  (a.base.cidr = b.base.cidr && a.base.networkId = b.base.networkId) || a.id = b.id

/-- The subnet is taken for the stored one. The bridge of a container runtime is one subnet for
each runtime, so two bridges with an owner are the same only if the owner is. -/
def Subnet.isDuplicateOf (subnet existing : Subnet) : Bool :=
  subnet.eq existing && match existing.base.source, subnet.base.source with
    | .discovery, .discovery =>
      if subnet.base.subnetType.isContainerBridge && existing.base.subnetType.isContainerBridge then
        match subnet.base.virtualizationServiceId, existing.base.virtualizationServiceId with
        | some a, some b => a = b
        | _, _ => true
      else true
    | .system, _ | _, .system => false
    | _, _ => true

def Subnet.correctsContainerBridgeGuess (subnet existing : Subnet) : Bool :=
  existing.base.source = .discovery && subnet.base.source = .discovery &&
    existing.base.subnetType.isContainerBridge && existing.base.virtualizationServiceId.isNone &&
    !subnet.base.subnetType.isContainerBridge

/-- `SubnetService::create`; `newId` and `now` are for a subnet that comes without an id. -/
def createSubnet (newId : Uuid) (now : Timestamp) (subnets : RowTable SubnetBase)
    (subnet : Subnet) : Option (RowTable SubnetBase × Subnet) :=
  let live := subnets.rows.filter fun s => s.isLive && s.base.networkId = subnet.base.networkId
  let subnet : Subnet := if subnet.id = Uuid.nil then
    ⟨newId, now, now, none, none, { subnet.base with lastSeenAt := now }⟩ else subnet
  match live.find? (subnet.isDuplicateOf ·.toRow) with
  | some existing =>
    let subnetType := if subnet.correctsContainerBridgeGuess existing.toRow then
      subnet.base.subnetType else existing.base.subnetType
    let refreshed : Subnet := { existing.toRow with
      base := { existing.base with lastSeenAt := subnet.base.lastSeenAt, subnetType } }
    some (subnets.update [refreshed], refreshed)
  | none =>
    let subnet : Subnet := { subnet with
      createdAt := subnet.base.lastSeenAt, validFrom := subnet.base.lastSeenAt }
    (subnets.insertMany [⟨subnet, none⟩]).map (·, subnet)

end Scanopy
