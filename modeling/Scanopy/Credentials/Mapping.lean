import Scanopy.Lib.BTreeMap
import Scanopy.Credentials.Types
import Scanopy.Discovery.Scheduling

/-! The credentials a daemon gets for a scan: those of its network, the assignments of the hosts and
the integration targets of the discovery, in one map keyed by credential. -/

namespace Scanopy

structure IpOverride (T : Type) where
  ip : IpAddr
  credential : T
  credentialId : Uuid
  deriving DecidableEq

structure CredentialMapping (T : Type) where
  defaultCredential : Option T
  ipOverrides : List (IpOverride T)
  deriving DecidableEq

structure TypedCredentialMapping where
  discriminant : CredentialTypeDiscriminants
  mapping : CredentialMapping CredentialQueryPayload
  deriving DecidableEq

def TypedCredentialMapping.new (d : CredentialTypeDiscriminants) : TypedCredentialMapping :=
  ⟨d, ⟨none, []⟩⟩

abbrev Mappings := BTreeMap Uuid TypedCredentialMapping

def mappingFor (mappings : Mappings) (credentialId : Uuid) (type : CredentialType)
    (change : CredentialMapping CredentialQueryPayload → CredentialMapping CredentialQueryPayload) :
    Mappings :=
  mappings.alter credentialId (.new type.discriminant) fun t =>
    { t with mapping := change t.mapping }

def retainDaemonCompatible (mappings : Mappings) (daemonVersion : Option Version) : Mappings :=
  mappings.retain fun _ typed => typed.discriminant.compatibleWithDaemon daemonVersion

def orderMappingsForDispatch (mappings : Mappings) :
    List (CredentialMapping CredentialQueryPayload) :=
  let (broadcastOnly, withOverrides) :=
    (mappings.values.map TypedCredentialMapping.mapping).partition fun m => m.ipOverrides.isEmpty
  broadcastOnly ++ withOverrides

def localhost : IpAddr := .v4 0x7F000001#32

def pushUniqueOverride (mapping : CredentialMapping CredentialQueryPayload) (ip : IpAddr)
    (payload : CredentialQueryPayload) (credentialId : Uuid) :
    CredentialMapping CredentialQueryPayload :=
  if mapping.ipOverrides.any fun o => o.ip = ip && o.credentialId = credentialId then mapping
  else { mapping with ipOverrides := mapping.ipOverrides ++ [⟨ip, payload, credentialId⟩] }

namespace IntegrationTarget

def credentialId : IntegrationTarget → Uuid
  | daemonHost id | network id | hosts id _ => id

def scope : IntegrationTarget → Target
  | daemonHost _ => .daemonHost
  | network _ => .network
  | hosts .. => .hosts

def ips : IntegrationTarget → List IpAddr
  | daemonHost _ => [localhost]
  | network _ => []
  | hosts _ ips => ips

end IntegrationTarget

def applyIntegrationTarget (mappings : Mappings) (target : IntegrationTarget)
    (type : CredentialType) : Mappings :=
  if target.scope ∉ type.targets then mappings
  else if target.scope = .hosts ∧ target.ips = [] then mappings
  else
    let payload := type.toQueryPayload
    mappingFor mappings target.credentialId type fun mapping =>
      match target with
      | .network _ => { mapping with defaultCredential := some payload }
      | .hosts .. | .daemonHost _ =>
        target.ips.foldl (fun m ip => pushUniqueOverride m ip payload target.credentialId) mapping

def relevantInterfaces (hostId : Uuid) (ipAddressIds : Option (List Uuid))
    (ipAddresses : List IPAddress) : List IPAddress :=
  ipAddresses.filter fun i =>
    i.base.hostId = hostId && match ipAddressIds with
      | some ids => ids.contains i.id
      | none => true

def applyHostAssignment (mappings : Mappings) (hostId : Uuid) (assignment : CredentialAssignment)
    (credential : Credential) (ipAddresses : List IPAddress) : Mappings :=
  let type := credential.credentialType
  mappingFor mappings credential.id type fun mapping =>
    { mapping with
      ipOverrides := mapping.ipOverrides ++
        (relevantInterfaces hostId assignment.ipAddressIds ipAddresses).map fun i =>
          ⟨i.base.ipAddress, type.toQueryPayload, credential.id⟩ }

/-- The tables that the dispatch reads, each in the order in which a query returns its rows. -/
structure CredentialStore where
  credentials : Table Credential.id
  networkCredentials : Table NetworkCredential.key
  hostCredentials : Table HostCredential.key
  networks : List Network
  hosts : List Host
  ipAddresses : List IPAddress

namespace CredentialStore

def getById (s : CredentialStore) (id : Uuid) : Option Credential := s.credentials.find id

def getNetwork (s : CredentialStore) (id : Uuid) : Option Network :=
  s.networks.find? fun n => n.id = id

def getCredentialIdsForNetwork (s : CredentialStore) (networkId : Uuid) : List Uuid :=
  (s.networkCredentials.rows.filter fun r => r.networkId = networkId).map (·.credentialId)

def getCredentialAssignmentsForHost (s : CredentialStore) (hostId : Uuid) :
    List CredentialAssignment :=
  (s.hostCredentials.rows.filter fun r => r.hostId = hostId).map fun r =>
    ⟨r.credentialId, r.ipAddressIds⟩

def hostsOf (s : CredentialStore) (networkId : Uuid) : List Host :=
  s.hosts.filter fun h => h.base.networkId = networkId

def ipAddressesOf (s : CredentialStore) (networkId : Uuid) : List IPAddress :=
  s.ipAddresses.filter fun i => i.base.networkId = networkId

/-- A network that is not found leaves the choice to the checks at write time. -/
def ownedByNetworkOrg (s : CredentialStore) (networkId : Uuid) (cred : Credential) : Bool :=
  match s.getNetwork networkId with
  | some n => cred.organizationId = n.organizationId
  | none => true

def applyNetworkCredentials (s : CredentialStore) (networkId : Uuid) (mappings : Mappings) :
    Mappings :=
  (s.getCredentialIdsForNetwork networkId).foldl (fun mappings id =>
    match s.getById id with
    | some cred =>
      if s.ownedByNetworkOrg networkId cred then
        mappingFor mappings cred.id cred.credentialType fun m =>
          { m with defaultCredential := some cred.credentialType.toQueryPayload }
      else mappings
    | none => mappings) mappings

def applyHostCredentials (s : CredentialStore) (networkId : Uuid) (mappings : Mappings) :
    Mappings :=
  (s.hostsOf networkId).foldl (fun mappings host =>
    (s.getCredentialAssignmentsForHost host.id).foldl (fun mappings assignment =>
      match s.getById assignment.credentialId with
      | some cred =>
        if s.ownedByNetworkOrg networkId cred then
          applyHostAssignment mappings host.id assignment cred (s.ipAddressesOf networkId)
        else mappings
      | none => mappings) mappings) mappings

def applyIntegrationTargets (s : CredentialStore) (targets : List IntegrationTarget)
    (mappings : Mappings) : Mappings :=
  targets.foldl (fun mappings target =>
    match s.getById target.credentialId with
    | some cred => applyIntegrationTarget mappings target cred.credentialType
    | none => mappings) mappings

def buildAllCredentialMappings (s : CredentialStore) (networkId : Uuid)
    (targets : List IntegrationTarget) (daemonVersion : Option Version) :
    List (CredentialMapping CredentialQueryPayload) :=
  let mappings := s.applyNetworkCredentials networkId .empty
  let mappings := s.applyHostCredentials networkId mappings
  let mappings := s.applyIntegrationTargets targets mappings
  orderMappingsForDispatch (retainDaemonCompatible mappings daemonVersion)

end CredentialStore

/-- The credentials for an address in the order in which the daemon tries them. -/
def resolveCredentialsForIp (mapping : CredentialMapping CredentialQueryPayload) (ip : IpAddr) :
    List (CredentialQueryPayload × Option Uuid) :=
  ((mapping.ipOverrides.filter fun o => o.ip = ip).map fun o =>
    (o.credential, if o.credentialId ≠ Uuid.nil then some o.credentialId else none)) ++
  (mapping.defaultCredential.map fun d => (d, none)).toList

end Scanopy
