import Scanopy.Lib.Table
import Scanopy.Shared.Entities
import Scanopy.Shared.Text

/-! Credentials as the server stores them, what it sends to a daemon of them, and the tables that
say which of them the networks and hosts use. -/

namespace Scanopy

/-- Identifiers compare as the numbers they are, which is how the store orders them too. -/
instance : LinearOrder Uuid :=
  LinearOrder.lift' (fun u : Uuid => BitVec.toNat u) fun _ _ => BitVec.eq_of_toNat_eq

inductive SecretValue
  | inline (value : String)
  | filePath (path : String)
  deriving DecidableEq

inductive FileOrInline
  | inline (value : String)
  | filePath (path : String)
  deriving DecidableEq

inductive SnmpV3AuthProtocol
  | sha1
  | sha256
  deriving DecidableEq

inductive SnmpV3PrivProtocol
  | aes128
  | aes256
  deriving DecidableEq

inductive SnmpVersion
  | v1
  | v2c
  | v3
  deriving DecidableEq

inductive CredentialType
  | snmpV1 (community : SecretValue)
  | snmpV2c (community : SecretValue)
  | snmpV3 (securityName : String) (authProtocol : SnmpV3AuthProtocol)
      (authPassword : SecretValue) (privProtocol : SnmpV3PrivProtocol)
      (privPassword : SecretValue) (contextName : Option String)
  | dockerProxy (port : BitVec 16) (path : Option String) (sslCert : Option FileOrInline)
      (sslKey : Option SecretValue) (sslChain : Option FileOrInline)
  | dockerSocket (socketPath : Option String)
  | podmanProxy (port : BitVec 16) (path : Option String) (sslCert : Option FileOrInline)
      (sslKey : Option SecretValue) (sslChain : Option FileOrInline)
  | podmanSocket (socketPath : Option String)
  | unifiApiKey (port : BitVec 16) (site : String) (apiKey : SecretValue)
  | unifiLocalAdmin (port : BitVec 16) (site : String) (username : String)
      (password : SecretValue)
  | instantOnAccount (username : String) (password : SecretValue) (site : Option String)
  deriving DecidableEq

inductive CredentialTypeDiscriminants
  | snmpV1 | snmpV2c | snmpV3 | dockerProxy | dockerSocket | podmanProxy | podmanSocket
  | unifiApiKey | unifiLocalAdmin | instantOnAccount
  deriving DecidableEq

/-- The service definitions that credentials integrate with, which differ in their names. -/
inductive IntegrationService
  | snmp | docker | podman | unifiController | instantOn
  deriving DecidableEq

/-- Where a credential can apply: the scopes of an `IntegrationTarget`. -/
inductive Target
  | daemonHost
  | network
  | hosts
  deriving DecidableEq

inductive ResolvableSecret
  | value (value : String)
  | filePath (path : String)
  deriving DecidableEq

inductive ResolvableValue
  | value (value : String)
  | filePath (path : String)
  deriving DecidableEq

structure SnmpV3Params where
  securityName : String
  authProtocol : SnmpV3AuthProtocol
  authPassword : ResolvableSecret
  privProtocol : SnmpV3PrivProtocol
  privPassword : ResolvableSecret
  contextName : Option String
  deriving DecidableEq

structure SnmpQueryCredential where
  version : SnmpVersion
  community : ResolvableSecret
  v3 : Option SnmpV3Params
  deriving DecidableEq

structure ContainerProxyQueryCredential where
  port : BitVec 16
  path : Option String
  sslCert : Option ResolvableValue
  sslKey : Option ResolvableSecret
  sslChain : Option ResolvableValue
  deriving DecidableEq

structure ContainerSocketQueryCredential where
  socketPath : Option String
  deriving DecidableEq

inductive UnifiAuth
  | apiKey (apiKey : ResolvableSecret)
  | localAdmin (username : String) (password : ResolvableSecret)
  deriving DecidableEq

structure UnifiQueryCredential where
  port : BitVec 16
  site : String
  auth : UnifiAuth
  deriving DecidableEq

structure InstantOnQueryCredential where
  username : String
  password : ResolvableSecret
  site : Option String
  deriving DecidableEq

/-- A credential on the wire, with its secrets exposed. A daemon reads a variant it does not know
as `unknown`. -/
inductive CredentialQueryPayload
  | snmp (credential : SnmpQueryCredential)
  | dockerProxy (credential : ContainerProxyQueryCredential)
  | dockerSocket (credential : ContainerSocketQueryCredential)
  | podmanProxy (credential : ContainerProxyQueryCredential)
  | podmanSocket (credential : ContainerSocketQueryCredential)
  | unifiController (credential : UnifiQueryCredential)
  | instantOn (credential : InstantOnQueryCredential)
  | unknown
  deriving DecidableEq

/-- The versions of daemons, without build metadata. A version with a prerelease part stands
before the release of the same numbers. -/
structure Version where
  major : ℕ
  minor : ℕ
  patch : ℕ
  pre : String := ""
  deriving DecidableEq

def Version.atLeast (v floor : Version) : Bool :=
  if v.major ≠ floor.major then floor.major < v.major
  else if v.minor ≠ floor.minor then floor.minor < v.minor
  else if v.patch ≠ floor.patch then floor.patch < v.patch
  else v.pre = ""

namespace CredentialTypeDiscriminants

def minimumDaemonVersion : CredentialTypeDiscriminants → Version
  | snmpV2c | dockerProxy | dockerSocket => ⟨0, 16, 2, ""⟩
  | snmpV1 | snmpV3 => ⟨0, 17, 0, ""⟩
  | podmanProxy | podmanSocket => ⟨0, 17, 2, ""⟩
  | unifiApiKey | unifiLocalAdmin => ⟨0, 17, 7, ""⟩
  | instantOnAccount => ⟨0, 17, 11, ""⟩

def compatibleWithDaemon (d : CredentialTypeDiscriminants) : Option Version → Bool
  | some v => v.atLeast d.minimumDaemonVersion
  | none => Version.atLeast ⟨0, 16, 2, ""⟩ d.minimumDaemonVersion

end CredentialTypeDiscriminants

def secretToResolvable : SecretValue → ResolvableSecret
  | .inline value => .value value
  | .filePath path => .filePath path

def containerProxyQuery (port : BitVec 16) (path : Option String)
    (sslCert : Option FileOrInline) (sslKey : Option SecretValue)
    (sslChain : Option FileOrInline) : ContainerProxyQueryCredential where
  port := port
  path := path
  sslCert := sslCert.map fileOrInline
  sslKey := sslKey.map secretToResolvable
  sslChain := sslChain.map fileOrInline
where
  fileOrInline : FileOrInline → ResolvableValue
    | .inline value => .value value
    | .filePath path => .filePath path

namespace CredentialType

def discriminant : CredentialType → CredentialTypeDiscriminants
  | snmpV1 _ => .snmpV1
  | snmpV2c _ => .snmpV2c
  | snmpV3 .. => .snmpV3
  | dockerProxy .. => .dockerProxy
  | dockerSocket _ => .dockerSocket
  | podmanProxy .. => .podmanProxy
  | podmanSocket _ => .podmanSocket
  | unifiApiKey .. => .unifiApiKey
  | unifiLocalAdmin .. => .unifiLocalAdmin
  | instantOnAccount .. => .instantOnAccount

def targets : CredentialType → List Target
  | snmpV1 _ | snmpV2c _ | snmpV3 .. => [.daemonHost, .hosts, .network]
  | dockerProxy .. | podmanProxy .. => [.daemonHost, .hosts]
  | dockerSocket _ | podmanSocket _ => [.daemonHost]
  | unifiApiKey .. | unifiLocalAdmin .. => [.daemonHost, .hosts]
  | instantOnAccount .. => [.hosts]

def singleEndpointPerHost : CredentialType → Bool
  | dockerProxy .. | dockerSocket _ | podmanProxy .. | podmanSocket _ | unifiApiKey ..
  | unifiLocalAdmin .. | instantOnAccount .. => true
  | snmpV1 _ | snmpV2c _ | snmpV3 .. => false

def associatedService : CredentialType → IntegrationService
  | snmpV1 _ | snmpV2c _ | snmpV3 .. => .snmp
  | dockerProxy .. | dockerSocket _ => .docker
  | podmanProxy .. | podmanSocket _ => .podman
  | unifiApiKey .. | unifiLocalAdmin .. => .unifiController
  | instantOnAccount .. => .instantOn

def toQueryPayload : CredentialType → CredentialQueryPayload
  | snmpV1 community => .snmp ⟨.v1, secretToResolvable community, none⟩
  | snmpV2c community => .snmp ⟨.v2c, secretToResolvable community, none⟩
  | snmpV3 securityName authProtocol authPassword privProtocol privPassword contextName =>
    .snmp ⟨.v3, .value "",
      some ⟨securityName, authProtocol, secretToResolvable authPassword, privProtocol,
        secretToResolvable privPassword, contextName⟩⟩
  | dockerProxy port path sslCert sslKey sslChain =>
    .dockerProxy (containerProxyQuery port path sslCert sslKey sslChain)
  | dockerSocket socketPath => .dockerSocket ⟨socketPath⟩
  | podmanProxy port path sslCert sslKey sslChain =>
    .podmanProxy (containerProxyQuery port path sslCert sslKey sslChain)
  | podmanSocket socketPath => .podmanSocket ⟨socketPath⟩
  | unifiApiKey port site apiKey =>
    .unifiController ⟨port, site, .apiKey (secretToResolvable apiKey)⟩
  | unifiLocalAdmin port site username password =>
    .unifiController ⟨port, site, .localAdmin username (secretToResolvable password)⟩
  | instantOnAccount username password site =>
    -- a blank site means every site, which the wire spells as none
    .instantOn ⟨username, secretToResolvable password,
      site.filter fun s => trim s ≠ ""⟩

theorem singleEndpointPerHost_eq (t : CredentialType) :
    t.singleEndpointPerHost = decide (t.associatedService ≠ .snmp) := by
  cases t <;> rfl

end CredentialType

/-- The integration that a payload is for, `none` for the one no server sends. -/
def CredentialQueryPayload.service : CredentialQueryPayload → Option IntegrationService
  | snmp _ => some .snmp
  | dockerProxy _ | dockerSocket _ => some .docker
  | podmanProxy _ | podmanSocket _ => some .podman
  | unifiController _ => some .unifiController
  | instantOn _ => some .instantOn
  | unknown => none

@[simp] theorem CredentialType.service_toQueryPayload (t : CredentialType) :
    t.toQueryPayload.service = some t.associatedService := by
  cases t <;> rfl

structure Credential where
  id : Uuid
  organizationId : Uuid
  name : String
  credentialType : CredentialType
  deriving DecidableEq

structure Network where
  id : Uuid
  organizationId : Uuid
  deriving DecidableEq

/-- A host that a credential is assigned to, `none` for all of its addresses. -/
structure CredentialHostAssignment where
  hostId : Uuid
  ipAddressIds : Option (List Uuid)
  deriving DecidableEq

structure NetworkCredential where
  networkId : Uuid
  credentialId : Uuid
  deriving DecidableEq

structure HostCredential where
  hostId : Uuid
  credentialId : Uuid
  ipAddressIds : Option (List Uuid)
  deriving DecidableEq

def NetworkCredential.key (r : NetworkCredential) : Uuid × Uuid := (r.networkId, r.credentialId)

def HostCredential.key (r : HostCredential) : Uuid × Uuid := (r.hostId, r.credentialId)

end Scanopy
