import Scanopy.Credentials.Mapping

/-! The probes of a daemon at one address. Each mapping tries its credentials until one works; the
mappings are merged in the order they were sent in, so the last that works is recorded. -/

namespace Scanopy

/-- The variants of a payload without their fields, by which the daemon finds the integration. -/
inductive CredentialQueryPayloadDiscriminants
  | snmp | dockerProxy | dockerSocket | podmanProxy | podmanSocket | unifiController | instantOn
  | unknown
  deriving DecidableEq

structure PortType where
  number : BitVec 16
  protocol : TransportProtocol
  deriving DecidableEq

namespace CredentialQueryPayload

def discriminant : CredentialQueryPayload → CredentialQueryPayloadDiscriminants
  | snmp _ => .snmp
  | dockerProxy _ => .dockerProxy
  | dockerSocket _ => .dockerSocket
  | podmanProxy _ => .podmanProxy
  | podmanSocket _ => .podmanSocket
  | unifiController _ => .unifiController
  | instantOn _ => .instantOn
  | unknown => .unknown

def discoveryLabel : CredentialQueryPayload → String
  | snmp _ => "SNMP queries"
  | dockerProxy _ => "Docker proxy connection"
  | dockerSocket _ => "Docker socket connection"
  | podmanProxy _ => "Podman proxy connection"
  | podmanSocket _ => "Podman socket connection"
  | unifiController _ => "UniFi controller connection"
  | instantOn _ => "Instant On portal connection"
  | unknown => "unknown credential"

end CredentialQueryPayload

/-- `probe_gate_ports` of an integration: the ports that must be open before it probes. -/
def probeGatePorts : CredentialQueryPayloadDiscriminants → CredentialQueryPayload → List PortType
  | .dockerProxy, .dockerProxy c | .podmanProxy, .podmanProxy c => [⟨c.port, .tcp⟩]
  | .unifiController, .unifiController c => [⟨c.port, .tcp⟩]
  | _, _ => []

inductive AttemptOutcome
  | rejected
  | unreachable
  | timedOut
  | notThisService
  | tlsFailed
  | malformed
  | collectionFailed
  | collectionTimedOut
  | cancelled
  deriving DecidableEq

structure ProbeFailure where
  outcome : AttemptOutcome
  message : String

inductive ClientProbe
  | docker | podman | snmp | unifiController | instantOn
  deriving DecidableEq

/-- What a probe that works hands on; `H` is the state that it keeps alive. -/
structure ProbeSuccess (H : Type) where
  clientProbe : ClientProbe
  ports : List PortType
  handle : Option H

inductive CredentialIssueReason
  | targetNotScanned
  | targetNotResponding
  | gateClosed (ports : List PortType)
  | attempted (outcome : AttemptOutcome) (message : String)
  deriving DecidableEq

structure CredentialIssue where
  label : String
  ip : IpAddr
  reason : CredentialIssueReason
  deriving DecidableEq

def issueForAttempt (label : String) (ip : IpAddr) (failure : ProbeFailure) (userAssigned : Bool) :
    Option CredentialIssue :=
  if !userAssigned || failure.outcome = .cancelled then none
  else some ⟨label, ip, .attempted failure.outcome failure.message⟩

/-- What became of a mapping at an address. -/
inductive Disposition
  | unresolved
  | probed
  | suppressed (reason : String)
  | failed (failure : ProbeFailure)

structure DispositionEntry where
  label : String
  discriminant : CredentialQueryPayloadDiscriminants
  userAssigned : Bool
  disposition : Disposition

def resolveLedger (ledger : List DispositionEntry) (ip : IpAddr) : List CredentialIssue :=
  ledger.filterMap fun entry => match entry.disposition with
    | .failed failure => issueForAttempt entry.label ip failure entry.userAssigned
    | .unresolved | .probed | .suppressed _ => none

structure IntegrationProbeResults (H : Type) where
  clientResponses : HashMap ClientProbe (List PortType) := HashMap.empty
  probeHandles : HashMap CredentialQueryPayloadDiscriminants H := HashMap.empty
  workingCredentialIds :
    HashMap CredentialQueryPayloadDiscriminants (Option Uuid × CredentialQueryPayload) :=
      HashMap.empty
  additionalPorts : List PortType := []
  credentialIssues : List CredentialIssue := []

namespace CredentialMapping
variable (m : CredentialMapping CredentialQueryPayload)

def leading : Option CredentialQueryPayload :=
  m.defaultCredential.or (m.ipOverrides.head?.map (·.credential))

def userAssigned (ip : IpAddr) : Bool :=
  m.ipOverrides.any fun o => o.ip = ip && o.credentialId ≠ Uuid.nil

end CredentialMapping

structure ProbeEnv (H : Type) where
  ip : IpAddr
  openPorts : List PortType
  skipGate : Bool
  probe : CredentialQueryPayloadDiscriminants → CredentialQueryPayload →
    Except ProbeFailure (ProbeSuccess H)

structure ProbeSlot where
  entry : DispositionEntry
  issue : Option CredentialIssue := none
  task : Option (List (CredentialQueryPayload × Option Uuid)) := none

structure ProbeWinner (H : Type) where
  discriminant : CredentialQueryPayloadDiscriminants
  credentialId : Option Uuid
  credential : CredentialQueryPayload
  success : ProbeSuccess H

namespace ProbeEnv
variable {H : Type} (env : ProbeEnv H)

def gateOpen (d : CredentialQueryPayloadDiscriminants) (credential : CredentialQueryPayload) :
    Bool :=
  env.skipGate || (probeGatePorts d credential).all (env.openPorts.contains ·)

/-- The first pass over a mapping. A mapping without a credential is passed over; a type that the
daemon does not know is a failure. -/
def openSlot (m : CredentialMapping CredentialQueryPayload) : Option ProbeSlot :=
  m.leading.map fun leading =>
    let d := leading.discriminant
    let entry (disposition : Disposition) : DispositionEntry :=
      ⟨leading.discoveryLabel, d, m.userAssigned env.ip, disposition⟩
    if d = .unknown then
      ⟨entry (.failed ⟨.malformed,
        "this daemon is too old to use this credential type; upgrade it"⟩), none, none⟩
    else
      let credentials := resolveCredentialsForIp m env.ip
      match credentials with
      | [] => ⟨entry (.suppressed "no credential in this mapping applies to this address"), none,
          none⟩
      | (first, _) :: _ =>
        if env.gateOpen d first then ⟨entry .unresolved, none, some credentials⟩
        else match credentials.find? fun c => c.2.isSome with
          | some (credential, _) =>
            ⟨entry (.suppressed "gate closed; reported as GateClosed"),
              some ⟨credential.discoveryLabel, env.ip, .gateClosed (probeGatePorts d first)⟩, none⟩
          | none =>
            ⟨entry (.suppressed "gate closed on a network default, which is routine on a sweep"),
              none, none⟩

/-- One task: the credentials in order, up to the first that works. The failures before it are
forgotten then. -/
def runTask (d : CredentialQueryPayloadDiscriminants) :
    List (CredentialQueryPayload × Option Uuid) → List CredentialIssue →
      Option (ProbeWinner H) × List CredentialIssue
  | [], failures => (none, failures)
  | (credential, id) :: rest, failures =>
    match env.probe d credential with
    | .ok success => (some ⟨d, id, credential, success⟩, [])
    | .error failure => runTask d rest
        (failures ++ (issueForAttempt credential.discoveryLabel env.ip failure id.isSome).toList)

def closeSlot (slot : ProbeSlot) :
    Option (ProbeWinner H) × List CredentialIssue × DispositionEntry :=
  match slot.task with
  | none => (none, [], slot.entry)
  | some credentials =>
    match env.runTask slot.entry.discriminant credentials [] with
    | (some winner, _) => (some winner, [], { slot.entry with disposition := .probed })
    | (none, []) => (none, [], { slot.entry with
        disposition := .suppressed "every credential here is a network default; routine" })
    | (none, failures) => (none, failures, { slot.entry with
        disposition := .suppressed "reported by attempt_credential" })

def merge (results : IntegrationProbeResults H) (winner : ProbeWinner H) :
    IntegrationProbeResults H :=
  let s := winner.success
  { results with
    clientResponses := results.clientResponses.insert s.clientProbe s.ports
    probeHandles := match s.handle with
      | some handle => results.probeHandles.insert winner.discriminant handle
      | none => results.probeHandles
    workingCredentialIds := results.workingCredentialIds.insert winner.discriminant
      (winner.credentialId, winner.credential)
    additionalPorts := s.ports.foldl (fun ports port =>
      if port ∈ env.openPorts ++ ports then ports else ports ++ [port]) results.additionalPorts }

/-- `probe_integrations`. A scan that is cancelled before the end of the probes has no results. -/
def probeIntegrations (cancelled : Bool)
    (mappings : List (CredentialMapping CredentialQueryPayload)) :
    Except String (IntegrationProbeResults H) :=
  if cancelled then .error "Discovery was cancelled"
  else
    let slots := mappings.filterMap env.openSlot
    let closed := slots.map env.closeSlot
    let issues := slots.filterMap (·.issue) ++ closed.flatMap (·.2.1) ++
      resolveLedger (closed.map (·.2.2)) env.ip
    .ok ((closed.filterMap (·.1)).foldl env.merge { credentialIssues := issues })

end ProbeEnv

end Scanopy
