import Mathlib.Data.List.Destutter
import Scanopy.Credentials.Probes
import Scanopy.Graph.Context
import Scanopy.Services.Types

/-! The patterns by which a scan recognises services. A pattern is evaluated on the open ports and
the other evidence, and tells which ports and endpoints a scan has to try for it. -/

namespace Scanopy.Scan

structure PortConfig where
  number : BitVec 16
  protocol : TransportProtocol
  deriving DecidableEq

inductive PortType
  | ssh | telnet | dnsUdp | dnsTcp | samba | nfs | ftp | ipp | ldpTcp | ldpUdp | ldap | ldaps
  | kerberos | snmp | snmpAlt | rdp | ntp | sip | sipTls | rtsp | dhcp | http | mySql | postgreSQL
  | mongoDB | redis | msSql | docker | dockerTls | kubernetes | rabbitMqMgmt | cassandra
  | elasticsearch | influxDb | couchDb | kafka | http3000 | http5000 | http8080 | http8081
  | http8082 | http8888 | http9000 | https | https8443 | https9443 | https10443 | mqtt | mqttTls
  | amqp | amqpTls | wireguard | openVPN | bacnet | jetDirect
  | custom (config : PortConfig)

namespace PortType

def config : PortType → PortConfig
  | ssh => ⟨22, .tcp⟩
  | telnet => ⟨23, .tcp⟩
  | dnsTcp => ⟨53, .tcp⟩
  | dnsUdp => ⟨53, .udp⟩
  | samba => ⟨445, .tcp⟩
  | sip => ⟨5060, .tcp⟩
  | sipTls => ⟨5061, .tcp⟩
  | ldap => ⟨389, .tcp⟩
  | ldaps => ⟨636, .tcp⟩
  | kerberos => ⟨88, .tcp⟩
  | nfs => ⟨2049, .tcp⟩
  | ftp => ⟨21, .tcp⟩
  | ipp => ⟨631, .tcp⟩
  | ldpTcp => ⟨515, .tcp⟩
  | ldpUdp => ⟨515, .udp⟩
  | snmp => ⟨161, .udp⟩
  | snmpAlt => ⟨1161, .udp⟩
  | rdp => ⟨3389, .tcp⟩
  | ntp => ⟨123, .udp⟩
  | rtsp => ⟨554, .tcp⟩
  | dhcp => ⟨67, .udp⟩
  | http => ⟨80, .tcp⟩
  | http8080 => ⟨8080, .tcp⟩
  | https => ⟨443, .tcp⟩
  | https8443 => ⟨8443, .tcp⟩
  | mySql => ⟨3306, .tcp⟩
  | postgreSQL => ⟨5432, .tcp⟩
  | mongoDB => ⟨27017, .tcp⟩
  | redis => ⟨6379, .tcp⟩
  | msSql => ⟨1433, .tcp⟩
  | docker => ⟨2375, .tcp⟩
  | dockerTls => ⟨2376, .tcp⟩
  | kubernetes => ⟨6443, .tcp⟩
  | rabbitMqMgmt => ⟨15672, .tcp⟩
  | kafka => ⟨9092, .tcp⟩
  | http3000 => ⟨3000, .tcp⟩
  | http5000 => ⟨5000, .tcp⟩
  | http8081 => ⟨8081, .tcp⟩
  | http8082 => ⟨8082, .tcp⟩
  | http8888 => ⟨8888, .tcp⟩
  | http9000 => ⟨9000, .tcp⟩
  | https9443 => ⟨9443, .tcp⟩
  | https10443 => ⟨10443, .tcp⟩
  | cassandra => ⟨9042, .tcp⟩
  | elasticsearch => ⟨9200, .tcp⟩
  | influxDb => ⟨8086, .tcp⟩
  | couchDb => ⟨5984, .tcp⟩
  | custom config => config
  | mqtt => ⟨1883, .tcp⟩
  | mqttTls => ⟨8883, .tcp⟩
  | amqp => ⟨5672, .tcp⟩
  | amqpTls => ⟨5671, .tcp⟩
  | wireguard => ⟨51820, .udp⟩
  | openVPN => ⟨1194, .udp⟩
  | bacnet => ⟨47808, .udp⟩
  | jetDirect => ⟨9100, .tcp⟩

def isCustom : PortType → Bool
  | custom _ => true
  | _ => false

def number (p : PortType) : BitVec 16 := p.config.number

def protocol (p : PortType) : TransportProtocol := p.config.protocol

/-- Ports are equal if their numbers and protocols are, whatever they are called. -/
instance : BEq PortType := ⟨fun a b => a.config = b.config⟩

def sortKey (p : PortType) : ℕ :=
  2 * p.number.toNat + match p.protocol with
    | .udp => 0
    | .tcp => 1

def toText (p : PortType) : String :=
  toString p.number.toNat ++ "/" ++ match p.protocol with
    | .udp => "udp"
    | .tcp => "tcp"

def sortDedup (ports : List PortType) : List PortType :=
  (ports.insertionSort fun a b => a.sortKey ≤ b.sortKey).destutter fun a b => a.config ≠ b.config

end PortType

inductive ApplicationProtocol
  | http
  | https
  deriving DecidableEq

structure Endpoint where
  protocol : ApplicationProtocol
  ip : Option IpAddr
  portType : PortType
  path : String

/-- The address is no part of what an endpoint is, nor is the transport protocol. -/
instance : BEq Endpoint :=
  ⟨fun a b => a.protocol = b.protocol && a.portType.number = b.portType.number && a.path = b.path⟩

def Endpoint.forPattern (portType : PortType) (path : String) : Endpoint :=
  ⟨.http, none, portType, path⟩

structure EndpointResponse where
  endpoint : Endpoint
  body : String
  headers : List (String × String)
  status : BitVec 16

inductive MatchReason
  | reason (text : String)
  | container (text : String) (reasons : List MatchReason)

def MatchReason.toText : MatchReason → String
  | reason _ => "Reason"
  | container _ _ => "Container"

inductive MatchConfidence
  | notApplicable | low | medium | high | certain
  deriving DecidableEq

def MatchConfidence.rank : MatchConfidence → ℕ
  | notApplicable => 0
  | low => 1
  | medium => 2
  | high => 3
  | certain => 4

structure MatchDetails where
  reason : MatchReason
  confidence : MatchConfidence

structure MatchResult where
  ports : List PortType
  endpoint : Option Endpoint := none
  macVendor : Option String := none
  details : MatchDetails

def probeText : ClientProbe → String
  | .docker => "Docker"
  | .podman => "Podman"
  | .snmp => "Snmp"
  | .unifiController => "UnifiController"
  | .instantOn => "InstantOn"

/-- What a service that a scan found is bound to. Ports have no ids of the store yet: theirs are the
numbers of the draws. -/
inductive DrawnBinding
  | port (portId : ℕ) (ipAddressId : Uuid)
  | ipAddress (ipAddressId : Uuid)
  deriving DecidableEq

structure MatchedService where
  hostId : Uuid
  networkId : Uuid
  serviceDefinition : String
  name : String
  virtualizationMetadata : Option ServiceVirtualization
  virtualizationServiceId : Option Uuid
  bindings : List DrawnBinding
  details : MatchDetails
  position : ℤ

structure ServiceMatchBaselineParams where
  subnet : Subnet
  ipAddress : IPAddress
  allPorts : List PortType
  endpointResponses : List EndpointResponse
  virtualizationMetadata : Option ServiceVirtualization
  virtualizationServiceId : Option Uuid
  clientResponses : HashMap ClientProbe (List PortType)
  /-- The class of the device in the inventory of its controller. -/
  managedDevice : Option String

structure DiscoverySessionServiceMatchParams where
  hostId : Uuid
  gatewayIps : List IpAddr
  daemonId : Uuid
  networkId : Uuid
  baseline : ServiceMatchBaselineParams
  serviceDefinition : String
  matchedServices : List MatchedService
  unboundPorts : List PortType

structure StatusRange where
  first : BitVec 16
  last : BitVec 16

namespace StatusRange

def contains (r : StatusRange) (status : BitVec 16) : Bool := r.first ≤ status && status < r.last

/-- Success or redirection, if a pattern says nothing else. -/
def orDefault (r : Option StatusRange) : StatusRange := r.getD ⟨200, 400⟩

def toText (r : StatusRange) : String := toString r.first.toNat ++ ".." ++ toString r.last.toNat

end StatusRange

inductive Pattern
  | anyOf (patterns : List Pattern)
  | allOf (patterns : List Pattern)
  | not (pattern : Pattern)
  | port (port : PortType)
  | endpoint (port : PortType) (path body : String) (status : Option StatusRange)
  | header (port : Option PortType) (header value : String) (status : Option StatusRange)
  | subnetIsType (subnetType : SubnetType)
  | isGateway
  | macVendor (vendor : String)
  | custom (constraint : DiscoverySessionServiceMatchParams → Bool)
      (ports : DiscoverySessionServiceMatchParams → List PortType) (reason noMatchReason : String)
      (confidence : MatchConfidence)
  | clientResponse (probe : ClientProbe)
  | containerVirtualization
  | managedDeviceType (deviceType : String)
  | none

namespace Pattern

mutual

/-- The ports that a scan has to try. Those of endpoints are left to the requests themselves. -/
def ports : Pattern → List PortType
  | port p => [p]
  | anyOf patterns | allOf patterns => portsAll patterns
  | _ => []

def portsAll : List Pattern → List PortType
  | [] => []
  | p :: patterns => p.ports ++ portsAll patterns

end

mutual

def endpoints : Pattern → List Endpoint
  | endpoint p path _ .none => [.forPattern p path]
  | header (some p) _ _ _ => [.forPattern p "/"]
  | header .none _ _ _ => [.forPattern .http "/"]
  | anyOf patterns | allOf patterns => endpointsAll patterns
  | _ => []

def endpointsAll : List Pattern → List Endpoint
  | [] => []
  | p :: patterns => p.endpoints ++ endpointsAll patterns

end

end Pattern

structure ServiceDefinition where
  name : String
  isGeneric : Bool
  hasLogo : Bool
  discoveryPattern : Pattern

def ServiceDefinition.id (d : ServiceDefinition) : String := d.name

structure MatchLibrary where
  definitions : List ServiceDefinition
  companyName : BitVec 24 → Option String
  toLowercase : String → String
  isAlphanumeric : Char → Bool
  cidrText : IpCidr → String
  uuidText : Uuid → String

def containsText (text part : String) : Bool := part.toList <:+: text.toList

namespace Pattern
variable (lib : MatchLibrary) (params : DiscoverySessionServiceMatchParams)

def otherServicesPorts : List PortType :=
  PortType.sortDedup ((lib.definitions.filter fun d => d.id ≠ params.serviceDefinition).flatMap
    (·.discoveryPattern.ports))

def matchPort (p : PortType) : Except String MatchResult :=
  match params.unboundPorts.find? (· == p) with
  | some matched =>
    let details : MatchDetails :=
      if p.isCustom && !(otherServicesPorts lib params).contains p then
        ⟨.reason ("Port " ++ p.toText ++ " is open and is not used in other service match patterns"),
          .medium⟩
      else ⟨.reason ("Port " ++ p.toText ++ " is open"), .low⟩
    .ok { ports := [matched], details }
  | .none => .error ("Port " ++ p.toText ++ " is not open")

def headerMatches (p : Option PortType) (name value : String) (status : Option StatusRange)
    (r : EndpointResponse) : Bool :=
  p.all (r.endpoint.portType == ·) && (StatusRange.orDefault status).contains r.status &&
    r.headers.any fun (actualName, actualValue) =>
      lib.toLowercase actualName = lib.toLowercase name &&
        containsText (lib.toLowercase actualValue) (lib.toLowercase value)

def matchHeader (p : Option PortType) (name value : String) (status : Option StatusRange) :
    Except String MatchResult :=
  match params.baseline.endpointResponses.find? (headerMatches lib p name value status) with
  | some r =>
    let reasons := ("header " ++ name ++ " contained \"" ++ value ++ "\"") ::
      (status.map fun range => "status code " ++ toString r.status.toNat ++ " was in range " ++
        range.toText).toList
    let response := match p with
      | some p => "Response from " ++ toString p.number.toNat ++ " "
      | .none => "Response "
    .ok {
      ports := [r.endpoint.portType]
      endpoint := some r.endpoint
      details := ⟨.reason (response ++ " and ".intercalate reasons), .high⟩ }
  | .none => .error ("Could not find an header response on port " ++ toString (p.getD .http).number.toNat)

def endpointMatches (p : PortType) (path body : String) (status : Option StatusRange)
    (r : EndpointResponse) : Bool :=
  let endpoint := Endpoint.forPattern p path
  r.endpoint.protocol = endpoint.protocol && r.endpoint.portType.number = endpoint.portType.number &&
    r.endpoint.portType.protocol = endpoint.portType.protocol && r.endpoint.path = endpoint.path &&
    (StatusRange.orDefault status).contains r.status &&
    containsText (lib.toLowercase r.body) (lib.toLowercase body)

def matchEndpoint (p : PortType) (path body : String) (status : Option StatusRange) :
    Except String MatchResult :=
  match params.baseline.endpointResponses.find? (endpointMatches lib p path body status) with
  | some r =>
    let reasons := ("contained \"" ++ body ++ "\" in body") ::
      (status.map fun range => "status code was " ++ toString r.status.toNat ++ " was in range " ++
        range.toText).toList
    .ok {
      ports := [r.endpoint.portType]
      endpoint := some r.endpoint
      details := ⟨.reason ("Response for " ++ params.baseline.ipAddress.base.ipAddress.toText ++ ":" ++
        toString p.number.toNat ++ path ++ " " ++ " and ".intercalate reasons), .high⟩ }
  | .none => .error ("Could not find an endpoint response containing " ++ body)

def normalizeVendor (name : String) : String :=
  String.ofList ((lib.toLowercase (trim name)).toList.filter lib.isAlphanumeric)

def matchMacVendor (vendor : String) : Except String MatchResult :=
  match params.baseline.ipAddress.base.macAddress with
  | some mac =>
    match lib.companyName (mac.extractLsb' 24 24) with
    | some company =>
      if normalizeVendor lib vendor = normalizeVendor lib company then
        .ok {
          ports := []
          macVendor := some company
          details := ⟨.reason ("Mac address is from vendor " ++ company), .medium⟩ }
      else .error ("Mac address is not from vendor " ++ normalizeVendor lib vendor)
    | .none => .error "Could not find vendor for mac address in OUI database"
  | .none => .error ("IPAddress " ++ params.baseline.ipAddress.base.ipAddress.toText ++
      " does not have a mac address")

def lastPartOneOr254 : IpAddr → Bool
  | .v4 bits => bits.toNat % 2 ^ 8 == 1 || bits.toNat % 2 ^ 8 == 254
  | .v6 bits => bits.toNat % 2 ^ 16 == 1 || bits.toNat % 2 ^ 16 == 254

def matchIsGateway : Except String MatchResult :=
  let ip := params.baseline.ipAddress.base.ipAddress
  let gateways := params.gatewayIps.filter params.baseline.subnet.base.cidr.contains
  let found := fun reason : String => Except.ok { ports := [], details := ⟨.reason reason, .high⟩ }
  if ip ∈ gateways then
    found ("Host IP address is in routing table of daemon " ++ lib.uuidText params.daemonId)
  else if lastPartOneOr254 ip && gateways.length = 0 then
    found ("No other gateways in subnet " ++ lib.cidrText params.baseline.subnet.base.cidr ++
      " and IP address ends in 1 or 254")
  else .error ("IP address is not in routing table, and does not end in 1 or 254 with no other " ++
    "gateways identified in subnet")

def matchSubnetIsType (t : SubnetType) : Except String MatchResult :=
  let cidr := lib.cidrText params.baseline.subnet.base.cidr
  if params.baseline.subnet.base.subnetType = t then
    .ok { ports := [], details := ⟨.reason ("Subnet " ++ cidr ++ " is type " ++ t.displayName), .low⟩ }
  else .error ("Subnet " ++ cidr ++ " is not type " ++ t.displayName)

def matchCustom (constraint : DiscoverySessionServiceMatchParams → Bool)
    (ports : DiscoverySessionServiceMatchParams → List PortType) (reason noMatchReason : String)
    (confidence : MatchConfidence) : Except String MatchResult :=
  if constraint params then
    .ok { ports := ports params, details := ⟨.reason reason, confidence⟩ }
  else .error noMatchReason

def matchClientResponse (probe : ClientProbe) : Except String MatchResult :=
  match params.baseline.clientResponses.get probe with
  | some ports =>
    .ok { ports, details := ⟨.reason ("Client probe " ++ probeText probe ++ " succeeded"), .certain⟩ }
  | .none => .error ("Client probe " ++ probeText probe ++ " did not succeed")

def matchContainerVirtualization : Except String MatchResult :=
  match params.baseline.virtualizationMetadata with
  | some _ => .ok { ports := [], details := ⟨.reason "Service is running in a container", .low⟩ }
  | .none => .error "Service is not running in a container"

def matchManagedDeviceType (expected : String) : Except String MatchResult :=
  match params.baseline.managedDevice with
  | some deviceType =>
    if deviceType.toList.map Char.toLower = expected.toList.map Char.toLower then
      .ok {
        ports := []
        details := ⟨.reason ("Controller reported device type '" ++ deviceType ++ "'"), .certain⟩ }
    else .error ("Controller reported device type '" ++ deviceType ++ "', not '" ++ expected ++ "'")
  | .none => .error "Host was not reported by a management controller"

def matchNot : Except String MatchResult → Except String MatchResult
  | .ok result => .error result.details.reason.toText
  | .error e => .ok { ports := [], details := ⟨.reason e, .low⟩ }

def matched (results : List (Except String MatchResult)) : List MatchResult :=
  results.filterMap Except.toOption

def noMatchErrors (results : List (Except String MatchResult)) : String :=
  results.foldl (fun errors result => match result with
    | .ok _ => errors
    | .error e => errors ++ ", " ++ e) ""

def matchAnyOf (results : List (Except String MatchResult)) : Except String MatchResult :=
  if results.any (·.isOk) then
    .ok {
      ports := PortType.sortDedup ((matched results).flatMap (·.ports))
      details := ⟨.container "Any of" ((matched results).map (·.details.reason)),
        (matched results).foldl (fun confidence result =>
          if confidence.rank < result.details.confidence.rank then result.details.confidence
          else confidence) .low⟩ }
  else .error (noMatchErrors results)

def boost (confidences : List MatchConfidence) : MatchConfidence :=
  let max := ((confidences.insertionSort fun a b => a.rank ≤ b.rank).getLast?).getD .low
  if 3 < confidences.length then
    match max with
    | .low => .medium
    | .medium => .high
    | max => max
  else max

def matchAllOf (results : List (Except String MatchResult)) : Except String MatchResult :=
  if results.all (·.isOk) then
    .ok {
      ports := PortType.sortDedup ((matched results).flatMap (·.ports))
      details := ⟨.container "All of" ((matched results).map (·.details.reason)),
        boost ((matched results).map (·.details.confidence))⟩ }
  else .error (noMatchErrors results)

mutual

def «matches» : Pattern → Except String MatchResult
  | anyOf patterns => matchAnyOf (matchesAll patterns)
  | allOf patterns => matchAllOf (matchesAll patterns)
  | not pattern => matchNot pattern.matches
  | port p => matchPort lib params p
  | endpoint p path body status => matchEndpoint lib params p path body status
  | header p name value status => matchHeader lib params p name value status
  | subnetIsType t => matchSubnetIsType lib params t
  | isGateway => matchIsGateway lib params
  | macVendor vendor => matchMacVendor lib params vendor
  | custom constraint ports reason noMatchReason confidence =>
    matchCustom params constraint ports reason noMatchReason confidence
  | clientResponse probe => matchClientResponse params probe
  | containerVirtualization => matchContainerVirtualization params
  | managedDeviceType deviceType => matchManagedDeviceType params deviceType
  | .none => .error "No match pattern provided"

def matchesAll : List Pattern → List (Except String MatchResult)
  | [] => []
  | p :: patterns => p.matches :: matchesAll patterns

end

end Pattern
end Scanopy.Scan
