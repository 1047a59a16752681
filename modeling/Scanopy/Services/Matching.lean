import Scanopy.Services.Requested

/-! The services and ports that a scan makes of one address. Definitions are matched in turn, and a
port that one binds is not offered to the later ones; what other leaves than ports return is bound
without being offered. -/

namespace Scanopy.Scan

structure DrawnPort where
  id : ℕ
  portType : PortType

namespace Pattern
variable (lib : MatchLibrary) (params : DiscoverySessionServiceMatchParams)

mutual

def ownPorts : Pattern → List PortType
  | anyOf patterns | allOf patterns => ownPortsAll patterns
  | not _ | port _ => []
  | pattern => match pattern.matches lib params with
    | .ok result => result.ports
    | .error _ => []

def ownPortsAll : List Pattern → List PortType
  | [] => []
  | p :: patterns => p.ownPorts ++ ownPortsAll patterns

end

end Pattern

section Ports

variable {results : List (Except String MatchResult)} {p : PortType}

theorem sortKey_injective {q : PortType} (h : p.sortKey = q.sortKey) : p.config = q.config := by
  unfold PortType.sortKey PortType.number PortType.protocol at h
  rcases hp : p.config with ⟨m, _ | _⟩ <;> rcases hq : q.config with ⟨n, _ | _⟩ <;>
    rw [hp, hq] at h <;> dsimp only at h
  all_goals first | omega | rw [BitVec.eq_of_toNat_eq (by omega : m.toNat = n.toNat)]

theorem mem_of_mem_sortDedup {ports : List PortType}
    (h : p ∈ PortType.sortDedup ports) : p ∈ ports :=
  (List.mem_insertionSort _).mp ((List.destutter_sublist _ _).subset h)

theorem pairwise_sortDedup (ports : List PortType) :
    (PortType.sortDedup ports).Pairwise fun a b => a.sortKey < b.sortKey := by
  have hsorted : (PortType.sortDedup ports).Pairwise fun a b => a.sortKey ≤ b.sortKey :=
    (List.pairwise_insertionSort _ ports).sublist (List.destutter_sublist _ _)
  have hchain : (PortType.sortDedup ports).IsChain fun a b => a.config ≠ b.config :=
    List.isChain_destutter _ _
  have hlt : (PortType.sortDedup ports).IsChain fun a b => a.sortKey < b.sortKey := by
    rw [List.isChain_iff_getElem] at hchain ⊢
    intro i hi
    have hle := List.pairwise_iff_getElem.mp hsorted i (i + 1) (by omega) hi (by omega)
    exact lt_of_le_of_ne hle fun heq => hchain i hi (sortKey_injective heq)
  have hpairwise := ((List.isChain_map PortType.sortKey).mpr hlt).pairwise
  rwa [List.pairwise_map] at hpairwise

theorem nodup_sortDedup (ports : List PortType) :
    ((PortType.sortDedup ports).map PortType.config).Nodup := by
  refine List.pairwise_map.mpr ((pairwise_sortDedup ports).imp fun {a b} hkey hconfig => ?_)
  unfold PortType.sortKey PortType.number PortType.protocol at hkey
  rw [hconfig] at hkey
  exact lt_irrefl _ hkey

variable {lib : MatchLibrary} {params : DiscoverySessionServiceMatchParams} {result : MatchResult}

open Pattern

theorem ownPortsAll_eq_flatMap (patterns : List Pattern) :
    ownPortsAll lib params patterns = patterns.flatMap (ownPorts lib params) := by
  induction patterns with
  | nil => rfl
  | cons p patterns ih => rw [ownPortsAll, ih, List.flatMap_cons]

structure Combines (results : List (Except String MatchResult)) (result : MatchResult) : Prop where
  nodup : (result.ports.map PortType.config).Nodup
  mem : ∀ p ∈ result.ports, ∃ part, .ok part ∈ results ∧ p ∈ part.ports

theorem combines_sortDedup {details : MatchDetails} :
    Combines results
      { ports := PortType.sortDedup ((matched results).flatMap (·.ports)), details } := by
  refine ⟨nodup_sortDedup _, fun p hp => ?_⟩
  obtain ⟨part, hpart, hp⟩ := List.mem_flatMap.mp (mem_of_mem_sortDedup hp)
  obtain ⟨r, hr, hsome⟩ := List.mem_filterMap.mp hpart
  cases r with
  | ok r => exact ⟨part, by rwa [← Option.some.inj hsome], hp⟩
  | error e => exact nomatch hsome

theorem combines_matchAnyOf
    (h : matchAnyOf results = .ok result) : Combines results result := by
  unfold matchAnyOf at h
  split at h
  · rw [← Except.ok.inj h]
    exact combines_sortDedup
  · exact nomatch h

theorem combines_matchAllOf
    (h : matchAllOf results = .ok result) : Combines results result := by
  unfold matchAllOf at h
  split at h
  · rw [← Except.ok.inj h]
    exact combines_sortDedup
  · exact nomatch h

theorem Combines.exists_pattern {patterns : List Pattern}
    (h : Combines (matchesAll lib params patterns) result) (hp : p ∈ result.ports) :
    ∃ pattern ∈ patterns, ∃ part, pattern.matches lib params = .ok part ∧ p ∈ part.ports := by
  obtain ⟨part, hpart, hp⟩ := h.mem p hp
  rw [matchesAll_eq_map] at hpart
  obtain ⟨pattern, hpattern, heq⟩ := List.mem_map.mp hpart
  exact ⟨pattern, hpattern, part, heq, hp⟩

theorem ports_matchPort (h : matchPort lib params p = .ok result) :
    ∃ matched ∈ params.unboundPorts, result.ports = [matched] := by
  unfold matchPort at h
  split at h
  · rename_i matched hfind
    exact ⟨matched, List.mem_of_find?_eq_some hfind, by rw [← Except.ok.inj h]⟩
  · exact nomatch h

theorem ports_matchNot {r : Except String MatchResult} (h : matchNot r = .ok result) :
    result.ports = [] := by
  cases r with
  | ok r => exact nomatch h
  | error e =>
    rw [← Except.ok.inj h]

theorem mem_ports_of_matches {pattern : Pattern} (h : pattern.matches lib params = .ok result)
    (hp : p ∈ result.ports) :
    p ∈ params.unboundPorts ∨ p ∈ pattern.ownPorts lib params := by
  induction pattern using Pattern.induction_on generalizing result with
  | anyOf patterns ih =>
    obtain ⟨q, hq, part, hpart, hp⟩ := (combines_matchAnyOf h).exists_pattern hp
    rw [ownPorts, ownPortsAll_eq_flatMap]
    exact (ih q hq hpart hp).imp_right fun hown => List.mem_flatMap.mpr ⟨q, hq, hown⟩
  | allOf patterns ih =>
    obtain ⟨q, hq, part, hpart, hp⟩ := (combines_matchAllOf h).exists_pattern hp
    rw [ownPorts, ownPortsAll_eq_flatMap]
    exact (ih q hq hpart hp).imp_right fun hown => List.mem_flatMap.mpr ⟨q, hq, hown⟩
  | not q ih =>
    rw [ports_matchNot h] at hp
    exact nomatch hp
  | leaf q hleaf =>
    cases q with
    | anyOf _ | allOf _ | not _ => exact nomatch hleaf
    | port q =>
      obtain ⟨matched, hmem, hports⟩ := ports_matchPort h
      rw [hports] at hp
      rw [List.mem_singleton.mp hp]
      exact .inl hmem
    | _ =>
      refine .inr ?_
      rw [ownPorts, h]
      · exact hp
      all_goals exact fun _ => nofun

end Ports

section Discovery

structure MatchSession where
  lib : MatchLibrary
  hostId : Uuid
  baseline : ServiceMatchBaselineParams
  gatewayIps : List IpAddr
  daemonId : Uuid
  networkId : Uuid

structure MatchState where
  services : List MatchedService
  hostPorts : List DrawnPort
  unboundPorts : List PortType
  containerMatched : Bool
  /-- How many ids have been drawn. -/
  drawn : ℕ

def drawPorts (drawn : ℕ) (ports : List PortType) : List DrawnPort :=
  ports.zipIdx.map fun (p, i) => ⟨drawn + i, p⟩

/-- `Service::from_discovery`, with the ids that were drawn before it. -/
def fromDiscovery (lib : MatchLibrary) (d : ServiceDefinition)
    (params : DiscoverySessionServiceMatchParams) (drawn : ℕ) :
    Option (MatchedService × List DrawnPort × Option Endpoint) :=
  match d.discoveryPattern.matches lib params with
  | .ok result =>
    let containerName := params.baseline.virtualizationMetadata.bind (·.containerName)
    let details : MatchDetails := if d.isGeneric then
        ⟨.container "Generic service" [result.details.reason], .notApplicable⟩
      else result.details
    let ports := drawPorts drawn result.ports
    let bindings := if result.ports.isEmpty then [.ipAddress params.baseline.ipAddress.id]
      else ports.map fun p => .port p.id params.baseline.ipAddress.id
    some ({
        hostId := params.hostId
        networkId := params.networkId
        serviceDefinition := d.id
        name := if d.isGeneric then containerName.getD d.name else d.name
        virtualizationMetadata := params.baseline.virtualizationMetadata
        virtualizationServiceId := params.baseline.virtualizationServiceId
        bindings
        details
        position := 0 }, ports, result.endpoint)
  | .error _ => none

def ServiceDefinition.priority (d : ServiceDefinition) : ℕ :=
  if !d.isGeneric then 0
  else if d.id = "Unclaimed Open Ports" then 3
  else if d.id = "Docker Container" || d.id = "Podman Container" || d.id = "Gateway" then 2
  else 1

namespace MatchSession
variable (session : MatchSession)

def sortedDefinitions : List ServiceDefinition :=
  session.lib.definitions.insertionSort fun a b => a.priority ≤ b.priority

def params (s : MatchState) (d : ServiceDefinition) : DiscoverySessionServiceMatchParams where
  hostId := session.hostId
  gatewayIps := session.gatewayIps
  daemonId := session.daemonId
  networkId := session.networkId
  baseline := session.baseline
  serviceDefinition := d.id
  matchedServices := s.services
  unboundPorts := s.unboundPorts

def matchStep (s : MatchState) (d : ServiceDefinition) : MatchState :=
  match fromDiscovery session.lib d (session.params s d) s.drawn with
  | some (service, ports, _) =>
    let s := { s with drawn := s.drawn + ports.length }
    if s.containerMatched then s
    else {
      s with
      services := s.services ++ [service]
      hostPorts := s.hostPorts ++ ports
      unboundPorts := s.unboundPorts.filter fun p => !(ports.map (·.portType)).contains p
      -- The first service of a container is the only one.
      containerMatched := (service.virtualizationMetadata.bind (·.containerId)).isSome }
  | none => s

def initial : MatchState := ⟨[], [], session.baseline.allPorts, false, 0⟩

def matchDefinitions (definitions : List ServiceDefinition) : MatchState :=
  definitions.foldl session.matchStep session.initial

def rank (service : MatchedService) : ℕ :=
  service.details.confidence.rank +
    if (session.lib.definitions.find? fun d => d.id = service.serviceDefinition).any (·.hasLogo) then 1
    else 0

def matchServices : List MatchedService × List DrawnPort :=
  let s := session.matchDefinitions session.sortedDefinitions
  (s.services.insertionSort fun a b => session.rank b ≤ session.rank a,
    s.hostPorts ++ drawPorts s.drawn s.unboundPorts)

end MatchSession
end Discovery

section Turns
variable {session : MatchSession} {s : MatchState} {d : ServiceDefinition}
variable {drawn : ℕ}

theorem map_portType_drawPorts (drawn : ℕ) (ports : List PortType) :
    (drawPorts drawn ports).map (·.portType) = ports := by
  rw [drawPorts, List.map_map]
  exact List.zipIdx_map_fst 0 ports

theorem id_of_mem_drawPorts {ports : List PortType} {p : DrawnPort}
    (h : p ∈ drawPorts drawn ports) : drawn ≤ p.id ∧ p.id < drawn + (drawPorts drawn ports).length := by
  obtain ⟨⟨q, i⟩, hmem, rfl⟩ := List.mem_map.mp h
  have hi := List.snd_lt_of_mem_zipIdx hmem
  rw [drawPorts, List.length_map, List.length_zipIdx]
  exact ⟨Nat.le_add_right drawn i, by simpa using hi⟩

def DrawnBinding.portId : DrawnBinding → Option ℕ
  | port portId _ => some portId
  | ipAddress _ => none

def MatchedService.portIds (service : MatchedService) : List ℕ :=
  service.bindings.filterMap (·.portId)

theorem fromDiscovery_eq_some {lib : MatchLibrary} {params : DiscoverySessionServiceMatchParams}
    {service : MatchedService} {ports : List DrawnPort} {endpoint : Option Endpoint}
    (h : fromDiscovery lib d params drawn = some (service, ports, endpoint)) :
    ∃ result, d.discoveryPattern.matches lib params = .ok result ∧
      ports = drawPorts drawn result.ports ∧
        ∀ id ∈ service.portIds, drawn ≤ id ∧ id < drawn + ports.length := by
  unfold fromDiscovery at h
  cases hmatches : d.discoveryPattern.matches lib params with
  | error e =>
    rw [hmatches] at h
    exact nomatch h
  | ok result =>
    rw [hmatches] at h
    obtain ⟨rfl, hports⟩ := Prod.mk.inj (Option.some.inj h)
    obtain ⟨rfl, -⟩ := Prod.mk.inj hports
    refine ⟨result, rfl, rfl, fun id hid => ?_⟩
    obtain ⟨binding, hbinding, hport⟩ := List.mem_filterMap.mp hid
    dsimp only at hbinding
    split at hbinding
    · rw [List.mem_singleton.mp hbinding] at hport
      exact nomatch hport
    · obtain ⟨p, hp, rfl⟩ := List.mem_map.mp hbinding
      obtain rfl := Option.some.inj hport
      exact id_of_mem_drawPorts hp

/-- What one turn does: the definition does not match, it matches after a container did, or its
service and ports are added. -/
theorem matchStep_cases (session : MatchSession) (s : MatchState) (d : ServiceDefinition) :
    session.matchStep s d = s ∨
    (s.containerMatched = true ∧ ∃ n, session.matchStep s d = { s with drawn := s.drawn + n }) ∨
    (s.containerMatched = false ∧ ∃ result service containerMatched,
      d.discoveryPattern.matches session.lib (session.params s d) = .ok result ∧
      (∀ id ∈ service.portIds, s.drawn ≤ id ∧
        id < s.drawn + (drawPorts s.drawn result.ports).length) ∧
      session.matchStep s d = {
        services := s.services ++ [service]
        hostPorts := s.hostPorts ++ drawPorts s.drawn result.ports
        unboundPorts := s.unboundPorts.filter fun p => !result.ports.contains p
        containerMatched
        drawn := s.drawn + (drawPorts s.drawn result.ports).length }) := by
  unfold MatchSession.matchStep
  cases hfrom : fromDiscovery session.lib d (session.params s d) s.drawn with
  | none => exact .inl rfl
  | some found =>
    obtain ⟨service, ports, endpoint⟩ := found
    obtain ⟨result, hmatches, rfl, hids⟩ := fromDiscovery_eq_some hfrom
    refine .inr ?_
    by_cases hcontainer : s.containerMatched = true
    · exact .inl ⟨hcontainer, _, if_pos hcontainer⟩
    · refine .inr ⟨Bool.eq_false_of_not_eq_true hcontainer, result, service,
        (service.virtualizationMetadata.bind (·.containerId)).isSome, hmatches, hids, ?_⟩
      dsimp only
      rw [if_neg hcontainer, map_portType_drawPorts]

end Turns

section Accounting
variable {session : MatchSession} {s : MatchState} {c : PortConfig}

def DrawnPort.config (p : DrawnPort) : PortConfig := p.portType.config

theorem map_config_drawPorts (drawn : ℕ) (ports : List PortType) :
    (drawPorts drawn ports).map DrawnPort.config = ports.map PortType.config := by
  have h := congrArg (List.map PortType.config) (map_portType_drawPorts drawn ports)
  rwa [List.map_map] at h

theorem contains_eq_false_iff {ports : List PortType} {p : PortType} :
    ports.contains p = false ↔ p.config ∉ ports.map PortType.config := by
  rw [← Bool.not_eq_true, List.contains_iff_exists_mem_beq, List.mem_map]
  refine not_congr (exists_congr fun q => and_congr_right fun _ => ?_)
  rw [Pattern.portType_beq]
  exact eq_comm

/-- What holds after every turn: an open port is bound or still offered, and no two services are
bound to one port row. -/
structure Accounted (session : MatchSession) (s : MatchState) : Prop where
  covered : ∀ p ∈ session.baseline.allPorts,
    p.config ∈ s.hostPorts.map DrawnPort.config ∨ p.config ∈ s.unboundPorts.map PortType.config
  drawn : ∀ service ∈ s.services, ∀ id ∈ service.portIds, id < s.drawn
  apart : s.services.Pairwise fun a b => a.portIds.Disjoint b.portIds

theorem Accounted.step (h : Accounted session s) (d : ServiceDefinition) :
    Accounted session (session.matchStep s d) := by
  rcases matchStep_cases session s d with hstep | ⟨-, n, hstep⟩ |
    ⟨-, result, service, container, -, hids, hstep⟩
  · rwa [hstep]
  · rw [hstep]
    exact ⟨h.covered, fun a ha id hid => (h.drawn a ha id hid).trans_le (Nat.le_add_right _ n),
      h.apart⟩
  · rw [hstep]
    refine ⟨fun p hp => ?_, fun a ha id hid => ?_, ?_⟩
    · dsimp only
      rw [List.map_append, List.mem_append, map_config_drawPorts]
      by_cases hbound : p.config ∈ result.ports.map PortType.config
      · exact .inl (.inr hbound)
      · refine (h.covered p hp).imp .inl fun hunbound => ?_
        obtain ⟨q, hq, hconfig⟩ := List.mem_map.mp hunbound
        refine List.mem_map.mpr ⟨q, List.mem_filter.mpr ⟨hq, ?_⟩, hconfig⟩
        rw [Bool.not_eq_true', contains_eq_false_iff, hconfig]
        exact hbound
    · rcases List.mem_append.mp ha with ha | ha
      · exact (h.drawn a ha id hid).trans_le (Nat.le_add_right _ _)
      · rw [List.mem_singleton.mp ha] at hid
        exact (hids id hid).2
    · dsimp only
      rw [List.pairwise_append]
      refine ⟨h.apart, List.pairwise_singleton _ _, fun a ha b hb id hid hid' => ?_⟩
      rw [List.mem_singleton.mp hb] at hid'
      exact absurd (h.drawn a ha id hid) (not_lt.mpr (hids id hid').1)

theorem accounted_matchDefinitions (session : MatchSession) (definitions : List ServiceDefinition) :
    Accounted session (session.matchDefinitions definitions) := by
  have hinit : Accounted session session.initial :=
    ⟨fun p hp => .inr (List.mem_map_of_mem hp), nofun, List.Pairwise.nil⟩
  exact List.foldlRecOn definitions _ hinit fun s hs d _ => hs.step d

/-- A match that binds a port beyond what was offered: a leaf returns it on its own although it is
not open or bound already, or it is returned twice. -/
def Overbinds (lib : MatchLibrary) (params : DiscoverySessionServiceMatchParams) (pattern : Pattern)
    (c : PortConfig) : Prop :=
  ∃ result, pattern.matches lib params = .ok result ∧
    (c ∈ (pattern.ownPorts lib params).map PortType.config ∧
        c ∉ params.unboundPorts.map PortType.config ∨
      1 < (result.ports.map PortType.config).count c)

def OverbindsAmong (session : MatchSession) (definitions : List ServiceDefinition) (c : PortConfig) :
    Prop :=
  ∃ before d after, definitions = before ++ d :: after ∧
    (session.matchDefinitions before).containerMatched = false ∧
      Overbinds session.lib (session.params (session.matchDefinitions before) d) d.discoveryPattern c

def CountedOnce (c : PortConfig) (s : MatchState) : Prop :=
  (s.hostPorts.map DrawnPort.config).count c + (s.unboundPorts.map PortType.config).count c ≤ 1

theorem CountedOnce.step (h : CountedOnce c s) (d : ServiceDefinition)
    (hoffered : s.containerMatched = false →
      ¬Overbinds session.lib (session.params s d) d.discoveryPattern c) :
    CountedOnce c (session.matchStep s d) := by
  rcases matchStep_cases session s d with hstep | ⟨-, n, hstep⟩ |
    ⟨hcontainer, result, service, container, hmatches, -, hstep⟩
  · rwa [hstep]
  · rw [hstep]
    exact h
  · have hnot := hoffered hcontainer
    have hcount : (result.ports.map PortType.config).count c ≤ 1 :=
      not_lt.mp fun hlt => hnot ⟨result, hmatches, .inr hlt⟩
    rw [hstep]
    unfold CountedOnce at h ⊢
    dsimp only
    rw [List.map_append, List.count_append, map_config_drawPorts]
    by_cases hbound : c ∈ result.ports.map PortType.config
    · -- The port was offered, so nobody has it yet, and it is not offered again.
      have hunbound : c ∈ s.unboundPorts.map PortType.config := by
        obtain ⟨p, hp, hconfig⟩ := List.mem_map.mp hbound
        rcases mem_ports_of_matches hmatches hp with hmem | hmem
        · exact List.mem_map.mpr ⟨p, hmem, hconfig⟩
        · by_contra hgone
          exact hnot ⟨result, hmatches, .inl ⟨List.mem_map.mpr ⟨p, hmem, hconfig⟩, hgone⟩⟩
      have hpos := List.count_pos_iff.mpr hunbound
      have hgone : c ∉ (s.unboundPorts.filter fun p => !result.ports.contains p).map
          PortType.config := by
        intro hmem
        obtain ⟨q, hq, hqconfig⟩ := List.mem_map.mp hmem
        have hfree := (List.mem_filter.mp hq).2
        rw [Bool.not_eq_true', contains_eq_false_iff, hqconfig] at hfree
        exact hfree hbound
      rw [List.count_eq_zero_of_not_mem hgone]
      omega
    · have hsublist : ((s.unboundPorts.filter fun p => !result.ports.contains p).map
          PortType.config).Sublist (s.unboundPorts.map PortType.config) :=
        List.filter_sublist.map PortType.config
      have hle := hsublist.count_le c
      rw [List.count_eq_zero_of_not_mem hbound]
      omega

theorem countedOnce_matchDefinitions (hdistinct : (session.baseline.allPorts.map PortType.config).Nodup)
    {definitions : List ServiceDefinition} (hoffered : ¬OverbindsAmong session definitions c) :
    CountedOnce c (session.matchDefinitions definitions) := by
  induction definitions using List.reverseRecOn with
  | nil =>
    have hcount := List.nodup_iff_count_le_one.mp hdistinct c
    simpa [CountedOnce, MatchSession.matchDefinitions, MatchSession.initial] using hcount
  | append_singleton definitions d ih =>
    have hbefore : ¬OverbindsAmong session definitions c := by
      rintro ⟨before, e, after, heq, hover⟩
      refine hoffered ⟨before, e, after ++ [d], ?_, hover⟩
      rw [heq, List.append_assoc, List.cons_append]
    have hstep := (ih hbefore).step d fun hcontainer hover =>
      hoffered ⟨definitions, d, [], rfl, hcontainer, hover⟩
    rwa [MatchSession.matchDefinitions, List.foldl_append, List.foldl_cons, List.foldl_nil]

theorem eq_of_count_le_one {α β : Type} [DecidableEq β] {f : α → β} {l : List α} {b : β}
    (h : (l.map f).count b ≤ 1) {x y : α} (hx : x ∈ l) (hy : y ∈ l) (hfx : f x = b)
    (hfy : f y = b) : x = y := by
  rw [List.count_eq_countP, List.countP_map, List.countP_eq_length_filter] at h
  have hxmem : x ∈ l.filter ((· == b) ∘ f) := List.mem_filter.mpr ⟨hx, by simp [hfx]⟩
  have hymem : y ∈ l.filter ((· == b) ∘ f) := List.mem_filter.mpr ⟨hy, by simp [hfy]⟩
  match hl : l.filter ((· == b) ∘ f), h with
  | [], _ => exact nomatch hl ▸ hxmem
  | [z], _ =>
    rw [hl, List.mem_singleton] at hxmem hymem
    exact hxmem.trans hymem.symm

def MatchedService.Binds (service : MatchedService) (ports : List DrawnPort) (c : PortConfig) : Prop :=
  ∃ p ∈ ports, p.id ∈ service.portIds ∧ p.config = c

/-- Every open port is returned, and a port that no match binds beyond what was offered is returned
once at most and bound by one service at most. -/
theorem matchServices_accounts (session : MatchSession)
    (hdistinct : (session.baseline.allPorts.map PortType.config).Nodup) :
    (∀ p ∈ session.baseline.allPorts, p.config ∈ session.matchServices.2.map DrawnPort.config) ∧
    ∀ c, ¬OverbindsAmong session session.sortedDefinitions c →
      (session.matchServices.2.map DrawnPort.config).count c ≤ 1 ∧
        session.matchServices.1.Pairwise fun a b =>
          ¬(a.Binds session.matchServices.2 c ∧ b.Binds session.matchServices.2 c) := by
  have haccounted := accounted_matchDefinitions session session.sortedDefinitions
  have hports : session.matchServices.2.map DrawnPort.config =
      (session.matchDefinitions session.sortedDefinitions).hostPorts.map DrawnPort.config ++
        (session.matchDefinitions session.sortedDefinitions).unboundPorts.map PortType.config := by
    unfold MatchSession.matchServices
    rw [List.map_append, map_config_drawPorts]
  refine ⟨fun p hp => ?_, fun c hoffered => ?_⟩
  · rw [hports, List.mem_append]
    exact haccounted.covered p hp
  · have hcount : (session.matchServices.2.map DrawnPort.config).count c ≤ 1 := by
      rw [hports, List.count_append]
      exact countedOnce_matchDefinitions hdistinct hoffered
    refine ⟨hcount, ?_⟩
    have hperm := List.perm_insertionSort (fun a b => session.rank b ≤ session.rank a)
      (session.matchDefinitions session.sortedDefinitions).services
    have hapart : session.matchServices.1.Pairwise fun a b => a.portIds.Disjoint b.portIds :=
      haccounted.apart.perm hperm.symm fun h => h.symm
    refine hapart.imp fun {a b} hdisjoint hbinds => ?_
    obtain ⟨⟨p, hp, hpa, hpc⟩, q, hq, hqb, hqc⟩ := hbinds
    obtain rfl := eq_of_count_le_one hcount hp hq hpc hqc
    exact hdisjoint hpa hqb

private def scanLibrary (definitions : List ServiceDefinition) : MatchLibrary where
  definitions
  companyName _ := none
  toLowercase s := String.ofList (s.toList.map Char.toLower)
  isAlphanumeric := Char.isAlphanum
  cidrText _ := "10.0.0.0/24"
  uuidText _ := "00000000-0000-0000-0000-000000000007"

private def scanOf (definitions : List ServiceDefinition) (ports : List PortType)
    (responses : List EndpointResponse) : MatchSession where
  lib := scanLibrary definitions
  hostId := 10
  baseline := {
    subnet := ⟨8, 0, 0, none, none, ⟨.v4 .lan, 9, "lan", none,
      .lan, none, .discovery, 0⟩⟩
    ipAddress := ⟨5, 0, 0, none, none, ⟨9, 10, 8, .v4 0x0A000005#32, none, none, 0, 0⟩⟩
    allPorts := ports
    endpointResponses := responses
    virtualizationMetadata := none
    virtualizationServiceId := none
    clientResponses := HashMap.empty
    managedDevice := none }
  gatewayIps := []
  daemonId := 7
  networkId := 9

private def switchDefinition : ServiceDefinition :=
  ⟨"Switch", true, false, .allOf [.not .isGateway, .allOf [.port .http, .port .telnet]]⟩

/-- A switch takes its two ports, and the third one is returned as it is. -/
theorem matchServices_accounts_switch :
    let session := scanOf [switchDefinition] [.http, .telnet, .ssh] []
    session.matchServices.1.length = 1 ∧
      (session.matchServices.2.map DrawnPort.config).count ⟨80, .tcp⟩ ≤ 1 := by
  intro session
  refine ⟨by decide, ((matchServices_accounts session (by decide)).2 ⟨80, .tcp⟩ ?_).1⟩
  rintro ⟨before, d, after, heq, -, result, hmatches, hover⟩
  cases before with
  | nil =>
    obtain ⟨rfl, rfl⟩ := List.cons.inj heq
    obtain rfl := Except.ok.inj (hmatches.symm.trans rfl)
    revert hover
    decide
  | cons e before =>
    have hlength := congrArg List.length heq
    simp [MatchSession.sortedDefinitions, session, scanOf, scanLibrary] at hlength

instance (service : MatchedService) (ports : List DrawnPort) (c : PortConfig) :
    Decidable (service.Binds ports c) :=
  inferInstanceAs (Decidable (∃ p ∈ ports, p.id ∈ service.portIds ∧ p.config = c))

/-- One page that two definitions recognise: the only open port is returned twice, and both services
are bound to it. -/
theorem matchServices_shared_page :
    let session := scanOf [⟨"WordPress", false, true, .endpoint .http "/" "wp-content" none⟩,
        ⟨"UptimeKuma", false, true, .endpoint .http "/" "Uptime Kuma" none⟩] [.http]
      [⟨⟨.http, some (.v4 0x0A000005#32), .http, "/"⟩, "<link href=/wp-content/a> Uptime Kuma", [], 200⟩]
    (session.baseline.allPorts.map PortType.config).Nodup ∧
      ¬(session.matchServices.2.map DrawnPort.config).Nodup ∧
        ¬session.matchServices.1.Pairwise fun a b =>
          ¬(a.Binds session.matchServices.2 ⟨80, .tcp⟩ ∧ b.Binds session.matchServices.2 ⟨80, .tcp⟩) := by
  decide

end Accounting

end Scanopy.Scan
