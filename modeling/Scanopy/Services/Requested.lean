import Scanopy.Services.Patterns

/-! What a pattern is evaluated on and what a scan requests for it. On the requested evidence alone
it gives the same answer, unless a leaf was satisfied by something that it does not ask for. -/

namespace Scanopy.Scan

open List Function

def DiscoverySessionServiceMatchParams.restrict (params : DiscoverySessionServiceMatchParams)
    (pattern : Pattern) : DiscoverySessionServiceMatchParams :=
  { params with
    unboundPorts := params.unboundPorts.filter pattern.ports.contains
    baseline := { params.baseline with
      allPorts := params.baseline.allPorts.filter pattern.ports.contains
      endpointResponses := params.baseline.endpointResponses.filter fun r =>
        pattern.endpoints.contains r.endpoint } }

namespace Pattern

mutual

def subpatterns : Pattern → List Pattern
  | anyOf patterns => anyOf patterns :: subpatternsAll patterns
  | allOf patterns => allOf patterns :: subpatternsAll patterns
  | not pattern => not pattern :: pattern.subpatterns
  | pattern => [pattern]

def subpatternsAll : List Pattern → List Pattern
  | [] => []
  | p :: patterns => p.subpatterns ++ subpatternsAll patterns

end

def isLeaf : Pattern → Bool
  | anyOf _ | allOf _ | not _ => false
  | _ => true

def leaves (pattern : Pattern) : List Pattern := pattern.subpatterns.filter (·.isLeaf)

def readsScan : Pattern → Bool
  | port _ | endpoint _ _ _ _ | header _ _ _ _ => true
  | _ => false

mutual

def plain : Pattern → Bool
  | anyOf patterns | allOf patterns => plainAll patterns
  | not pattern => pattern.leaves.all fun leaf => !leaf.readsScan
  | endpoint _ _ _ status => status.isNone
  | _ => true

def plainAll : List Pattern → Bool
  | [] => true
  | p :: patterns => p.plain && plainAll patterns

end

/-- The leaf keeps its answer: a port that is open is one to try, a response that the leaf has is
one to an endpoint that is requested, and a function of the definition does not depend on the rest. -/
def Requested (lib : MatchLibrary) (params : DiscoverySessionServiceMatchParams) (pattern : Pattern) :
    Pattern → Prop
  | port p => params.unboundPorts.contains p → pattern.ports.contains p
  | endpoint p path body status =>
    params.baseline.endpointResponses.any (endpointMatches lib p path body status) →
      pattern.endpoints.contains (.forPattern p path)
  | header p name value status =>
    params.baseline.endpointResponses.any (headerMatches lib p name value status) →
      params.baseline.endpointResponses.any fun r =>
        headerMatches lib p name value status r && pattern.endpoints.contains r.endpoint
  | custom constraint _ _ _ _ => constraint (params.restrict pattern) = constraint params
  | _ => True

section Evaluation
variable (lib : MatchLibrary) (params : DiscoverySessionServiceMatchParams)

theorem matchesAll_eq_map (patterns : List Pattern) :
    matchesAll lib params patterns = patterns.map («matches» lib params) := by
  induction patterns with
  | nil => rfl
  | cons p patterns ih => rw [matchesAll, ih, map_cons]

theorem subpatternsAll_eq_flatMap (patterns : List Pattern) :
    subpatternsAll patterns = patterns.flatMap subpatterns := by
  induction patterns with
  | nil => rfl
  | cons p patterns ih => rw [subpatternsAll, ih, flatMap_cons]

theorem isOk_matchAnyOf (results : List (Except String MatchResult)) :
    (matchAnyOf results).isOk = results.any (·.isOk) := by
  unfold matchAnyOf
  split
  · rename_i hany
    exact hany.symm
  · rename_i hany
    rw [Bool.not_eq_true] at hany
    exact hany.symm

theorem isOk_matchAllOf (results : List (Except String MatchResult)) :
    (matchAllOf results).isOk = results.all (·.isOk) := by
  unfold matchAllOf
  split
  · rename_i hall
    exact hall.symm
  · rename_i hall
    rw [Bool.not_eq_true] at hall
    exact hall.symm

theorem isOk_matchNot (result : Except String MatchResult) : (matchNot result).isOk = !result.isOk := by
  cases result <;> rfl

theorem isOk_matchPort (p : PortType) :
    (matchPort lib params p).isOk = params.unboundPorts.any (· == p) := by
  rw [← isSome_find?]
  unfold matchPort
  cases params.unboundPorts.find? (· == p) <;> rfl

theorem isOk_matchEndpoint (p : PortType) (path body : String) (status : Option StatusRange) :
    (matchEndpoint lib params p path body status).isOk =
      params.baseline.endpointResponses.any (endpointMatches lib p path body status) := by
  rw [← isSome_find?]
  unfold matchEndpoint
  cases params.baseline.endpointResponses.find? (endpointMatches lib p path body status) <;> rfl

theorem isOk_matchHeader (p : Option PortType) (name value : String) (status : Option StatusRange) :
    (matchHeader lib params p name value status).isOk =
      params.baseline.endpointResponses.any (headerMatches lib p name value status) := by
  rw [← isSome_find?]
  unfold matchHeader
  cases params.baseline.endpointResponses.find? (headerMatches lib p name value status) <;> rfl

theorem isOk_matchCustom (constraint : DiscoverySessionServiceMatchParams → Bool)
    (ports : DiscoverySessionServiceMatchParams → List PortType) (reason noMatchReason : String)
    (confidence : MatchConfidence) :
    (matchCustom params constraint ports reason noMatchReason confidence).isOk =
      constraint params := by
  unfold matchCustom
  cases constraint params <;> rfl

end Evaluation

section Induction

theorem induction_on {motive : Pattern → Prop}
    (anyOf : ∀ patterns, (∀ p ∈ patterns, motive p) → motive (anyOf patterns))
    (allOf : ∀ patterns, (∀ p ∈ patterns, motive p) → motive (allOf patterns))
    (not : ∀ pattern, motive pattern → motive (not pattern))
    (leaf : ∀ pattern, pattern.isLeaf → motive pattern) (pattern : Pattern) : motive pattern := by
  refine @Pattern.rec motive (fun patterns => ∀ p ∈ patterns, motive p) anyOf allOf not
    (fun p => leaf (.port p) rfl) (fun p path body status => leaf (.endpoint p path body status) rfl)
    (fun p name value status => leaf (.header p name value status) rfl)
    (fun t => leaf (.subnetIsType t) rfl) (leaf .isGateway rfl) (fun v => leaf (.macVendor v) rfl)
    (fun c ports reason noMatch confidence => leaf (.custom c ports reason noMatch confidence) rfl)
    (fun probe => leaf (.clientResponse probe) rfl) (leaf .containerVirtualization rfl)
    (fun t => leaf (.managedDeviceType t) rfl) (leaf .none rfl) ?_ ?_ pattern
  · exact fun p hp => nomatch hp
  · intro head tail hhead htail p hp
    rcases mem_cons.mp hp with rfl | hp
    · exact hhead
    · exact htail p hp

variable {pattern q r : Pattern} {patterns : List Pattern}

theorem mem_subpatterns_self (pattern : Pattern) : pattern ∈ pattern.subpatterns := by
  cases pattern <;> simp [subpatterns]

theorem mem_subpatternsAll : q ∈ subpatternsAll patterns ↔ ∃ p ∈ patterns, q ∈ p.subpatterns := by
  rw [subpatternsAll_eq_flatMap, mem_flatMap]

theorem mem_subpatterns_trans (hq : q ∈ pattern.subpatterns) (hr : r ∈ q.subpatterns) :
    r ∈ pattern.subpatterns := by
  induction pattern using induction_on with
  | anyOf patterns ih =>
    rcases mem_cons.mp hq with rfl | hq
    · exact hr
    · obtain ⟨p, hp, hqp⟩ := mem_subpatternsAll.mp hq
      exact mem_cons_of_mem _ (mem_subpatternsAll.mpr ⟨p, hp, ih p hp hqp⟩)
  | allOf patterns ih =>
    rcases mem_cons.mp hq with rfl | hq
    · exact hr
    · obtain ⟨p, hp, hqp⟩ := mem_subpatternsAll.mp hq
      exact mem_cons_of_mem _ (mem_subpatternsAll.mpr ⟨p, hp, ih p hp hqp⟩)
  | not p ih =>
    rcases mem_cons.mp hq with rfl | hq
    · exact hr
    · exact mem_cons_of_mem _ (ih hq)
  | leaf p hleaf =>
    cases p with
    | anyOf _ | allOf _ | not _ => exact nomatch hleaf
    | _ => rwa [mem_singleton.mp hq] at hr

theorem mem_leaves : q ∈ pattern.leaves ↔ q ∈ pattern.subpatterns ∧ q.isLeaf = true := mem_filter

theorem leaves_subset (hq : q ∈ pattern.subpatterns) : q.leaves ⊆ pattern.leaves := by
  intro l hl
  obtain ⟨hl, hleaf⟩ := mem_leaves.mp hl
  exact mem_leaves.mpr ⟨mem_subpatterns_trans hq hl, hleaf⟩

end Induction

section Restrict
variable {lib : MatchLibrary} {params : DiscoverySessionServiceMatchParams} {pattern : Pattern}

theorem any_filter_eq_iff {α : Type} {l : List α} {keep found : α → Bool} :
    (l.filter keep).any found = l.any found ↔
      (l.any found = true → l.any (fun a => found a && keep a) = true) := by
  rw [any_filter]
  have hand : (l.any fun a => keep a && found a) = l.any fun a => found a && keep a := by
    simp only [Bool.and_comm]
  rw [hand]
  constructor
  · intro heq h
    rwa [heq]
  · intro himp
    rw [Bool.eq_iff_iff]
    refine ⟨fun h => ?_, himp⟩
    obtain ⟨a, ha, hfound⟩ := List.any_eq_true.mp h
    exact List.any_eq_true.mpr ⟨a, ha, (Bool.and_eq_true_iff.mp hfound).1⟩

theorem contains_congr {α : Type} [BEq α] [EquivBEq α] {l : List α} {a b : α} (h : a == b) :
    l.contains a = l.contains b := by
  rw [Bool.eq_iff_iff, contains_iff_exists_mem_beq, contains_iff_exists_mem_beq]
  constructor
  · rintro ⟨c, hc, hac⟩
    exact ⟨c, hc, BEq.trans (BEq.symm h) hac⟩
  · rintro ⟨c, hc, hbc⟩
    exact ⟨c, hc, BEq.trans h hbc⟩

theorem portType_beq {p q : PortType} : (p == q) = true ↔ p.config = q.config := decide_eq_true_iff

theorem endpoint_beq {a b : Endpoint} : (a == b) = true ↔ a.protocol = b.protocol ∧
    a.portType.number = b.portType.number ∧ a.path = b.path := by
  change (_ && _ && _) = true ↔ _
  simp only [Bool.and_eq_true, decide_eq_true_eq, and_assoc]

instance : EquivBEq PortType where
  rfl := portType_beq.mpr rfl
  symm h := portType_beq.mpr (portType_beq.mp h).symm
  trans h h' := portType_beq.mpr ((portType_beq.mp h).trans (portType_beq.mp h'))

instance : EquivBEq Endpoint where
  rfl := endpoint_beq.mpr ⟨rfl, rfl, rfl⟩
  symm h := by
    obtain ⟨hprotocol, hnumber, hpath⟩ := endpoint_beq.mp h
    exact endpoint_beq.mpr ⟨hprotocol.symm, hnumber.symm, hpath.symm⟩
  trans h h' := by
    obtain ⟨hprotocol, hnumber, hpath⟩ := endpoint_beq.mp h
    obtain ⟨hprotocol', hnumber', hpath'⟩ := endpoint_beq.mp h'
    exact endpoint_beq.mpr ⟨hprotocol.trans hprotocol', hnumber.trans hnumber', hpath.trans hpath'⟩

theorem beq_forPattern_of_endpointMatches {p : PortType} {path body : String}
    {status : Option StatusRange} {r : EndpointResponse}
    (h : endpointMatches lib p path body status r = true) :
    (r.endpoint == .forPattern p path) = true := by
  unfold endpointMatches at h
  simp only [Bool.and_eq_true, decide_eq_true_eq] at h
  obtain ⟨⟨⟨⟨⟨hprotocol, hnumber⟩, -⟩, hpath⟩, -⟩, -⟩ := h
  exact endpoint_beq.mpr ⟨hprotocol, hnumber, hpath⟩

theorem any_and_keep_iff {α : Type} {l : List α} {keep found : α → Bool} {kept : Bool}
    (h : ∀ a, found a = true → keep a = kept) :
    (l.any found = true → l.any (fun a => found a && keep a) = true) ↔
      (l.any found = true → kept = true) := by
  refine forall_congr' fun hany => ?_
  obtain ⟨a, ha, hfound⟩ := List.any_eq_true.mp hany
  rw [List.any_eq_true]
  constructor
  · rintro ⟨b, hb, hkeep⟩
    obtain ⟨hfound, hkeep⟩ := Bool.and_eq_true_iff.mp hkeep
    rwa [h b hfound] at hkeep
  · intro hkept
    exact ⟨a, ha, Bool.and_eq_true_iff.mpr ⟨hfound, (h a hfound).trans hkept⟩⟩

theorem isOk_leaf_iff {leaf : Pattern} (hleaf : leaf.isLeaf = true) :
    (leaf.matches lib (params.restrict pattern)).isOk = (leaf.matches lib params).isOk ↔
      Requested lib params pattern leaf := by
  cases leaf with
  | anyOf _ | allOf _ | not _ => exact nomatch hleaf
  | port p =>
    rw [«matches», «matches», isOk_matchPort, isOk_matchPort]
    have hopen : params.unboundPorts.contains p = params.unboundPorts.any (· == p) := by
      rw [contains_eq_any_beq]
      simp only [BEq.comm]
    change _ ↔ (params.unboundPorts.contains p = true → pattern.ports.contains p = true)
    rw [hopen]
    exact any_filter_eq_iff.trans (any_and_keep_iff fun q hq => contains_congr hq)
  | endpoint p path body status =>
    rw [«matches», «matches», isOk_matchEndpoint, isOk_matchEndpoint]
    refine any_filter_eq_iff.trans (any_and_keep_iff fun r hr => ?_)
    exact contains_congr (beq_forPattern_of_endpointMatches hr)
  | header p name value status =>
    rw [«matches», «matches», isOk_matchHeader, isOk_matchHeader]
    exact any_filter_eq_iff
  | custom constraint ports reason noMatchReason confidence =>
    rw [«matches», «matches», isOk_matchCustom, isOk_matchCustom]
    exact Iff.rfl
  | _ => exact iff_of_true rfl trivial

theorem isOk_of_leaves {q : Pattern} (h : ∀ leaf ∈ q.leaves, Requested lib params pattern leaf) :
    (q.matches lib (params.restrict pattern)).isOk = (q.matches lib params).isOk := by
  induction q using induction_on with
  | anyOf patterns ih =>
    have hsame : ∀ p ∈ patterns, (p.matches lib (params.restrict pattern)).isOk =
        (p.matches lib params).isOk := fun p hp => ih p hp fun leaf hleaf =>
      h leaf (leaves_subset (mem_cons_of_mem _ (mem_subpatternsAll.mpr
        ⟨p, hp, mem_subpatterns_self p⟩)) hleaf)
    rw [«matches», «matches», isOk_matchAnyOf, isOk_matchAnyOf, matchesAll_eq_map, matchesAll_eq_map,
      any_map, any_map, Bool.eq_iff_iff, List.any_eq_true, List.any_eq_true]
    refine exists_congr fun p => and_congr_right fun hp => ?_
    rw [comp_apply, comp_apply, hsame p hp]
  | allOf patterns ih =>
    have hsame : ∀ p ∈ patterns, (p.matches lib (params.restrict pattern)).isOk =
        (p.matches lib params).isOk := fun p hp => ih p hp fun leaf hleaf =>
      h leaf (leaves_subset (mem_cons_of_mem _ (mem_subpatternsAll.mpr
        ⟨p, hp, mem_subpatterns_self p⟩)) hleaf)
    rw [«matches», «matches», isOk_matchAllOf, isOk_matchAllOf, matchesAll_eq_map, matchesAll_eq_map,
      all_map, all_map, Bool.eq_iff_iff, all_eq_true, all_eq_true]
    refine forall₂_congr fun p hp => ?_
    rw [comp_apply, comp_apply, hsame p hp]
  | not p ih =>
    rw [«matches», «matches», isOk_matchNot, isOk_matchNot]
    refine congrArg _ (ih fun leaf hleaf => h leaf ?_)
    exact leaves_subset (mem_cons_of_mem _ (mem_subpatterns_self p)) hleaf
  | leaf p hleaf =>
    refine (isOk_leaf_iff hleaf).mpr (h p ?_)
    exact mem_leaves.mpr ⟨mem_subpatterns_self p, hleaf⟩

end Restrict

/-- All patterns in a pattern keep their answers exactly if its leaves do. -/
theorem isOk_subpatterns_iff (lib : MatchLibrary) (params : DiscoverySessionServiceMatchParams)
    (pattern : Pattern) :
    (∀ q ∈ pattern.subpatterns,
        (q.matches lib (params.restrict pattern)).isOk = (q.matches lib params).isOk) ↔
      ∀ leaf ∈ pattern.leaves, Requested lib params pattern leaf := by
  constructor
  · intro h leaf hleaf
    obtain ⟨hmem, hleaf⟩ := mem_leaves.mp hleaf
    exact (isOk_leaf_iff hleaf).mp (h leaf hmem)
  · intro h q hq
    exact isOk_of_leaves fun leaf hleaf => h leaf (leaves_subset hq hleaf)

section Plain
variable {pattern leaf : Pattern} {patterns : List Pattern}

theorem plainAll_eq_all (patterns : List Pattern) : plainAll patterns = patterns.all plain := by
  induction patterns with
  | nil => rfl
  | cons p patterns ih => rw [plainAll, ih, all_cons]

theorem portsAll_eq_flatMap (patterns : List Pattern) :
    portsAll patterns = patterns.flatMap ports := by
  induction patterns with
  | nil => rfl
  | cons p patterns ih => rw [portsAll, ih, flatMap_cons]

theorem endpointsAll_eq_flatMap (patterns : List Pattern) :
    endpointsAll patterns = patterns.flatMap endpoints := by
  induction patterns with
  | nil => rfl
  | cons p patterns ih => rw [endpointsAll, ih, flatMap_cons]

structure AskedFor (pattern leaf : Pattern) : Prop where
  port : ∀ p, leaf = .port p → p ∈ pattern.ports
  endpoint : ∀ p path body status, leaf = .endpoint p path body status →
    Endpoint.forPattern p path ∈ pattern.endpoints

theorem exists_mem_leaves_of_mem_subpatternsAll (h : leaf ∈ subpatternsAll patterns)
    (hleaf : leaf.isLeaf = true) : ∃ p ∈ patterns, leaf ∈ p.leaves := by
  obtain ⟨p, hp, hmem⟩ := mem_subpatternsAll.mp h
  exact ⟨p, hp, mem_leaves.mpr ⟨hmem, hleaf⟩⟩

theorem askedFor_of_plain (hplain : pattern.plain = true) (h : leaf ∈ pattern.leaves) :
    AskedFor pattern leaf := by
  induction pattern using induction_on with
  | anyOf patterns ih | allOf patterns ih =>
    obtain ⟨hmem, hleaf⟩ := mem_leaves.mp h
    rcases mem_cons.mp hmem with rfl | hmem
    · exact nomatch hleaf
    · obtain ⟨p, hp, hmem⟩ := exists_mem_leaves_of_mem_subpatternsAll hmem hleaf
      rw [plain, plainAll_eq_all, all_eq_true] at hplain
      obtain ⟨hports, hendpoints⟩ := ih p hp (hplain p hp) hmem
      refine ⟨fun q hq => ?_, fun q path body status hq => ?_⟩
      · rw [ports, portsAll_eq_flatMap]
        exact mem_flatMap.mpr ⟨p, hp, hports q hq⟩
      · rw [endpoints, endpointsAll_eq_flatMap]
        exact mem_flatMap.mpr ⟨p, hp, hendpoints q path body status hq⟩
  | not p ih =>
    obtain ⟨hmem, hleaf⟩ := mem_leaves.mp h
    rcases mem_cons.mp hmem with rfl | hmem
    · exact nomatch hleaf
    · rw [plain, all_eq_true] at hplain
      have hreads := hplain leaf (mem_leaves.mpr ⟨hmem, hleaf⟩)
      constructor
      · rintro q rfl
        exact nomatch hreads
      · rintro q path body status rfl
        exact nomatch hreads
  | leaf p hp =>
    have hself : leaf = p := by
      cases p with
      | anyOf _ | allOf _ | not _ => exact nomatch hp
      | _ => exact mem_singleton.mp (mem_leaves.mp h).1
    subst hself
    constructor
    · rintro q rfl
      exact mem_singleton_self q
    · rintro q path body status rfl
      obtain rfl := Option.isNone_iff_eq_none.mp hplain
      exact mem_singleton_self _

end Plain

/-- If what satisfies the leaves of a pattern is requested, the pattern gives the same answer without
the rest of the evidence; and a plain pattern asks for all its ports and endpoints, so that only its
headers and functions can find more than it asks for. -/
theorem isOk_matches_restrict (lib : MatchLibrary) (params : DiscoverySessionServiceMatchParams)
    (pattern : Pattern) :
    ((∀ leaf ∈ pattern.leaves, Requested lib params pattern leaf) →
      (pattern.matches lib (params.restrict pattern)).isOk = (pattern.matches lib params).isOk) ∧
    (pattern.plain = true → ∀ leaf ∈ pattern.leaves,
      (∀ p name value status, leaf ≠ header p name value status) →
        (∀ constraint ports reason noMatchReason confidence,
          leaf ≠ custom constraint ports reason noMatchReason confidence) →
            Requested lib params pattern leaf) := by
  refine ⟨isOk_of_leaves, fun hplain leaf hleaf hheader hcustom => ?_⟩
  obtain ⟨hports, hendpoints⟩ := askedFor_of_plain hplain hleaf
  cases leaf with
  | port p =>
    exact fun _ => contains_iff_exists_mem_beq.mpr ⟨p, hports p rfl, BEq.refl p⟩
  | endpoint p path body status =>
    exact fun _ => contains_iff_exists_mem_beq.mpr
      ⟨_, hendpoints p path body status rfl, BEq.refl _⟩
  | header p name value status => exact absurd rfl (hheader p name value status)
  | custom constraint ports reason noMatchReason confidence =>
    exact absurd rfl (hcustom constraint ports reason noMatchReason confidence)
  | _ => trivial

private def asciiLibrary : MatchLibrary where
  definitions := []
  companyName _ := .none
  toLowercase s := String.ofList (s.toList.map Char.toLower)
  isAlphanumeric := Char.isAlphanum
  cidrText _ := "10.0.0.0/24"
  uuidText _ := "00000000-0000-0000-0000-000000000007"

private def scannedHost (ports : List PortType) (responses : List EndpointResponse) :
    DiscoverySessionServiceMatchParams where
  hostId := 10
  gatewayIps := []
  daemonId := 7
  networkId := 9
  baseline := {
    subnet := ⟨8, 0, 0, .none, .none, ⟨.v4 .lan, 9, "lan", .none,
      .lan, .none, .discovery, 0⟩⟩
    ipAddress := ⟨5, 0, 0, .none, .none, ⟨9, 10, 8, .v4 0x0A000005#32, .none, .none, 0, 0⟩⟩
    allPorts := ports
    endpointResponses := responses
    virtualizationMetadata := .none
    virtualizationServiceId := .none
    clientResponses := HashMap.empty
    managedDevice := .none }
  serviceDefinition := "Tyk"
  matchedServices := []
  unboundPorts := ports

private def respondsWith (p : PortType) (path body : String) : EndpointResponse :=
  ⟨⟨.http, some (.v4 0x0A000005#32), p, path⟩, body, [], 200⟩

/-- The pattern of Pi-Hole asks for its page without a range of status codes. -/
theorem isOk_matches_restrict_pihole :
    let params := scannedHost [.dnsUdp, .ssh] [respondsWith .http "/admin" "Pi-hole"]
    let pattern := allOf [anyOf [port .dnsUdp, port .dnsTcp],
      endpoint .http "/admin" "pi-hole" .none]
    (pattern.matches asciiLibrary params).isOk = true ∧
      (pattern.matches asciiLibrary (params.restrict pattern)).isOk =
        (pattern.matches asciiLibrary params).isOk := by
  intro params pattern
  refine ⟨by decide, (isOk_matches_restrict asciiLibrary params pattern).1 ?_⟩
  intro leaf hleaf
  have hleaves : pattern.leaves = [port .dnsUdp, port .dnsTcp,
      endpoint .http "/admin" "pi-hole" .none] := rfl
  rw [hleaves, mem_cons, mem_cons, mem_singleton] at hleaf
  rcases hleaf with rfl | rfl | rfl
  · exact fun _ => by decide
  · exact fun _ => by decide
  · exact fun _ => by decide

/-- The pattern of the unclaimed open ports asks for no port and matches any that is open. -/
theorem isOk_matches_openPorts : ¬∀ (lib : MatchLibrary) (params : DiscoverySessionServiceMatchParams)
    (pattern : Pattern),
    (∀ name value status, header .none name value status ∉ pattern.leaves) →
      (pattern.matches lib (params.restrict pattern)).isOk = (pattern.matches lib params).isOk := by
  intro h
  have hopen := h asciiLibrary (scannedHost [.ssh] [])
    (custom (fun p => !p.unboundPorts.isEmpty) (fun p => p.unboundPorts) "Has unbound open ports"
      "No unbound ports remaining" .notApplicable)
  refine absurd (hopen fun name value status hmem => ?_) (by decide)
  exact nomatch mem_singleton.mp hmem

end Pattern
end Scanopy.Scan
