import Scanopy.Lib.LawfulEq
import Scanopy.Services.Patterns
import Scanopy.Services.Requests

/-! When the equality tests of the entities go with their hashes. Each hash is of something else
than the test looks at, so the test is lawful only where the two agree. -/

namespace Scanopy

def IPAddress.hashData (a : IPAddress) : IpAddr × Uuid := (a.base.ipAddress, a.base.subnetId)

/-- `PartialEq` of bindings. -/
def Binding.same (a b : Binding) : Bool := a.base.bindingType = b.base.bindingType

def Binding.hashData (b : Binding) : Uuid := b.id

def Scan.Endpoint.hashData (e : Scan.Endpoint) : Scan.ApplicationProtocol × Scan.PortConfig × String :=
  (e.protocol, e.portType.config, e.path)

/-- What a service feeds a hasher. A service definition is a type without data, which feeds
nothing. -/
def TrackedService.hashData (s : TrackedService) : Uuid × String × Uuid :=
  (s.id, s.base.name, s.base.hostId)

theorem lawfulOn_ipAddresses_iff (S : Set IPAddress) :
    LawfulOn IPAddress.same IPAddress.hashData S ↔ ∀ a ∈ S, ∀ b ∈ S, a.id = b.id → a.id ≠ Uuid.nil →
      a.base.ipAddress = b.base.ipAddress ∧ a.base.subnetId = b.base.subnetId := by
  have hsame : ∀ a b : IPAddress, IPAddress.same a b = true ↔
      a.hashData = b.hashData ∨ (a.id = b.id ∧ a.id ≠ Uuid.nil) := by
    intro a b
    simp only [IPAddress.same, IPAddress.hashData, Bool.or_eq_true, Bool.and_eq_true,
      decide_eq_true_eq, Prod.mk.injEq]
    refine or_congr_right ⟨fun h => h.1, fun h => ⟨h, h.1 ▸ h.2⟩⟩
  constructor
  · intro h a ha b hb hid hnil
    exact Prod.mk_inj.mp (h.hash a ha b hb ((hsame a b).mpr (.inr ⟨hid, hnil⟩)))
  · intro h
    refine LawfulOn.of_key IPAddress.hashData (fun a ha b hb => ?_) fun _ _ _ _ hkey => hkey
    rw [hsame, or_iff_left_iff_imp]
    rintro ⟨hid, hnil⟩
    exact Prod.ext_iff.mpr (h a ha b hb hid hnil)

theorem lawfulOn_bindings_iff (S : Set Binding) :
    LawfulOn Binding.same Binding.hashData S ↔ ∀ a ∈ S, ∀ b ∈ S,
      a.base.bindingType = b.base.bindingType → a.id = b.id :=
  LawfulOn.iff_of_key (fun b : Binding => b.base.bindingType) fun _ _ _ _ => decide_eq_true_iff

theorem lawfulOn_endpoints_iff (S : Set Scan.Endpoint) :
    LawfulOn (· == ·) Scan.Endpoint.hashData S ↔ ∀ a ∈ S, ∀ b ∈ S,
      a.protocol = b.protocol → a.portType.number = b.portType.number → a.path = b.path →
        a.portType.protocol = b.portType.protocol := by
  refine (LawfulOn.iff_of_key
    (fun e : Scan.Endpoint => (e.protocol, e.portType.number, e.path)) ?_).trans ?_
  · intro a _ b _
    show (decide _ && decide _ && decide _) = true ↔ _
    simp only [Bool.and_eq_true, decide_eq_true_eq, Prod.mk.injEq, and_assoc]
  · refine forall₂_congr fun a _ => forall₂_congr fun b _ => ?_
    have hconfig : a.portType.config = b.portType.config ↔
        a.portType.number = b.portType.number ∧ a.portType.protocol = b.portType.protocol :=
      Scan.PortConfig.mk.injEq .. ▸ Iff.rfl
    simp only [Scan.Endpoint.hashData, Prod.mk.injEq, hconfig]
    constructor
    · exact fun h hprotocol hnumber hpath => (h ⟨hprotocol, hnumber, hpath⟩).2.1.2
    · rintro h ⟨hprotocol, hnumber, hpath⟩
      exact ⟨hprotocol, ⟨hnumber, h hprotocol hnumber hpath⟩, hpath⟩

namespace TrackedService
variable {defs : ServiceDefinitions} {a b : TrackedService}

inductive GenericApart (a b : TrackedService) : Prop
  | containerId {va vb : ServiceVirtualization} (ha : a.base.virtualizationMetadata = some va)
      (hb : b.base.virtualizationMetadata = some vb) (h : va.containerId ≠ vb.containerId)
  | containerName {va vb : ServiceVirtualization} {na nb : String}
      (ha : a.base.virtualizationMetadata = some va) (hb : b.base.virtualizationMetadata = some vb)
      (hca : va.containerId = none) (hcb : vb.containerId = none)
      (hna : va.containerName = some na) (hnb : vb.containerName = some nb) (h : na ≠ nb)
  | ports (hunnamed : ∀ va vb, a.base.virtualizationMetadata = some va →
        b.base.virtualizationMetadata = some vb → va.containerId = none ∧ vb.containerId = none ∧
          (va.containerName = none ∨ vb.containerName = none))
      (h : ∀ p ∈ a.portIds, p ∉ b.portIds)

inductive Apart (defs : ServiceDefinitions) (a b : TrackedService) : Prop
  | host (h : a.base.hostId ≠ b.base.hostId)
  | network (h : a.base.networkId ≠ b.base.networkId)
  | definition (h : a.base.serviceDefinition ≠ b.base.serviceDefinition)
  /-- Not generic, and in two containers. -/
  | container (hspecific : defs.isGeneric a.base.serviceDefinition = false) {ca cb : String}
      (ha : a.containerId = some ca) (hb : b.containerId = some cb) (h : ca ≠ cb)
  /-- Generic, and told apart by their containers or by their ports. -/
  | generic (hgeneric : defs.isGeneric a.base.serviceDefinition = true)
      (hgateway : defs.isGateway a.base.serviceDefinition = false)
      (hopen : defs.isOpenPorts a.base.serviceDefinition = false) (h : GenericApart a b)

theorem hasSharedPorts_eq_false_iff :
    hasSharedPorts a b = false ↔ ∀ p ∈ a.portIds, p ∉ b.portIds := by
  simp [hasSharedPorts]

theorem genericApart_some_iff {va vb : ServiceVirtualization}
    (ha : a.base.virtualizationMetadata = some va) (hb : b.base.virtualizationMetadata = some vb) :
    GenericApart a b ↔ va.containerId ≠ vb.containerId ∨
      (va.containerId = none ∧ vb.containerId = none ∧
        ((∃ na nb, va.containerName = some na ∧ vb.containerName = some nb ∧ na ≠ nb) ∨
          ((va.containerName = none ∨ vb.containerName = none) ∧
            ∀ p ∈ a.portIds, p ∉ b.portIds))) := by
  constructor
  · intro h
    cases h with
    | containerId ha' hb' h =>
      cases ha.symm.trans ha'
      cases hb.symm.trans hb'
      exact .inl h
    | containerName ha' hb' hca hcb hna hnb h =>
      cases ha.symm.trans ha'
      cases hb.symm.trans hb'
      exact .inr ⟨hca, hcb, .inl ⟨_, _, hna, hnb, h⟩⟩
    | ports hunnamed h =>
      obtain ⟨hca, hcb, hname⟩ := hunnamed va vb ha hb
      exact .inr ⟨hca, hcb, .inr ⟨hname, h⟩⟩
  · rintro (h | ⟨hca, hcb, ⟨na, nb, hna, hnb, h⟩ | ⟨hname, h⟩⟩)
    · exact .containerId ha hb h
    · exact .containerName ha hb hca hcb hna hnb h
    · refine .ports (fun va' vb' ha' hb' => ?_) h
      cases ha.symm.trans ha'
      cases hb.symm.trans hb'
      exact ⟨hca, hcb, hname⟩

theorem genericApart_iff_of_none (hnone : a.base.virtualizationMetadata = none ∨
    b.base.virtualizationMetadata = none) :
    GenericApart a b ↔ ∀ p ∈ a.portIds, p ∉ b.portIds := by
  have hno : ∀ {va vb : ServiceVirtualization}, a.base.virtualizationMetadata = some va →
      b.base.virtualizationMetadata = some vb → False := by
    intro va vb ha hb
    rcases hnone with h | h
    · cases ha.symm.trans h
    · cases hb.symm.trans h
  constructor
  · intro h
    cases h with
    | containerId ha hb _ => exact (hno ha hb).elim
    | containerName ha hb _ _ _ _ _ => exact (hno ha hb).elim
    | ports _ h => exact h
  · exact .ports fun va vb ha hb => (hno ha hb).elim

theorem sameGeneric_eq_false_iff : sameGeneric a b = false ↔ GenericApart a b := by
  rw [sameGeneric]
  cases ha : a.base.virtualizationMetadata with
  | none =>
    rw [genericApart_iff_of_none (.inl ha)]
    exact hasSharedPorts_eq_false_iff
  | some va =>
    cases hb : b.base.virtualizationMetadata with
    | none =>
      rw [genericApart_iff_of_none (.inr hb)]
      exact hasSharedPorts_eq_false_iff
    | some vb =>
      rw [genericApart_some_iff ha hb, ← hasSharedPorts_eq_false_iff]
      dsimp only
      -- the ids decide where one of them is there, then the names where both are
      match va.containerId, vb.containerId, va.containerName, vb.containerName with
      | some ca, some cb, _, _ | some ca, none, _, _ | none, some cb, _, _ => simp
      | none, none, some na, some nb => simp
      | none, none, none, _ | none, none, some na, none => simp

theorem same_eq_false_iff (hid : a.id ≠ b.id) : same defs a b = false ↔ Apart defs a b := by
  rw [same, if_neg hid]
  constructor
  · intro h
    split_ifs at h with hplace hdefinition hspecific hsingle
    · rw [Bool.or_eq_true, decide_eq_true_eq, decide_eq_true_eq] at hplace
      rcases hplace with h | h
      · exact .host h
      · exact .network h
    · exact .definition hdefinition
    · rw [Bool.not_eq_true'] at hspecific
      split at h
      · rename_i ca cb ha hb
        exact .container hspecific ha hb (of_decide_eq_false h)
      · cases h
    · rw [Bool.not_eq_true', Bool.not_eq_false] at hspecific
      rw [Bool.or_eq_true, not_or, Bool.not_eq_true, Bool.not_eq_true] at hsingle
      exact .generic hspecific hsingle.1 hsingle.2 (sameGeneric_eq_false_iff.mp h)
  · intro h
    rw [ite_eq_left_iff, ite_eq_left_iff]
    intro hplace hdefinition
    cases h with
    | host h => simp [h] at hplace
    | network h => simp [h] at hplace
    | definition h => exact absurd h hdefinition
    | container hspecific ha hb h =>
      rw [hspecific, ha, hb]
      exact decide_eq_false h
    | generic hgeneric hgateway hopen h =>
      rw [hgeneric, hgateway, hopen]
      exact sameGeneric_eq_false_iff.mpr h

theorem lawfulOn_iff (defs : ServiceDefinitions) (S : Set TrackedService) :
    LawfulOn (same defs) hashData S ↔ ∀ a ∈ S, ∀ b ∈ S,
      (a.id = b.id → a.base.name = b.base.name ∧ a.base.hostId = b.base.hostId) ∧
        (a.id ≠ b.id → Apart defs a b) := by
  have hsame : ∀ {a b : TrackedService}, a.id = b.id → same defs a b = true := fun h => if_pos h
  constructor
  · intro h a ha b hb
    -- the id is hashed, so equal values have one id
    refine ⟨fun hid => ?_, fun hid => ?_⟩
    · exact Prod.mk_inj.mp (Prod.mk_inj.mp (h.hash a ha b hb (hsame hid))).2
    · rw [← same_eq_false_iff hid, ← Bool.not_eq_true]
      exact fun htrue => hid (Prod.mk_inj.mp (h.hash a ha b hb htrue)).1
  · intro h
    refine LawfulOn.of_key (fun s : TrackedService => s.id) (fun a ha b hb => ?_)
      fun a ha b hb hid => ?_
    · refine ⟨fun htrue => ?_, hsame⟩
      by_contra hid
      rw [(same_eq_false_iff hid).mpr ((h a ha b hb).2 hid)] at htrue
      cases htrue
    · obtain ⟨hname, hhost⟩ := (h a ha b hb).1 hid
      exact Prod.ext_iff.mpr ⟨hid, Prod.ext_iff.mpr ⟨hname, hhost⟩⟩

end TrackedService

/-- Each of the four equality tests is lawful on a set of values exactly if the set has no two that
the test and the hash take differently. -/
theorem entityEquality_lawfulOn_iff (defs : ServiceDefinitions) (services : Set TrackedService)
    (addresses : Set IPAddress) (bindings : Set Binding) (endpoints : Set Scan.Endpoint) :
    (LawfulOn (TrackedService.same defs) TrackedService.hashData services ↔
      ∀ a ∈ services, ∀ b ∈ services,
        (a.id = b.id → a.base.name = b.base.name ∧ a.base.hostId = b.base.hostId) ∧
          (a.id ≠ b.id → TrackedService.Apart defs a b)) ∧
    (LawfulOn IPAddress.same IPAddress.hashData addresses ↔
      ∀ a ∈ addresses, ∀ b ∈ addresses, a.id = b.id → a.id ≠ Uuid.nil →
        a.base.ipAddress = b.base.ipAddress ∧ a.base.subnetId = b.base.subnetId) ∧
    (LawfulOn Binding.same Binding.hashData bindings ↔
      ∀ a ∈ bindings, ∀ b ∈ bindings, a.base.bindingType = b.base.bindingType → a.id = b.id) ∧
    (LawfulOn (· == ·) Scan.Endpoint.hashData endpoints ↔
      ∀ a ∈ endpoints, ∀ b ∈ endpoints, a.protocol = b.protocol →
        a.portType.number = b.portType.number → a.path = b.path →
          a.portType.protocol = b.portType.protocol) :=
  ⟨TrackedService.lawfulOn_iff defs services, lawfulOn_ipAddresses_iff addresses,
    lawfulOn_bindings_iff bindings, lawfulOn_endpoints_iff endpoints⟩

section Values

def mediaServer (id : Uuid) (containerId : Option String) : TrackedService :=
  ⟨id, 0, 0, none, none,
    { hostId := 1
      networkId := 1
      serviceDefinition := "Plex Media Server"
      name := "Plex Media Server"
      bindings := []
      virtualizationServiceId := none
      position := 0
      virtualizationMetadata := containerId.map fun c => ⟨.docker, none, some c⟩ }⟩

def noneGeneric : ServiceDefinitions := ⟨fun _ => false, fun _ => false, fun _ => false⟩

/-- The row of a laptop that has been given another address. -/
def leased (ip : IpAddr) : IPAddress :=
  ⟨1, 0, 0, none, none,
    { networkId := 1
      hostId := 1
      subnetId := 1
      ipAddress := ip
      macAddress := none
      name := none
      position := 0
      lastSeenAt := 0 }⟩

def bindingNamed (id : Uuid) : Binding := ⟨id, 0, 0, none, none, ⟨1, 1, .port 1 none⟩⟩

def resolver (portType : Scan.PortType) : Scan.Endpoint := ⟨.http, none, portType, "/"⟩

/-- The same service in two containers is two services, each of them the one seen from outside. -/
theorem not_lawfulOn_entities :
    ¬ LawfulOn (TrackedService.same noneGeneric) TrackedService.hashData Set.univ ∧
    ¬ LawfulOn IPAddress.same IPAddress.hashData Set.univ ∧
    ¬ LawfulOn Binding.same Binding.hashData Set.univ ∧
    ¬ LawfulOn (· == ·) Scan.Endpoint.hashData Set.univ := by
  refine ⟨fun h => ?_, fun h => ?_, fun h => ?_, fun h => ?_⟩
  · have hdocker := h.trans (mediaServer 1 (some "a")) trivial (mediaServer 2 none) trivial
      (mediaServer 3 (some "b")) trivial (by decide) (by decide)
    exact absurd hdocker (by decide)
  · exact absurd (h.hash (leased (.v4 0x0A000005)) trivial (leased (.v4 0x0A000006)) trivial
      (by decide)) (by decide)
  · exact absurd (h.hash (bindingNamed 1) trivial (bindingNamed 2) trivial (by decide)) (by decide)
  · exact absurd (h.hash (resolver .dnsUdp) trivial (resolver .dnsTcp) trivial (by decide))
      (by decide)

end Values

end Scanopy
