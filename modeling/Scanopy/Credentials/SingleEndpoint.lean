import Scanopy.Credentials.Contributions
import Scanopy.Credentials.Junction

/-! Integrations with one service instance on a host. The server checks that two of their
credentials do not meet, on networks, hosts and targets apart; the dispatch brings the three
together. -/

namespace Scanopy

open List Option Function CredentialType CredentialStore

/-- What a credential targets, `none` for all addresses of a host. -/
structure CredentialTargets where
  networks : List Uuid
  hosts : List (Uuid × Option (List Uuid))

namespace CredentialTargets

def build (networks : List Uuid) (hostAssignments : List CredentialHostAssignment) :
    CredentialTargets :=
  ⟨networks, hostAssignments.map fun h => (h.hostId, h.ipAddressIds)⟩

def forHost (hostId : Uuid) : CredentialTargets := ⟨[], [(hostId, none)]⟩

def overlaps (a b : CredentialTargets) : Bool :=
  (a.networks.any fun n => b.networks.contains n) ||
    a.hosts.any fun h => b.hosts.any fun h' =>
      h.1 = h'.1 && match h.2, h'.2 with
        | none, _ | _, none => true
        | some ids, some ids' => ids.any fun id => ids'.contains id

end CredentialTargets

def singleEndpointTargetsConflict (aType : CredentialType) (aTargets : CredentialTargets)
    (bType : CredentialType) (bTargets : CredentialTargets) : Bool :=
  aType.singleEndpointPerHost && bType.singleEndpointPerHost &&
    aType.associatedService = bType.associatedService && aTargets.overlaps bTargets

structure CredentialWrite where
  credential : Credential
  assignedNetworkIds : List Uuid
  hostAssignments : List CredentialHostAssignment

namespace CredentialStore

def getNetworkIdsForCredential (s : CredentialStore) (credentialId : Uuid) : List Uuid :=
  (s.networkCredentials.rows.filter fun r => r.credentialId = credentialId).map (·.networkId)

def getHostAssignmentsForCredential (s : CredentialStore) (credentialId : Uuid) :
    List CredentialHostAssignment :=
  (s.hostCredentials.rows.filter fun r => r.credentialId = credentialId).map fun r =>
    ⟨r.hostId, r.ipAddressIds⟩

def findSingleEndpointConflict (s : CredentialStore) (candidate : CredentialWrite) :
    Option String :=
  let type := candidate.credential.credentialType
  if !type.singleEndpointPerHost then none
  else
    let others := s.credentials.rows.filter fun c =>
      c.organizationId = candidate.credential.organizationId && c.id ≠ candidate.credential.id &&
        c.credentialType.associatedService = type.associatedService
    let cand := CredentialTargets.build candidate.assignedNetworkIds candidate.hostAssignments
    (others.find? fun other =>
      singleEndpointTargetsConflict type cand other.credentialType
        (.build (s.getNetworkIdsForCredential other.id)
          (s.getHostAssignmentsForCredential other.id))).map (·.name)

def setCredentialNetworks (s : CredentialStore) (credentialId : Uuid) (networkIds : List Uuid) :
    Option CredentialStore :=
  (saveNetworksForCredential s.networkCredentials credentialId networkIds).map fun t =>
    { s with networkCredentials := t }

def setCredentialHostAssignments (s : CredentialStore) (credentialId : Uuid)
    (assignments : List CredentialHostAssignment) : Option CredentialStore :=
  (saveHostAssignmentsForCredential s.hostCredentials credentialId assignments).map fun t =>
    { s with hostCredentials := t }

def writeCredential (s : CredentialStore) (w : CredentialWrite) : Option CredentialStore :=
  ({ s with credentials := s.credentials.put w.credential }.setCredentialNetworks w.credential.id
    w.assignedNetworkIds).bind fun s =>
      s.setCredentialHostAssignments w.credential.id w.hostAssignments

end CredentialStore

def IntegrationTarget.daemonHostCredential : IntegrationTarget → Option Uuid
  | .daemonHost id => some id
  | .hosts id ips => if ips ≠ [] ∧ ips.all IpAddr.isLoopback then some id else none
  | .network _ => none

/-- The first two of `items` that conflict. -/
def firstConflict (daemonHostId : Uuid) : List Credential → Option (String × String)
  | [] => none
  | cred :: items =>
    match items.find? fun other =>
        singleEndpointTargetsConflict cred.credentialType (.forHost daemonHostId)
          other.credentialType (.forHost daemonHostId) with
    | some other => some (cred.name, other.name)
    | none => firstConflict daemonHostId items

def CredentialStore.findDaemonHostTargetConflict (s : CredentialStore) (daemonHostId : Uuid)
    (targets : List IntegrationTarget) : Option (String × String) :=
  firstConflict daemonHostId
    ((targets.filterMap IntegrationTarget.daemonHostCredential).filterMap s.getById)

structure Inventory where
  networks : List Network
  hosts : List Host
  ipAddresses : List IPAddress
  discoveries : List (Uuid × Uuid)

structure AssignmentState where
  store : CredentialStore
  targets : Uuid → List IntegrationTarget

inductive AssignmentWrite
  | credential (w : CredentialWrite)
  | discovery (id : Uuid) (daemonHostId : Uuid) (targets : List IntegrationTarget)

def assignments (inv : Inventory) : Lts AssignmentState AssignmentWrite where
  init :=
    { store :=
        { credentials := .empty, networkCredentials := .empty
          hostCredentials := .empty
          networks := inv.networks, hosts := inv.hosts, ipAddresses := inv.ipAddresses }
      targets := fun _ => [] }
  step s
    | .credential w =>
      if (s.store.findSingleEndpointConflict w).isSome then none
      else (s.store.writeCredential w).map fun store => { s with store := store }
    | .discovery id daemonHostId targets =>
      if (s.store.findDaemonHostTargetConflict daemonHostId targets).isSome then none
      else some { s with targets := Function.update s.targets id targets }

def ScanTargets (inv : Inventory) (s : AssignmentState) (networkId : Uuid)
    (targets : List IntegrationTarget) : Prop :=
  targets = [] ∨ ∃ id, (id, networkId) ∈ inv.discoveries ∧ targets = s.targets id

/-- `ip` is an address of a host of the network. -/
def CredentialStore.HasAddress (s : CredentialStore) (networkId : Uuid) (ip : IpAddr) : Prop :=
  ∃ host ∈ s.hosts, host.base.networkId = networkId ∧
    ∃ i ∈ s.ipAddresses, i.base.hostId = host.id ∧ i.base.ipAddress = ip

/-- The mappings do not both offer a credential of one single-endpoint integration at `ip`. -/
def ExclusiveAt (ip : IpAddr) (m m' : CredentialMapping CredentialQueryPayload) : Prop :=
  ∀ p ∈ resolveCredentialsForIp m ip, ∀ p' ∈ resolveCredentialsForIp m' ip,
    p.1.service = p'.1.service → p.1.service = some .snmp

def OneEndpoint (inv : Inventory) (s : AssignmentState) : Prop :=
  ∀ networkId targets, ScanTargets inv s networkId targets → ∀ v ip,
    s.store.HasAddress networkId ip →
      (s.store.buildAllCredentialMappings networkId targets v).Pairwise (ExclusiveAt ip)

/-- The targets bring `cred` to `ip`. -/
def TargetedAt (targets : List IntegrationTarget) (cred : Credential) (ip : IpAddr) : Prop :=
  ∃ t ∈ targets, t.credentialId = cred.id ∧ t.Applies cred.credentialType ∧ t.offer.Covers ip

namespace CredentialStore

/-- An assignment to a host of the network covers `ip`. -/
def AssignmentCovers (s : CredentialStore) (networkId hostId : Uuid)
    (ipAddressIds : Option (List Uuid)) (ip : IpAddr) : Prop :=
  (∃ host ∈ s.hosts, host.base.networkId = networkId ∧ host.id = hostId) ∧
    ∃ i ∈ relevantInterfaces hostId ipAddressIds (s.ipAddressesOf networkId), i.base.ipAddress = ip

/-- `cred` is assigned to the network, or to a host there at `ip`. -/
def AssignedAt (s : CredentialStore) (networkId : Uuid) (cred : Credential) (ip : IpAddr) : Prop :=
  s.ownedByNetworkOrg networkId cred = true ∧
    ((∃ r ∈ s.networkCredentials, r.networkId = networkId ∧ r.credentialId = cred.id) ∨
      ∃ r ∈ s.hostCredentials, r.credentialId = cred.id ∧
        s.AssignmentCovers networkId r.hostId r.ipAddressIds ip)

/-- `cred` comes to `ip` through one of the three channels. -/
def Reaches (s : CredentialStore) (networkId : Uuid) (targets : List IntegrationTarget)
    (cred : Credential) (ip : IpAddr) : Prop :=
  s.AssignedAt networkId cred ip ∨ TargetedAt targets cred ip

end CredentialStore

/-- The credential as written comes to `ip`. -/
def CredentialWrite.Reaches (w : CredentialWrite) (s : CredentialStore) (networkId : Uuid)
    (targets : List IntegrationTarget) (ip : IpAddr) : Prop :=
  (s.ownedByNetworkOrg networkId w.credential = true ∧
    (networkId ∈ w.assignedNetworkIds ∨
      ∃ a ∈ w.hostAssignments, s.AssignmentCovers networkId a.hostId a.ipAddressIds ip)) ∨
    TargetedAt targets w.credential ip

def Credential.Rivals (cred other : Credential) : Prop :=
  other.id ≠ cred.id ∧ cred.credentialType.singleEndpointPerHost = true ∧
    other.credentialType.associatedService = cred.credentialType.associatedService

def KeepsApart (inv : Inventory) (s : AssignmentState) : AssignmentWrite → Prop
  | .credential w => ∀ networkId targets, ScanTargets inv s networkId targets → ∀ ip,
      s.store.HasAddress networkId ip → w.Reaches s.store networkId targets ip →
        ∀ other ∈ s.store.credentials, w.credential.Rivals other →
          ¬s.store.Reaches networkId targets other ip
  | .discovery id _ targets => ∀ networkId, (id, networkId) ∈ inv.discoveries → ∀ ip,
      s.store.HasAddress networkId ip → ∀ cred ∈ s.store.credentials, TargetedAt targets cred ip →
        ∀ other ∈ s.store.credentials, cred.Rivals other →
          ¬s.store.Reaches networkId targets other ip

variable {cred other : Credential}

theorem Credential.Rivals.symm (h : cred.Rivals other) :
    other.Rivals cred := by
  obtain ⟨hne, hsingle, hservice⟩ := h
  refine ⟨Ne.symm hne, ?_, hservice.symm⟩
  rw [singleEndpointPerHost_eq] at hsingle ⊢
  rw [hservice]
  exact hsingle

theorem rivals_iff :
    cred.Rivals other ↔ other.id ≠ cred.id ∧
      other.credentialType.associatedService = cred.credentialType.associatedService ∧
      cred.credentialType.associatedService ≠ .snmp := by
  rw [Credential.Rivals, singleEndpointPerHost_eq, decide_eq_true_iff,
    and_comm (b := _ = _)]

section Static
variable {s : CredentialStore} {networkId : Uuid} {targets : List IntegrationTarget} {ip : IpAddr}
  {cred : Credential}

theorem reaches_iff (hcred : cred ∈ s.credentials) :
    s.Reaches networkId targets cred ip ↔
      ∃ c ∈ s.contributions networkId targets, c.credential = cred ∧ c.offer.Covers ip := by
  have hget : ∀ {id}, s.getById id = some cred ↔ id = cred.id := by
    intro id
    rw [getById, Table.find_eq_some, and_iff_right hcred, eq_comm]
  constructor
  · rintro (⟨howned, ⟨r, hr, hnet, hid⟩ | ⟨r, hr, hid, ⟨host, hhost, hnet, hhid⟩, i, hi, hip⟩⟩ |
      ⟨t, ht, hid, happlies, hcovers⟩)
    · refine ⟨⟨cred, .broadcast⟩, mem_contributions.mpr (Or.inl ?_), rfl, trivial⟩
      refine mem_networkContributions.mpr ⟨rfl, r, hr, hnet, ?_⟩
      exact getOwned_eq_some.mpr ⟨hget.mpr hid, howned⟩
    · rw [← hhid] at hi
      let offer := Offer.assigned ((relevantInterfaces host.id r.ipAddressIds
        (s.ipAddressesOf networkId)).map (·.base.ipAddress))
      refine ⟨⟨cred, offer⟩, mem_contributions.mpr (Or.inr (Or.inl ?_)), rfl, ?_⟩
      · exact mem_hostContributions.mpr ⟨host, hhost, hnet, r, hr, hhid.symm,
          getOwned_eq_some.mpr ⟨hget.mpr hid, howned⟩, rfl⟩
      · exact List.mem_map.mpr ⟨i, hi, hip⟩
    · refine ⟨⟨cred, t.offer⟩, mem_contributions.mpr (Or.inr (Or.inr ?_)), rfl,
        hcovers⟩
      exact mem_targetContributions.mpr ⟨t, ht, hget.mpr hid, happlies, rfl⟩
  · rintro ⟨⟨_, offer⟩, hc, rfl, hcovers⟩
    rcases mem_contributions.mp hc with hc | hc | hc
    · obtain ⟨-, r, hr, hnet, howned⟩ := mem_networkContributions.mp hc
      obtain ⟨hid, howned⟩ := getOwned_eq_some.mp howned
      exact Or.inl ⟨howned, Or.inl ⟨r, hr, hnet, hget.mp hid⟩⟩
    · obtain ⟨host, hhost, hnet, r, hr, hhid, howned, rfl⟩ :=
        mem_hostContributions.mp hc
      obtain ⟨hid, howned⟩ := getOwned_eq_some.mp howned
      obtain ⟨i, hi, hip⟩ := List.mem_map.mp hcovers
      refine Or.inl ⟨howned, Or.inr ⟨r, hr, hget.mp hid, ⟨host, hhost, hnet, hhid.symm⟩, i, ?_, hip⟩⟩
      rw [hhid]
      exact hi
    · obtain ⟨t, ht, hid, happlies, rfl⟩ := mem_targetContributions.mp hc
      exact Or.inr ⟨t, ht, hget.mp hid, happlies, hcovers⟩

instance : Std.Symm (ExclusiveAt ip) where
  symm m m' h p' hp' p hp hservice := by
    rw [hservice]
    exact h p hp p' hp' hservice.symm

theorem exists_mem_resolve_iff {cs : List Contribution} {mappings : Mappings}
    (hsum : Summarizes cs mappings) {k : Uuid} {t : TypedCredentialMapping}
    (ht : mappings.get k = some t) :
    (∃ p, p ∈ resolveCredentialsForIp t.mapping ip) ↔
      ∃ c ∈ cs, c.credential.id = k ∧ c.offer.Covers ip := by
  rw [exists_mem_resolveCredentialsForIp, hsum.offers k t ht]

theorem pairwise_exclusiveAt_iff {v : Option Version} :
    (s.buildAllCredentialMappings networkId targets v).Pairwise (ExclusiveAt ip) ↔
      ∀ c ∈ s.dispatched networkId targets v, ∀ c' ∈ s.dispatched networkId targets v,
        c.offer.Covers ip → c'.offer.Covers ip → ¬c.credential.Rivals c'.credential := by
  have hsum := Summarizes.foldl (s.dispatched networkId targets v)
  have hsymm : Std.Symm fun t t' : TypedCredentialMapping => ExclusiveAt ip t.mapping t'.mapping :=
    ⟨fun _ _ h => Std.Symm.symm _ _ h⟩
  have hcoherent : ∀ c ∈ s.dispatched networkId targets v,
      ∀ c' ∈ s.dispatched networkId targets v, c.credential.id = c'.credential.id →
        c.credential = c'.credential := by
    intro c hc c' hc' hid
    have hget := coherent_contributions c (mem_filter.mp hc).1
    rw [hid, coherent_contributions c' (mem_filter.mp hc').1] at hget
    exact (some.inj hget).symm
  rw [build_eq_dispatched,
    (orderMappingsForDispatch_perm _).pairwise_iff fun h => Std.Symm.symm _ _ h,
    pairwise_map, BTreeMap.pairwise_values]
  constructor
  · intro h c hc c' hc' hcovers hcovers' hrivals
    obtain ⟨hne, hservice, hsnmp⟩ := rivals_iff.mp hrivals
    obtain ⟨t, ht⟩ := (hsum.named c.credential.id).mpr ⟨c, hc, rfl⟩
    obtain ⟨t', ht'⟩ := (hsum.named c'.credential.id).mpr ⟨c', hc', rfl⟩
    obtain ⟨p, hp⟩ := (exists_mem_resolve_iff hsum ht).mpr ⟨c, hc, rfl, hcovers⟩
    obtain ⟨p', hp'⟩ := (exists_mem_resolve_iff hsum ht').mpr ⟨c', hc', rfl, hcovers'⟩
    obtain ⟨d, hd, hid, hpayload⟩ := hsum.payload _ t ht _ (mem_payloads_of_mem_resolve hp)
    obtain ⟨d', hd', hid', hpayload'⟩ := hsum.payload _ t' ht' _ (mem_payloads_of_mem_resolve hp')
    have hexclusive := h _ t _ t' (Ne.symm hne) ht ht' p hp p' hp'
    rw [hpayload, hpayload', Contribution.payload, Contribution.payload,
      hcoherent d hd c hc hid, hcoherent d' hd' c' hc' hid', service_toQueryPayload,
      service_toQueryPayload, hservice] at hexclusive
    exact hsnmp (some.inj (hexclusive rfl))
  · intro h k t k' t' hk ht ht' p hp p' hp' hservice
    obtain ⟨c, hc, hid, hcovers⟩ := (exists_mem_resolve_iff hsum ht).mp ⟨p, hp⟩
    obtain ⟨c', hc', hid', hcovers'⟩ := (exists_mem_resolve_iff hsum ht').mp ⟨p', hp'⟩
    obtain ⟨d, hd, hdid, hpayload⟩ := hsum.payload _ t ht _ (mem_payloads_of_mem_resolve hp)
    obtain ⟨d', hd', hdid', hpayload'⟩ := hsum.payload _ t' ht' _ (mem_payloads_of_mem_resolve hp')
    rw [hpayload, hpayload', Contribution.payload, Contribution.payload,
      hcoherent d hd c hc (hdid.trans hid.symm), hcoherent d' hd' c' hc' (hdid'.trans hid'.symm),
      service_toQueryPayload, service_toQueryPayload] at hservice
    rw [hpayload, Contribution.payload, hcoherent d hd c hc (hdid.trans hid.symm),
      service_toQueryPayload]
    by_contra hsnmp
    refine h c hc c' hc' hcovers hcovers' (rivals_iff.mpr ⟨?_, ?_, ?_⟩)
    · rw [hid, hid']
      exact Ne.symm hk
    · exact (some.inj hservice).symm
    · exact fun heq => hsnmp (congrArg some heq)

theorem dispatched_newest :
    s.dispatched networkId targets (some ⟨1, 0, 0, ""⟩) = s.contributions networkId targets := by
  refine filter_eq_self.mpr fun c _ => ?_
  rw [Contribution.compatible]
  cases c.credential.credentialType.discriminant <;> rfl

end Static

def Apart (inv : Inventory) (s : AssignmentState) : Prop :=
  ∀ networkId targets, ScanTargets inv s networkId targets → ∀ ip,
    s.store.HasAddress networkId ip → ∀ cred ∈ s.store.credentials,
      s.store.Reaches networkId targets cred ip → ∀ other ∈ s.store.credentials,
        cred.Rivals other → ¬s.store.Reaches networkId targets other ip

section Steps
variable {inv : Inventory} {s s' : AssignmentState}
variable {store store' : CredentialStore} {w : CredentialWrite}

theorem oneEndpoint_iff_apart : OneEndpoint inv s ↔ Apart inv s := by
  constructor
  · intro h networkId targets hscan ip hip cred hcred hreach other hother hrivals hreach'
    have hpair := h networkId targets hscan (some ⟨1, 0, 0, ""⟩) ip hip
    rw [pairwise_exclusiveAt_iff, dispatched_newest] at hpair
    obtain ⟨c, hc, rfl, hcovers⟩ := (reaches_iff hcred).mp hreach
    obtain ⟨c', hc', rfl, hcovers'⟩ := (reaches_iff hother).mp hreach'
    exact hpair c hc c' hc' hcovers hcovers' hrivals
  · intro h networkId targets hscan v ip hip
    refine pairwise_exclusiveAt_iff.mpr fun c hc c' hc' hcovers hcovers' hrivals => ?_
    have hc := (mem_filter.mp hc).1
    have hc' := (mem_filter.mp hc').1
    have hmem := (Table.find_eq_some.mp (coherent_contributions c hc)).1
    have hmem' := (Table.find_eq_some.mp (coherent_contributions c' hc')).1
    exact h networkId targets hscan ip hip c.credential hmem
      ((reaches_iff hmem).mpr ⟨c, hc, rfl, hcovers⟩) c'.credential hmem' hrivals
      ((reaches_iff hmem').mpr ⟨c', hc', rfl, hcovers'⟩)

theorem writeCredential_eq_some
    (h : store.writeCredential w = some store') :
    store'.networks = store.networks ∧ store'.hosts = store.hosts ∧
      store'.ipAddresses = store.ipAddresses ∧
      (∀ cred, cred ∈ store'.credentials ↔
        (cred ∈ store.credentials ∧ cred.id ≠ w.credential.id) ∨ cred = w.credential) ∧
      (∀ r, r ∈ store'.networkCredentials ↔
        (r ∈ store.networkCredentials ∧ r.credentialId ≠ w.credential.id) ∨
          ∃ n ∈ w.assignedNetworkIds, r = ⟨n, w.credential.id⟩) ∧
      ∀ r, r ∈ store'.hostCredentials ↔
        (r ∈ store.hostCredentials ∧ r.credentialId ≠ w.credential.id) ∨
          ∃ a ∈ w.hostAssignments, r = ⟨a.hostId, w.credential.id, a.ipAddressIds⟩ := by
  obtain ⟨store₁, h₁, h₂⟩ := bind_eq_some_iff.mp h
  obtain ⟨networks, hnetworks, rfl⟩ := map_eq_some_iff.mp h₁
  obtain ⟨hosts, hhosts, rfl⟩ := map_eq_some_iff.mp h₂
  refine ⟨rfl, rfl, rfl, fun cred => Table.mem_put, fun r => ?_, fun r => ?_⟩
  · rw [Table.mem_replaceWhere hnetworks, decide_eq_false_iff_not, List.mem_map]
    exact or_congr_right (exists_congr fun n => and_congr_right fun _ => eq_comm)
  · rw [Table.mem_replaceWhere hhosts, decide_eq_false_iff_not, List.mem_map]
    exact or_congr_right (exists_congr fun a => and_congr_right fun _ => eq_comm)

theorem reaches_writeCredential
    (h : store.writeCredential w = some store') (networkId : Uuid)
    (targets : List IntegrationTarget) (ip : IpAddr) :
    (store'.Reaches networkId targets w.credential ip ↔ w.Reaches store networkId targets ip) ∧
      ∀ cred, cred.id ≠ w.credential.id →
        (store'.Reaches networkId targets cred ip ↔ store.Reaches networkId targets cred ip) := by
  obtain ⟨hnet, hhosts, hips, -, hnets, hassign⟩ := writeCredential_eq_some h
  have howned : store'.ownedByNetworkOrg networkId = store.ownedByNetworkOrg networkId := by
    funext cred
    rw [ownedByNetworkOrg, ownedByNetworkOrg,
      getNetwork, getNetwork, hnet]
  have hcovers : store'.AssignmentCovers networkId = store.AssignmentCovers networkId := by
    funext hostId ids ip
    rw [CredentialStore.AssignmentCovers, CredentialStore.AssignmentCovers,
      ipAddressesOf, ipAddressesOf, hhosts, hips]
  constructor
  · rw [CredentialStore.Reaches, CredentialStore.AssignedAt, CredentialWrite.Reaches, howned,
      hcovers]
    refine or_congr_left (and_congr_right fun _ => or_congr ?_ ?_)
    · constructor
      · rintro ⟨r, hr, hrnet, hid⟩
        rcases (hnets r).mp hr with ⟨-, hne⟩ | ⟨n, hn, rfl⟩
        · exact absurd hid hne
        · exact hrnet ▸ hn
      · intro hn
        exact ⟨⟨networkId, w.credential.id⟩, (hnets _).mpr (Or.inr ⟨networkId, hn, rfl⟩), rfl, rfl⟩
    · constructor
      · rintro ⟨r, hr, hid, hcov⟩
        rcases (hassign r).mp hr with ⟨-, hne⟩ | ⟨a, ha, rfl⟩
        · exact absurd hid hne
        · exact ⟨a, ha, hcov⟩
      · rintro ⟨a, ha, hcov⟩
        exact ⟨_, (hassign _).mpr (Or.inr ⟨a, ha, rfl⟩), rfl, hcov⟩
  · intro cred hne
    rw [CredentialStore.Reaches, CredentialStore.AssignedAt, CredentialStore.Reaches,
      CredentialStore.AssignedAt, howned, hcovers]
    refine or_congr_left (and_congr_right fun _ => or_congr ?_ ?_)
    · refine exists_congr fun r => ?_
      rw [hnets]
      constructor
      · rintro ⟨⟨hr, -⟩ | ⟨n, -, rfl⟩, hrnet, hid⟩
        · exact ⟨hr, hrnet, hid⟩
        · exact absurd hid.symm hne
      · rintro ⟨hr, hrnet, hid⟩
        exact ⟨Or.inl ⟨hr, hid ▸ hne⟩, hrnet, hid⟩
    · refine exists_congr fun r => ?_
      rw [hassign]
      constructor
      · rintro ⟨⟨hr, -⟩ | ⟨a, -, rfl⟩, hid, hcov⟩
        · exact ⟨hr, hid, hcov⟩
        · exact absurd hid.symm hne
      · rintro ⟨hr, hid, hcov⟩
        exact ⟨Or.inl ⟨hr, hid ▸ hne⟩, hid, hcov⟩

theorem apart_credential_iff (hs : Apart inv s)
    (h : (assignments inv).step s (.credential w) = some s') :
    Apart inv s' ↔ KeepsApart inv s (.credential w) := by
  simp only [assignments] at h
  split_ifs at h with hconflict
  obtain ⟨store, hstore, rfl⟩ := map_eq_some_iff.mp h
  obtain ⟨-, hhosts, hips, hcreds, -, -⟩ := writeCredential_eq_some hstore
  have haddr : ∀ {networkId ip},
      store.HasAddress networkId ip ↔ s.store.HasAddress networkId ip := by
    intro networkId ip
    rw [CredentialStore.HasAddress, CredentialStore.HasAddress, hhosts, hips]
  have hmem : w.credential ∈ store.credentials := (hcreds _).mpr (Or.inr rfl)
  constructor
  · intro h' networkId targets hscan ip hip hreach other hother hrivals hreach'
    have hreaches := reaches_writeCredential hstore networkId targets ip
    exact h' networkId targets hscan ip (haddr.mpr hip) w.credential hmem (hreaches.1.mpr hreach)
      other ((hcreds other).mpr (Or.inl ⟨hother, hrivals.1⟩)) hrivals
      ((hreaches.2 other hrivals.1).mpr hreach')
  · intro hok networkId targets hscan ip hip cred hcred hreach other hother hrivals hreach'
    have hreaches := reaches_writeCredential hstore networkId targets ip
    have hip := haddr.mp hip
    -- either one of the two was written, or both are as before
    rcases (hcreds cred).mp hcred with ⟨hcred, hne⟩ | rfl
    · rcases (hcreds other).mp hother with ⟨hother, hne'⟩ | rfl
      · exact hs networkId targets hscan ip hip cred hcred ((hreaches.2 cred hne).mp hreach) other
          hother hrivals ((hreaches.2 other hne').mp hreach')
      · exact hok networkId targets hscan ip hip (hreaches.1.mp hreach') cred hcred hrivals.symm
          ((hreaches.2 cred hne).mp hreach)
    · rcases (hcreds other).mp hother with ⟨hother, hne'⟩ | rfl
      · exact hok networkId targets hscan ip hip (hreaches.1.mp hreach) other hother hrivals
          ((hreaches.2 other hne').mp hreach')
      · exact hrivals.1 rfl

theorem apart_discovery_iff {id daemonHostId : Uuid} {targets : List IntegrationTarget}
    (hs : Apart inv s)
    (h : (assignments inv).step s (.discovery id daemonHostId targets) = some s') :
    Apart inv s' ↔ KeepsApart inv s (.discovery id daemonHostId targets) := by
  simp only [assignments] at h
  split_ifs at h with hconflict
  cases h
  constructor
  · intro h' networkId hdisc ip hip cred hcred htarget other hother hrivals
    have hscan : ScanTargets inv { s with targets := Function.update s.targets id targets }
        networkId targets := Or.inr ⟨id, hdisc, (update_self id targets s.targets).symm⟩
    exact h' networkId targets hscan ip hip cred hcred (Or.inr htarget) other hother hrivals
  · intro hok networkId targets' hscan ip hip cred hcred hreach other hother hrivals hreach'
    rcases hscan with hnil | ⟨id', hdisc, htargets⟩
    · exact hs networkId targets' (Or.inl hnil) ip hip cred hcred hreach other hother hrivals
        hreach'
    · by_cases hid : id' = id
      · subst hid
        have htargets : targets' = targets := htargets.trans (update_self id' targets s.targets)
        subst htargets
        rcases hreach with hassigned | htargeted
        · rcases hreach' with hassigned' | htargeted'
          · -- both are assigned, which a scan without targets sees as well
            exact hs networkId [] (Or.inl rfl) ip hip cred hcred (Or.inl hassigned) other hother
              hrivals (Or.inl hassigned')
          · exact hok networkId hdisc ip hip other hother htargeted' cred hcred hrivals.symm
              (Or.inl hassigned)
        · exact hok networkId hdisc ip hip cred hcred htargeted other hother hrivals hreach'
      · have htargets : targets' = s.targets id' :=
          htargets.trans (update_of_ne hid targets s.targets)
        exact hs networkId targets' (Or.inr ⟨id', hdisc, htargets⟩) ip hip cred hcred hreach
          other hother hrivals hreach'

/-- Along a run of accepted writes, no address of a host is ever offered two credentials of one
single-endpoint integration, exactly if no write brings a credential to an address of a rival. -/
theorem oneEndpoint_iff_keepsApart (inv : Inventory) (ws : List AssignmentWrite)
    (s : AssignmentState) (h : (assignments inv).run (assignments inv).init ws = some s) :
    (assignments inv).Always (OneEndpoint inv) (assignments inv).init ws ↔
      (assignments inv).Guarded (KeepsApart inv) (assignments inv).init ws := by
  refine Lts.always_iff_guarded ?_ ?_ h
  · refine oneEndpoint_iff_apart.mpr ?_
    intro networkId targets _ ip _ cred hcred
    exact absurd hcred not_mem_nil
  · intro s w s' _ hs hstep
    rw [oneEndpoint_iff_apart] at hs ⊢
    cases w with
    | credential w => exact apart_credential_iff hs hstep
    | discovery id daemonHostId targets => exact apart_discovery_iff hs hstep

end Steps

section Runs

private def oneHost : Inventory where
  networks := [⟨1, 10⟩]
  hosts := [⟨2, 0, 0, none, none, ⟨"docker", 1, none, none, none, false, []⟩⟩]
  ipAddresses := [⟨3, 0, 0, none, none, ⟨1, 2, 4, .v4 0x0A000005#32, none, none, 0, 0⟩⟩]
  discoveries := [(5, 1)]

private def dockerProxy (id : Uuid) (name : String) : Credential :=
  ⟨id, 10, name, .dockerProxy 2375 none none none none⟩

private def twoProxies : List AssignmentWrite :=
  [.credential ⟨dockerProxy 20 "assigned", [], [⟨2, none⟩]⟩,
    .credential ⟨dockerProxy 21 "targeted", [], []⟩,
    .discovery 5 2 [.hosts 21 [.v4 0x0A000005#32]]]

private def oneProxy : List AssignmentWrite :=
  [.credential ⟨dockerProxy 20 "assigned", [], [⟨2, none⟩]⟩]

theorem oneEndpoint_iff_keepsApart_oneProxy :
    (∃ s, (assignments oneHost).run (assignments oneHost).init oneProxy = some s) ∧
      (assignments oneHost).Always (OneEndpoint oneHost) (assignments oneHost).init oneProxy := by
  obtain ⟨s, hrun⟩ : ∃ s, (assignments oneHost).run (assignments oneHost).init oneProxy = some s :=
    isSome_iff_exists.mp (by decide)
  refine ⟨⟨s, hrun⟩, (oneEndpoint_iff_keepsApart oneHost oneProxy s hrun).mpr ⟨?_, ?_⟩⟩
  · intro networkId targets _ ip _ _ other hother
    exact absurd hother not_mem_nil
  · intro s' _
    trivial

theorem two_endpoints_at_one_address :
    ¬∀ (inv : Inventory) (ws : List AssignmentWrite) (s : AssignmentState),
      (assignments inv).run (assignments inv).init ws = some s → OneEndpoint inv s := by
  intro h
  obtain ⟨s, hrun⟩ : ∃ s, (assignments oneHost).run (assignments oneHost).init twoProxies =
      some s := isSome_iff_exists.mp (by decide)
  have hobserve : ∀ {α : Type} (f : AssignmentState → α) {a : α},
      ((assignments oneHost).run (assignments oneHost).init twoProxies).map f = some a →
        f s = a := by
    intro α f a hf
    rw [hrun] at hf
    exact some.inj hf
  have htargets := hobserve (fun s => s.targets 5) (a := [.hosts 21 [.v4 0x0A000005#32]]) (by rfl)
  have hhosts := hobserve (fun s => s.store.hosts) (a := oneHost.hosts) (by rfl)
  have hips := hobserve (fun s => s.store.ipAddresses) (a := oneHost.ipAddresses) (by rfl)
  have hbuild := hobserve (fun s => s.store.buildAllCredentialMappings 1
    [.hosts 21 [.v4 0x0A000005#32]] none)
    (a := [⟨none, [⟨.v4 0x0A000005#32, (dockerProxy 20 "").credentialType.toQueryPayload, 20⟩]⟩,
      ⟨none, [⟨.v4 0x0A000005#32, (dockerProxy 21 "").credentialType.toQueryPayload, 21⟩]⟩])
    (by decide)
  have hpair := h oneHost twoProxies s hrun 1 [.hosts 21 [.v4 0x0A000005#32]]
    (Or.inr ⟨5, mem_singleton_self _, htargets.symm⟩) none (.v4 0x0A000005#32) (by
      rw [CredentialStore.HasAddress, hhosts, hips]
      exact ⟨_, mem_singleton_self _, rfl, _, mem_singleton_self _, rfl, rfl⟩)
  have hexclusive := rel_of_pairwise_cons (hbuild ▸ hpair) (mem_singleton_self _)
  have hservice := hexclusive _ mem_cons_self _ mem_cons_self rfl
  exact absurd hservice (by decide)

end Runs
end Scanopy
