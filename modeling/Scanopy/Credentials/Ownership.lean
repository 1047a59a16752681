import Scanopy.Credentials.Contributions

/-! Whose secrets are dispatched. The credentials of a network and of its hosts are filtered by the
organization of the network; the credentials that the integration targets of a discovery name are
not. -/

namespace Scanopy
open List Option
namespace CredentialStore
variable {s s' : CredentialStore} {networkId : Uuid} {n : Network}
  {targets : List IntegrationTarget} {v : Option Version}
variable {c : Contribution} {cred : Credential} {org : Uuid}

/-- The stores differ at most in credentials of organizations other than `org`. -/
structure SameFor (org : Uuid) (s s' : CredentialStore) : Prop where
  credentials : ∀ cred, cred.organizationId = org → (cred ∈ s.credentials ↔ cred ∈ s'.credentials)
  networkCredentials : s.networkCredentials = s'.networkCredentials
  hostCredentials : s.hostCredentials = s'.hostCredentials
  networks : s.networks = s'.networks
  hosts : s.hosts = s'.hosts
  ipAddresses : s.ipAddresses = s'.ipAddresses

/-- Every integration target that a daemon of version `v` is offered names a credential of
`org`. -/
def TargetsOwned (s : CredentialStore) (org : Uuid) (targets : List IntegrationTarget)
    (v : Option Version) : Prop :=
  ∀ t ∈ targets, ∀ cred, s.getById t.credentialId = some cred → t.Applies cred.credentialType →
    cred.credentialType.discriminant.compatibleWithDaemon v = true → cred.organizationId = org

/-- Every payload in the mappings is that of a stored credential of `org`. -/
def OwnPayloads (s : CredentialStore) (org : Uuid)
    (mappings : List (CredentialMapping CredentialQueryPayload)) : Prop :=
  ∀ m ∈ mappings, ∀ p ∈ m.payloads, ∃ cred ∈ s.credentials, cred.organizationId = org ∧
    p = cred.credentialType.toQueryPayload

def ownPart (s : CredentialStore) (org : Uuid) : CredentialStore :=
  { s with credentials := s.credentials.delete fun cred => cred.organizationId ≠ org }

theorem mem_credentials_ownPart :
    cred ∈ (s.ownPart org).credentials ↔ cred ∈ s.credentials ∧ cred.organizationId = org := by
  show cred ∈ s.credentials.delete _ ↔ _
  rw [Table.mem_delete, decide_eq_false_iff_not, not_not]

theorem sameFor_ownPart (org : Uuid) : SameFor org s (s.ownPart org) where
  credentials cred hcred := by rw [mem_credentials_ownPart, and_iff_left hcred]
  networkCredentials := rfl
  hostCredentials := rfl
  networks := rfl
  hosts := rfl
  ipAddresses := rfl

theorem targetsOwned_ownPart (org : Uuid) : (s.ownPart org).TargetsOwned org targets v := by
  intro t _ cred hcred _ _
  exact (mem_credentials_ownPart.mp (Table.find_eq_some.mp hcred).1).2

theorem ownedByNetworkOrg_iff (hn : s.getNetwork networkId = some n) :
    s.ownedByNetworkOrg networkId cred = true ↔ cred.organizationId = n.organizationId := by
  rw [ownedByNetworkOrg, hn]
  exact decide_eq_true_iff

theorem getOwned_congr (hn : s.getNetwork networkId = some n)
    (hsame : SameFor n.organizationId s s') (id : Uuid) :
    s.getOwned networkId id = s'.getOwned networkId id := by
  have hn' : s'.getNetwork networkId = some n := by
    rw [getNetwork, ← hsame.networks]
    exact hn
  ext cred
  rw [getOwned_eq_some, getOwned_eq_some, ownedByNetworkOrg_iff hn, ownedByNetworkOrg_iff hn']
  refine and_congr_left fun howned => ?_
  rw [getById, getById, Table.find_eq_some, Table.find_eq_some]
  exact and_congr_left fun _ => hsame.credentials cred howned

def ownTargetContributions (s : CredentialStore) (networkId : Uuid)
    (targets : List IntegrationTarget) : List Contribution :=
  targets.filterMap fun t =>
    ((s.getOwned networkId t.credentialId).filter fun cred => t.Applies cred.credentialType).map
      fun cred => ⟨cred, t.offer⟩

theorem filter_targetContributions (hn : s.getNetwork networkId = some n)
    (howned : s.TargetsOwned n.organizationId targets v) :
    (s.targetContributions targets).filter (·.compatible v) =
      (s.ownTargetContributions networkId targets).filter (·.compatible v) := by
  rw [targetContributions, ownTargetContributions, filter_filterMap, filter_filterMap]
  refine filterMap_congr fun t ht => ?_
  rw [getOwned]
  cases hcred : s.getById t.credentialId with
  | none => rfl
  | some cred =>
    have howned := howned t ht cred hcred
    rw [← ownedByNetworkOrg_iff hn] at howned
    -- a credential of another organization is dropped on both sides
    by_cases happlies : t.Applies cred.credentialType
    · by_cases hcompat : cred.credentialType.discriminant.compatibleWithDaemon v = true
      · rw [filter_some (p := s.ownedByNetworkOrg networkId), if_pos (howned happlies hcompat)]
      · by_cases hown : s.ownedByNetworkOrg networkId cred = true
        · rw [filter_some (p := s.ownedByNetworkOrg networkId), if_pos hown]
        · simp [filter_some, hown, happlies, Contribution.compatible, hcompat]
    · by_cases hown : s.ownedByNetworkOrg networkId cred = true
      · rw [filter_some (p := s.ownedByNetworkOrg networkId), if_pos hown]
      · simp [filter_some, hown, happlies]

theorem dispatched_eq (hn : s.getNetwork networkId = some n)
    (howned : s.TargetsOwned n.organizationId targets v) :
    s.dispatched networkId targets v =
      (s.networkContributions networkId ++ s.hostContributions networkId ++
        s.ownTargetContributions networkId targets).filter (·.compatible v) := by
  simp only [dispatched, contributions, filter_append, filter_targetContributions hn howned]

theorem dispatched_congr (hn : s.getNetwork networkId = some n)
    (hsame : SameFor n.organizationId s s') (howned : s.TargetsOwned n.organizationId targets v)
    (howned' : s'.TargetsOwned n.organizationId targets v) :
    s.dispatched networkId targets v = s'.dispatched networkId targets v := by
  have hn' : s'.getNetwork networkId = some n := by
    rw [getNetwork, ← hsame.networks]
    exact hn
  have hget : s.getOwned networkId = s'.getOwned networkId := funext (getOwned_congr hn hsame)
  have hnet : s.networkContributions networkId = s'.networkContributions networkId := by
    rw [networkContributions, networkContributions, hget, getCredentialIdsForNetwork,
      getCredentialIdsForNetwork, hsame.networkCredentials]
  have hhost : s.hostContributions networkId = s'.hostContributions networkId := by
    have hassigned : s.getCredentialAssignmentsForHost = s'.getCredentialAssignmentsForHost := by
      funext hostId
      rw [getCredentialAssignmentsForHost, getCredentialAssignmentsForHost, hsame.hostCredentials]
    rw [hostContributions, hostContributions, hget, hassigned, hostsOf, hostsOf, hsame.hosts,
      ipAddressesOf, ipAddressesOf, hsame.ipAddresses]
  have htargets : s.ownTargetContributions networkId targets =
      s'.ownTargetContributions networkId targets := by
    rw [ownTargetContributions, ownTargetContributions, hget]
  rw [dispatched_eq hn howned, dispatched_eq hn' howned', hnet, hhost, htargets]

theorem of_mem_dispatched (hn : s.getNetwork networkId = some n)
    (howned : s.TargetsOwned n.organizationId targets v)
    (hc : c ∈ s.dispatched networkId targets v) :
    c.credential ∈ s.credentials ∧ c.credential.organizationId = n.organizationId := by
  obtain ⟨hc, hcompat⟩ := mem_filter.mp hc
  refine ⟨(Table.find_eq_some.mp (coherent_contributions c hc)).1, ?_⟩
  rcases mem_contributions.mp hc with hc | hc | hc
  · obtain ⟨-, r, -, -, hcred⟩ := mem_networkContributions.mp hc
    exact (ownedByNetworkOrg_iff hn).mp (getOwned_eq_some.mp hcred).2
  · obtain ⟨host, -, -, r, -, -, hcred, -⟩ := mem_hostContributions.mp hc
    exact (ownedByNetworkOrg_iff hn).mp (getOwned_eq_some.mp hcred).2
  · obtain ⟨t, ht, hcred, happlies, -⟩ := mem_targetContributions.mp hc
    exact howned t ht c.credential hcred happlies hcompat

theorem exists_contribution_of_mem_payloads {m : CredentialMapping CredentialQueryPayload}
    (hm : m ∈ s.buildAllCredentialMappings networkId targets v) {p : CredentialQueryPayload}
    (hp : p ∈ m.payloads) : ∃ c ∈ s.dispatched networkId targets v, p = c.payload := by
  rw [build_eq_dispatched, (orderMappingsForDispatch_perm _).mem_iff, List.mem_map] at hm
  obtain ⟨t, ht, rfl⟩ := hm
  obtain ⟨k, hk⟩ := BTreeMap.mem_values.mp ht
  obtain ⟨c, hc, -, hpayload⟩ := (Summarizes.foldl _).payload k t hk p hp
  exact ⟨c, hc, hpayload⟩

theorem length_buildAllCredentialMappings (s : CredentialStore) :
    (s.buildAllCredentialMappings networkId targets v).length =
      ((s.dispatched networkId targets v).foldl Contribution.apply
        (.empty : Mappings)).values.length := by
  rw [build_eq_dispatched, (orderMappingsForDispatch_perm _).length_eq, length_map]

theorem mem_contributions_of_ownPart
    (hc : c ∈ (s.ownPart org).contributions networkId targets) :
    c ∈ s.contributions networkId targets := by
  have hget : ∀ id cred, (s.ownPart org).getById id = some cred → s.getById id = some cred := by
    intro id cred hcred
    obtain ⟨hmem, hid⟩ := Table.find_eq_some.mp hcred
    exact Table.find_eq_some.mpr ⟨(mem_credentials_ownPart.mp hmem).1, hid⟩
  have howned : ∀ id cred, (s.ownPart org).getOwned networkId id = some cred →
      s.getOwned networkId id = some cred := by
    intro id cred hcred
    obtain ⟨hcred, howned⟩ := getOwned_eq_some.mp hcred
    exact getOwned_eq_some.mpr ⟨hget id cred hcred, howned⟩
  refine mem_contributions.mpr ?_
  rcases mem_contributions.mp hc with hc | hc | hc
  · obtain ⟨hoffer, r, hr, hnet, hcred⟩ := mem_networkContributions.mp hc
    exact Or.inl (mem_networkContributions.mpr ⟨hoffer, r, hr, hnet, howned _ _ hcred⟩)
  · obtain ⟨host, hhost, hnet, r, hr, hid, hcred, hoffer⟩ := mem_hostContributions.mp hc
    exact Or.inr (Or.inl (mem_hostContributions.mpr
      ⟨host, hhost, hnet, r, hr, hid, howned _ _ hcred, hoffer⟩))
  · obtain ⟨t, ht, hcred, happlies, hoffer⟩ := mem_targetContributions.mp hc
    exact Or.inr (Or.inr (mem_targetContributions.mpr ⟨t, ht, hget _ _ hcred, happlies, hoffer⟩))

theorem length_build_ownPart_lt (hn : s.getNetwork networkId = some n)
    (hc : c ∈ s.dispatched networkId targets v)
    (hforeign : c.credential.organizationId ≠ n.organizationId) :
    ((s.ownPart n.organizationId).buildAllCredentialMappings networkId targets v).length <
      (s.buildAllCredentialMappings networkId targets v).length := by
  have hn' : (s.ownPart n.organizationId).getNetwork networkId = some n := hn
  have hcoherent : s.getById c.credential.id = some c.credential :=
    coherent_contributions c (mem_filter.mp hc).1
  have hstored : ∀ c' ∈ (s.ownPart n.organizationId).dispatched networkId targets v,
      c'.credential ∈ s.credentials ∧ c'.credential.organizationId = n.organizationId := by
    intro c' hc'
    obtain ⟨hmem, hown⟩ := of_mem_dispatched hn' (targetsOwned_ownPart _) hc'
    exact ⟨(mem_credentials_ownPart.mp hmem).1, hown⟩
  have hsub : ∀ c' ∈ (s.ownPart n.organizationId).dispatched networkId targets v,
      c' ∈ s.dispatched networkId targets v := by
    intro c' hc'
    obtain ⟨hc', hcompat⟩ := mem_filter.mp hc'
    exact mem_filter.mpr ⟨mem_contributions_of_ownPart hc', hcompat⟩
  rw [length_buildAllCredentialMappings, length_buildAllCredentialMappings]
  obtain ⟨t, ht⟩ := ((Summarizes.foldl (s.dispatched networkId targets v)).named
    c.credential.id).mpr ⟨c, hc, rfl⟩
  refine BTreeMap.length_values_lt ?_ ?_ ht
  · intro k t' ht'
    obtain ⟨c', hc', hid⟩ := ((Summarizes.foldl _).named k).mp ⟨t', ht'⟩
    exact ((Summarizes.foldl _).named k).mpr ⟨c', hsub c' hc', hid⟩
  · rw [eq_none_iff_forall_ne_some]
    intro t' ht'
    obtain ⟨c', hc', hid⟩ := ((Summarizes.foldl _).named _).mp ⟨t', ht'⟩
    obtain ⟨hmem, hown⟩ := hstored c' hc'
    have hsame : s.getById c.credential.id = some c'.credential :=
      Table.find_eq_some.mpr ⟨hmem, hid⟩
    rw [hcoherent, some.injEq] at hsame
    rw [hsame] at hforeign
    exact hforeign hown

/-- The secrets of other organizations stay out of the mappings, and have no influence on them,
exactly if no integration target brings one in. -/
theorem dispatch_owned_iff (s : CredentialStore) (networkId : Uuid) (n : Network)
    (hn : s.getNetwork networkId = some n) (targets : List IntegrationTarget)
    (v : Option Version) :
    (s.OwnPayloads n.organizationId (s.buildAllCredentialMappings networkId targets v) ∧
      ∀ s', SameFor n.organizationId s s' → s'.TargetsOwned n.organizationId targets v →
        s'.buildAllCredentialMappings networkId targets v =
          s.buildAllCredentialMappings networkId targets v) ↔
      s.TargetsOwned n.organizationId targets v := by
  constructor
  · rintro ⟨-, hsame⟩
    have heq := hsame _ (sameFor_ownPart n.organizationId) (targetsOwned_ownPart _)
    intro t ht cred hcred happlies hcompat
    by_contra hforeign
    have hc : (⟨cred, t.offer⟩ : Contribution) ∈ s.dispatched networkId targets v := by
      refine mem_filter.mpr ⟨mem_contributions.mpr (Or.inr (Or.inr ?_)), hcompat⟩
      exact mem_targetContributions.mpr ⟨t, ht, hcred, happlies, rfl⟩
    have hlt := length_build_ownPart_lt hn hc hforeign
    rw [heq] at hlt
    exact absurd hlt (lt_irrefl _)
  · intro howned
    constructor
    · intro m hm p hp
      obtain ⟨c, hc, hpayload⟩ := exists_contribution_of_mem_payloads hm hp
      obtain ⟨hmem, hown⟩ := of_mem_dispatched hn howned hc
      exact ⟨c.credential, hmem, hown, hpayload⟩
    · intro s' hsame howned'
      rw [build_eq_dispatched, build_eq_dispatched, dispatched_congr hn hsame howned howned']

section Examples

private def twoTenants : CredentialStore where
  credentials := ⟨[⟨20, 10, "own", .snmpV2c (.inline "ours")⟩,
    ⟨21, 11, "foreign", .snmpV2c (.inline "theirs")⟩], by decide⟩
  networkCredentials := ⟨[⟨1, 20⟩, ⟨1, 21⟩], by decide⟩
  hostCredentials := ⟨[], by decide⟩
  networks := [⟨1, 10⟩]
  hosts := []
  ipAddresses := []

theorem dispatch_owned_iff_junction :
    twoTenants.OwnPayloads 10 (twoTenants.buildAllCredentialMappings 1 [.network 20] none) := by
  refine ((dispatch_owned_iff twoTenants 1 ⟨1, 10⟩ (by decide) [.network 20] none).mpr ?_).1
  intro t ht cred hcred _ _
  obtain rfl := mem_singleton.mp ht
  cases hcred
  rfl

/-- A target that names the other tenant's credential brings its community string. -/
theorem foreign_target_dispatched :
    ¬∀ (s : CredentialStore) (networkId : Uuid) (n : Network),
      s.getNetwork networkId = some n → ∀ (targets : List IntegrationTarget) (v : Option Version),
        s.OwnPayloads n.organizationId (s.buildAllCredentialMappings networkId targets v) := by
  intro h
  have howned := h twoTenants 1 ⟨1, 10⟩ (by decide) [.network 21] none
  have hmem : (⟨some (.snmp ⟨.v2c, .value "theirs", none⟩), []⟩ :
      CredentialMapping CredentialQueryPayload) ∈
        twoTenants.buildAllCredentialMappings 1 [.network 21] none := by decide
  obtain ⟨cred, hcred, horg, hpayload⟩ :=
    howned _ hmem (.snmp ⟨.v2c, .value "theirs", none⟩) (by decide)
  have hcases : cred = ⟨20, 10, "own", .snmpV2c (.inline "ours")⟩ ∨
      cred = ⟨21, 11, "foreign", .snmpV2c (.inline "theirs")⟩ := by
    simpa [twoTenants] using (show cred ∈ twoTenants.credentials.rows from hcred)
  rcases hcases with rfl | rfl
  · exact absurd hpayload (by decide)
  · exact absurd horg (by decide)

end Examples
end CredentialStore
end Scanopy
