import Scanopy.Credentials.Mapping

/-! What the three sources offer, as one list. A source adds to the mapping of one credential at a
time, so the mapping of a credential depends on its own part of the list only. -/

namespace Scanopy

open List

/-- What a source adds to the mapping of a credential. -/
inductive Offer
  | broadcast
  | assigned (ips : List IpAddr)
  | targeted (ips : List IpAddr)

namespace Offer

def Covers (ip : IpAddr) : Offer → Prop
  | broadcast => True
  | assigned ips | targeted ips => ip ∈ ips

def extend (payload : CredentialQueryPayload) (credentialId : Uuid) :
    Offer → CredentialMapping CredentialQueryPayload → CredentialMapping CredentialQueryPayload
  | broadcast, m => { m with defaultCredential := some payload }
  | assigned ips, m =>
    { m with ipOverrides := m.ipOverrides ++ ips.map fun ip => ⟨ip, payload, credentialId⟩ }
  | targeted ips, m => ips.foldl (fun m ip => pushUniqueOverride m ip payload credentialId) m

end Offer

structure Contribution where
  credential : Credential
  offer : Offer

namespace Contribution

def payload (c : Contribution) : CredentialQueryPayload :=
  c.credential.credentialType.toQueryPayload

def apply (mappings : Mappings) (c : Contribution) : Mappings :=
  mappingFor mappings c.credential.id c.credential.credentialType
    (c.offer.extend c.payload c.credential.id)

end Contribution

namespace CredentialMapping

def payloads {T : Type} (m : CredentialMapping T) : List T :=
  m.defaultCredential.toList ++ m.ipOverrides.map (·.credential)

/-- Something is offered for `ip`. -/
def Offers {T : Type} (m : CredentialMapping T) (ip : IpAddr) : Prop :=
  m.defaultCredential.isSome ∨ ∃ o ∈ m.ipOverrides, o.ip = ip

def ips {T : Type} (m : CredentialMapping T) : List IpAddr := m.ipOverrides.map (·.ip)

theorem ips_append {T : Type} (m : CredentialMapping T) (l : List (IpOverride T)) :
    ({ m with ipOverrides := m.ipOverrides ++ l } : CredentialMapping T).ips =
      m.ips ++ l.map (·.ip) := map_append

def OfId {T : Type} (m : CredentialMapping T) (id : Uuid) : Prop :=
  ∀ o ∈ m.ipOverrides, o.credentialId = id

end CredentialMapping

section Extend
variable {payload : CredentialQueryPayload} {credentialId : Uuid}
  {m : CredentialMapping CredentialQueryPayload}
variable {p : CredentialQueryPayload} {ip : IpAddr} {offer : Offer}

theorem offers_pushUniqueOverride {ip' : IpAddr} :
    (pushUniqueOverride m ip' payload credentialId).Offers ip ↔ m.Offers ip ∨ ip = ip' := by
  rw [pushUniqueOverride]
  split_ifs with h
  · -- an override for `ip'` is there already
    obtain ⟨o, ho, hip⟩ := List.any_eq_true.mp h
    rw [Bool.and_eq_true, decide_eq_true_eq] at hip
    have hoffers : ip = ip' → m.Offers ip := fun hip' => Or.inr ⟨o, ho, hip.1.trans hip'.symm⟩
    exact (or_iff_left_of_imp hoffers).symm
  · simp only [CredentialMapping.Offers, mem_append, mem_singleton, or_and_right,
      exists_or, exists_eq_left, or_assoc, eq_comm (a := ip)]

theorem mem_payloads_pushUniqueOverride
    (h : p ∈ (pushUniqueOverride m ip payload credentialId).payloads) :
    p ∈ m.payloads ∨ p = payload := by
  rw [pushUniqueOverride] at h
  split_ifs at h with hany
  · exact Or.inl h
  · simp only [CredentialMapping.payloads, map_append, map_cons, map_nil,
      mem_append, mem_singleton] at h ⊢
    tauto

theorem offers_extend :
    (offer.extend payload credentialId m).Offers ip ↔ m.Offers ip ∨ offer.Covers ip := by
  cases offer with
  | broadcast => simp [Offer.extend, Offer.Covers, CredentialMapping.Offers]
  | assigned ips =>
    simp only [Offer.extend, Offer.Covers, CredentialMapping.Offers, mem_append,
      mem_map, or_and_right, exists_or, or_assoc]
    refine or_congr_right (or_congr_right ?_)
    constructor
    · rintro ⟨o, ⟨ip', hip', rfl⟩, rfl⟩
      exact hip'
    · intro hip
      exact ⟨_, ⟨ip, hip, rfl⟩, rfl⟩
  | targeted ips =>
    simp only [Offer.extend, Offer.Covers]
    induction ips generalizing m with
    | nil => simp
    | cons ip' ips ih =>
      rw [foldl_cons, ih, offers_pushUniqueOverride, mem_cons, or_assoc]

theorem mem_payloads_extend
    (h : p ∈ (offer.extend payload credentialId m).payloads) : p ∈ m.payloads ∨ p = payload := by
  cases offer with
  | broadcast =>
    simp only [Offer.extend, CredentialMapping.payloads, Option.toList_some, mem_append,
      mem_singleton] at h ⊢
    tauto
  | assigned ips =>
    simp only [Offer.extend, CredentialMapping.payloads, map_append, map_map,
      mem_append, mem_map (f := _ ∘ _), Function.comp_apply] at h ⊢
    rcases h with h | h | ⟨ip, -, h⟩
    · exact Or.inl (Or.inl h)
    · exact Or.inl (Or.inr h)
    · exact Or.inr h.symm
  | targeted ips =>
    simp only [Offer.extend] at h
    induction ips generalizing m with
    | nil => exact Or.inl h
    | cons ip ips ih =>
      rcases ih h with h | h
      · exact mem_payloads_pushUniqueOverride h
      · exact Or.inr h

theorem foldl_pushUniqueOverride {P : CredentialMapping CredentialQueryPayload → Prop}
    (hpush : ∀ m ip, P m → P (pushUniqueOverride m ip payload credentialId)) (hm : P m)
    (ips : List IpAddr) :
    P (ips.foldl (fun m ip => pushUniqueOverride m ip payload credentialId) m) := by
  induction ips generalizing m with
  | nil => exact hm
  | cons ip ips ih => exact ih (hpush m ip hm)

theorem pushUniqueOverride_cases (m : CredentialMapping CredentialQueryPayload) (ip : IpAddr)
    (payload : CredentialQueryPayload) (credentialId : Uuid) :
    (ip ∈ m.ips ∧ pushUniqueOverride m ip payload credentialId = m) ∨
      ((∀ o ∈ m.ipOverrides, ¬ (o.ip = ip ∧ o.credentialId = credentialId)) ∧
        pushUniqueOverride m ip payload credentialId =
          { m with ipOverrides := m.ipOverrides ++ [⟨ip, payload, credentialId⟩] }) := by
  unfold pushUniqueOverride
  split_ifs with hany
  · obtain ⟨o, ho, hand⟩ := List.any_eq_true.mp hany
    rw [Bool.and_eq_true, decide_eq_true_eq] at hand
    exact .inl ⟨mem_map.mpr ⟨o, ho, hand.1⟩, rfl⟩
  · refine .inr ⟨fun o ho hand => hany (List.any_eq_true.mpr ⟨o, ho, ?_⟩), rfl⟩
    rw [Bool.and_eq_true, decide_eq_true_eq, decide_eq_true_eq]
    exact hand

theorem ofId_pushUniqueOverride (h : m.OfId credentialId) (ip : IpAddr) :
    (pushUniqueOverride m ip payload credentialId).OfId credentialId := by
  rcases pushUniqueOverride_cases m ip payload credentialId with ⟨-, heq⟩ | ⟨-, heq⟩
  · rwa [heq]
  · rw [heq]
    intro o ho
    rcases mem_append.mp ho with ho | ho
    · exact h o ho
    · rw [mem_singleton.mp ho]

theorem ofId_extend (h : m.OfId credentialId) :
    (offer.extend payload credentialId m).OfId credentialId := by
  cases offer with
  | broadcast => exact h
  | assigned ips =>
    intro o ho
    rcases mem_append.mp ho with ho | ho
    · exact h o ho
    · obtain ⟨ip, -, rfl⟩ := mem_map.mp ho
      rfl
  | targeted ips =>
    exact foldl_pushUniqueOverride (P := fun m => m.OfId credentialId)
      (fun _ ip hm => ofId_pushUniqueOverride hm ip) h ips

theorem exists_mem_resolveCredentialsForIp :
    (∃ p, p ∈ resolveCredentialsForIp m ip) ↔ m.Offers ip := by
  simp only [resolveCredentialsForIp, mem_append, exists_or, mem_map, mem_filter,
    decide_eq_true_eq, Option.mem_toList, Option.map_eq_some_iff, CredentialMapping.Offers,
    Option.isSome_iff_exists]
  rw [or_comm]
  refine or_congr ?_ ?_
  · constructor
    · rintro ⟨_, d, hd, _⟩
      exact ⟨d, hd⟩
    · rintro ⟨d, hd⟩
      exact ⟨_, d, hd, rfl⟩
  · constructor
    · rintro ⟨_, o, ho, _⟩
      exact ⟨o, ho⟩
    · rintro ⟨o, ho⟩
      exact ⟨_, o, ho, rfl⟩

theorem mem_payloads_of_mem_resolve {p : CredentialQueryPayload × Option Uuid}
    (h : p ∈ resolveCredentialsForIp m ip) : p.1 ∈ m.payloads := by
  rw [CredentialMapping.payloads, mem_append]
  rcases mem_append.mp h with h | h
  · obtain ⟨o, ho, rfl⟩ := mem_map.mp h
    exact Or.inr (mem_map_of_mem (mem_filter.mp ho).1)
  · obtain ⟨d, hd, rfl⟩ := Option.map_eq_some_iff.mp (Option.mem_toList.mp h)
    exact Or.inl (Option.mem_toList.mpr hd)

end Extend

/-- The map holds, for each credential that `cs` names, what `cs` offers of it. -/
structure Summarizes (cs : List Contribution) (mappings : Mappings) : Prop where
  named : ∀ k, (∃ t, mappings.get k = some t) ↔ ∃ c ∈ cs, c.credential.id = k
  discriminant : ∀ k t, mappings.get k = some t →
    ∃ c ∈ cs, c.credential.id = k ∧ t.discriminant = c.credential.credentialType.discriminant
  payload : ∀ k t, mappings.get k = some t → ∀ p ∈ t.mapping.payloads,
    ∃ c ∈ cs, c.credential.id = k ∧ p = c.payload
  offers : ∀ k t, mappings.get k = some t → ∀ ip,
    (t.mapping.Offers ip ↔ ∃ c ∈ cs, c.credential.id = k ∧ c.offer.Covers ip)

namespace Summarizes
variable {cs : List Contribution} {mappings : Mappings} {c : Contribution}

theorem empty : Summarizes [] .empty where
  named k := by simp
  discriminant k t ht := by simp at ht
  payload k t ht := by simp at ht
  offers k t ht := by simp at ht

theorem get_apply_self :
    (c.apply mappings).get c.credential.id =
      some { (mappings.get c.credential.id).getD (.new c.credential.credentialType.discriminant) with
        mapping := c.offer.extend c.payload c.credential.id
          ((mappings.get c.credential.id).getD
            (.new c.credential.credentialType.discriminant)).mapping } := by
  rw [Contribution.apply, mappingFor, BTreeMap.get_alter, if_pos rfl]

theorem get_apply_of_ne {k : Uuid} (hk : k ≠ c.credential.id) :
    (c.apply mappings).get k = mappings.get k := by
  rw [Contribution.apply, mappingFor, BTreeMap.get_alter, if_neg hk]

theorem apply (h : Summarizes cs mappings) : Summarizes (cs ++ [c]) (c.apply mappings) := by
  have hlast : c ∈ cs ++ [c] := mem_append_right _ (mem_singleton_self c)
  have hmono : ∀ {P : Contribution → Prop}, (∃ c' ∈ cs, P c') → ∃ c' ∈ cs ++ [c], P c' :=
    fun ⟨c', hc', hP⟩ => ⟨c', mem_append_left _ hc', hP⟩
  have hsplit : ∀ {P : Contribution → Prop},
      (∃ c' ∈ cs ++ [c], P c') ↔ (∃ c' ∈ cs, P c') ∨ P c := by
    intro P
    simp only [mem_append, mem_singleton, or_and_right, exists_or, exists_eq_left]
  refine ⟨fun k => ?_, fun k t ht => ?_, fun k t ht p hp => ?_, fun k t ht ip => ?_⟩
  · by_cases hk : k = c.credential.id
    · subst hk
      exact iff_of_true ⟨_, get_apply_self⟩ ⟨c, hlast, rfl⟩
    · rw [get_apply_of_ne hk, h.named, hsplit, or_iff_left (Ne.symm hk)]
  · by_cases hk : k = c.credential.id
    · subst hk
      rw [get_apply_self, Option.some.injEq] at ht
      subst ht
      cases hold : mappings.get c.credential.id with
      | none => exact ⟨c, hlast, rfl, rfl⟩
      | some t => exact hmono (h.discriminant _ t hold)
    · rw [get_apply_of_ne hk] at ht
      exact hmono (h.discriminant k t ht)
  · by_cases hk : k = c.credential.id
    · subst hk
      rw [get_apply_self, Option.some.injEq] at ht
      subst ht
      rcases mem_payloads_extend hp with hp | hp
      · cases hold : mappings.get c.credential.id with
        | none =>
          rw [hold] at hp
          simp [TypedCredentialMapping.new, CredentialMapping.payloads] at hp
        | some t =>
          rw [hold] at hp
          exact hmono (h.payload _ t hold p hp)
      · exact ⟨c, hlast, rfl, hp⟩
    · rw [get_apply_of_ne hk] at ht
      exact hmono (h.payload k t ht p hp)
  · by_cases hk : k = c.credential.id
    · subst hk
      rw [get_apply_self, Option.some.injEq] at ht
      subst ht
      rw [hsplit, offers_extend]
      refine or_congr ?_ (iff_and_self.mpr fun _ => rfl)
      cases hold : mappings.get c.credential.id with
      | none =>
        have hnone : ¬∃ c' ∈ cs, c'.credential.id = c.credential.id := by
          rw [← h.named, hold]
          simp
        refine iff_of_false ?_ fun ⟨c', hc', hid, _⟩ => hnone ⟨c', hc', hid⟩
        simp [TypedCredentialMapping.new, CredentialMapping.Offers]
      | some t => exact h.offers _ t hold ip
    · rw [get_apply_of_ne hk] at ht
      rw [hsplit, h.offers k t ht ip]
      exact (or_iff_left fun hc => hk hc.1.symm).symm

theorem foldl (cs : List Contribution) : Summarizes cs (cs.foldl Contribution.apply .empty) := by
  induction cs using List.reverseRecOn with
  | nil => exact empty
  | append_singleton cs c ih =>
    rw [foldl_append, foldl_cons, foldl_nil]
    exact ih.apply

end Summarizes

namespace IntegrationTarget

def Applies (t : IntegrationTarget) (type : CredentialType) : Prop :=
  t.scope ∈ type.targets ∧ ¬(t.scope = .hosts ∧ t.ips = [])

instance (t : IntegrationTarget) (type : CredentialType) : Decidable (t.Applies type) :=
  inferInstanceAs (Decidable (_ ∧ _))

def offer : IntegrationTarget → Offer
  | network _ => .broadcast
  | t => .targeted t.ips

end IntegrationTarget

variable {type : CredentialType} {t : IntegrationTarget} {mappings : Mappings}

theorem applyIntegrationTarget_of_not_applies (h : ¬t.Applies type) :
    applyIntegrationTarget mappings t type = mappings := by
  rw [applyIntegrationTarget]
  split_ifs with hscope hempty
  · rfl
  · exact absurd ⟨hscope, hempty⟩ h
  · rfl

theorem applyIntegrationTarget_of_applies (h : t.Applies type) :
    applyIntegrationTarget mappings t type = mappingFor mappings t.credentialId type
        (t.offer.extend type.toQueryPayload t.credentialId) := by
  rw [applyIntegrationTarget, if_neg (not_not.mpr h.1), if_neg h.2]
  cases t <;> rfl

namespace CredentialStore
variable (s : CredentialStore) (networkId : Uuid) (targets : List IntegrationTarget)

def getOwned (id : Uuid) : Option Credential :=
  (s.getById id).filter (s.ownedByNetworkOrg networkId)

def networkContributions : List Contribution :=
  (s.getCredentialIdsForNetwork networkId).filterMap fun id =>
    (s.getOwned networkId id).map fun cred => ⟨cred, .broadcast⟩

def hostContributions : List Contribution :=
  (s.hostsOf networkId).flatMap fun host =>
    (s.getCredentialAssignmentsForHost host.id).filterMap fun a =>
      (s.getOwned networkId a.credentialId).map fun cred =>
        ⟨cred, .assigned ((relevantInterfaces host.id a.ipAddressIds
          (s.ipAddressesOf networkId)).map (·.base.ipAddress))⟩

def targetContributions : List Contribution :=
  targets.filterMap fun t =>
    ((s.getById t.credentialId).filter fun cred => t.Applies cred.credentialType).map fun cred =>
      ⟨cred, t.offer⟩

def contributions : List Contribution :=
  s.networkContributions networkId ++ s.hostContributions networkId ++ s.targetContributions targets

theorem applyNetworkCredentials_eq (mappings : Mappings) :
    s.applyNetworkCredentials networkId mappings =
      (s.networkContributions networkId).foldl Contribution.apply mappings := by
  rw [networkContributions, foldl_filterMap, applyNetworkCredentials]
  congr 1
  funext mappings id
  rw [getOwned]
  cases hcred : s.getById id with
  | none => rfl
  | some cred =>
    by_cases howned : s.ownedByNetworkOrg networkId cred = true
    · rw [Option.filter_some, if_pos howned]
      exact if_pos howned
    · rw [Option.filter_some, if_neg howned]
      exact if_neg howned

theorem applyHostCredentials_eq (mappings : Mappings) :
    s.applyHostCredentials networkId mappings =
      (s.hostContributions networkId).foldl Contribution.apply mappings := by
  rw [hostContributions, foldl_flatMap, applyHostCredentials]
  congr 1
  funext mappings host
  rw [foldl_filterMap]
  congr 1
  funext mappings a
  rw [getOwned]
  cases hcred : s.getById a.credentialId with
  | none => rfl
  | some cred =>
    by_cases howned : s.ownedByNetworkOrg networkId cred = true
    · rw [Option.filter_some, if_pos howned]
      simp only [howned, if_true, Option.map_some, Contribution.apply, applyHostAssignment]
      congr 1
      funext mapping
      rw [Offer.extend, map_map]
      rfl
    · rw [Option.filter_some, if_neg howned]
      exact if_neg howned

theorem applyIntegrationTargets_eq (mappings : Mappings) :
    s.applyIntegrationTargets targets mappings =
      (s.targetContributions targets).foldl Contribution.apply mappings := by
  rw [targetContributions, foldl_filterMap, applyIntegrationTargets]
  congr 1
  funext mappings t
  cases hcred : s.getById t.credentialId with
  | none => rfl
  | some cred =>
    by_cases happlies : t.Applies cred.credentialType
    · have hid : cred.id = t.credentialId := (Table.find_eq_some.mp hcred).2
      rw [Option.filter_some, if_pos (decide_eq_true happlies)]
      show applyIntegrationTarget mappings t cred.credentialType = _
      rw [applyIntegrationTarget_of_applies happlies, ← hid]
      rfl
    · rw [Option.filter_some, if_neg (by simpa using happlies)]
      exact applyIntegrationTarget_of_not_applies happlies

theorem buildAllCredentialMappings_eq (daemonVersion : Option Version) :
    s.buildAllCredentialMappings networkId targets daemonVersion =
      orderMappingsForDispatch (retainDaemonCompatible
        ((s.contributions networkId targets).foldl Contribution.apply .empty) daemonVersion) := by
  rw [contributions, foldl_append, foldl_append, buildAllCredentialMappings,
    applyNetworkCredentials_eq, applyHostCredentials_eq, applyIntegrationTargets_eq]

end CredentialStore

def Coherent (s : CredentialStore) (cs : List Contribution) : Prop :=
  ∀ c ∈ cs, s.getById c.credential.id = some c.credential

def Contribution.compatible (daemonVersion : Option Version) (c : Contribution) : Bool :=
  c.credential.credentialType.discriminant.compatibleWithDaemon daemonVersion

/-- The version gate on a map in which an entry of `c`'s credential has the discriminant of its
type. -/
theorem retainDaemonCompatible_apply {m : Mappings} {c : Contribution}
    (hdisc : ∀ t, m.get c.credential.id = some t →
      t.discriminant = c.credential.credentialType.discriminant) (v : Option Version) :
    retainDaemonCompatible (c.apply m) v =
      if c.compatible v then c.apply (retainDaemonCompatible m v)
      else retainDaemonCompatible m v := by
  have hget : ∀ (m : Mappings) k, (retainDaemonCompatible m v).get k =
      (m.get k).filter fun t => t.discriminant.compatibleWithDaemon v :=
    fun m k => BTreeMap.get_retain m _ k
  have hretain : (retainDaemonCompatible m v).get c.credential.id =
      if c.compatible v then m.get c.credential.id else none := by
    rw [hget]
    cases hold : m.get c.credential.id with
    | none => exact (ite_self none).symm
    | some t =>
      rw [Option.filter_some, hdisc t hold]
      rfl
  have hold : ((m.get c.credential.id).getD
      (.new c.credential.credentialType.discriminant)).discriminant =
      c.credential.credentialType.discriminant := by
    cases hold : m.get c.credential.id with
    | none => rfl
    | some t => exact hdisc t hold
  apply BTreeMap.ext_get
  intro k
  rw [hget]
  by_cases hk : k = c.credential.id
  · subst hk
    rw [Summarizes.get_apply_self, Option.filter_some, hold]
    by_cases hcompat : c.compatible v = true
    · rw [if_pos hcompat] at hretain ⊢
      rw [Summarizes.get_apply_self, hretain]
      exact if_pos hcompat
    · rw [if_neg hcompat] at hretain ⊢
      rw [hretain]
      exact if_neg hcompat
  · rw [Summarizes.get_apply_of_ne hk, ← hget]
    split_ifs
    · rw [Summarizes.get_apply_of_ne hk]
    · rfl

theorem retainDaemonCompatible_foldl {s : CredentialStore} {cs : List Contribution}
    (hcs : Coherent s cs) (v : Option Version) :
    retainDaemonCompatible (cs.foldl Contribution.apply .empty) v =
      (cs.filter (·.compatible v)).foldl Contribution.apply .empty := by
  induction cs using List.reverseRecOn with
  | nil => rfl
  | append_singleton cs c ih =>
    have hprev : Coherent s cs := fun c' hc' => hcs c' (mem_append_left _ hc')
    have hlast := hcs c (mem_append_right _ (mem_singleton_self c))
    have hdisc : ∀ t, (cs.foldl Contribution.apply .empty).get c.credential.id = some t →
        t.discriminant = c.credential.credentialType.discriminant := by
      intro t ht
      obtain ⟨c', hc', hid, hd⟩ := (Summarizes.foldl cs).discriminant _ t ht
      have hsame := hprev c' hc'
      rw [hid, hlast, Option.some.injEq] at hsame
      rw [hd, hsame]
    rw [foldl_append, foldl_cons, foldl_nil, retainDaemonCompatible_apply hdisc,
      ih hprev, filter_append, foldl_append, filter_singleton]
    cases c.compatible v <;> rfl

namespace CredentialStore
variable {s : CredentialStore} {networkId : Uuid} {targets : List IntegrationTarget}
variable {c : Contribution} {cred : Credential} {id : Uuid}

theorem getById_id (h : s.getById id = some cred) :
    s.getById cred.id = some cred := by
  rw [(Table.find_eq_some.mp h).2]
  exact h

theorem getOwned_eq_some :
    s.getOwned networkId id = some cred ↔
      s.getById id = some cred ∧ s.ownedByNetworkOrg networkId cred = true := by
  rw [getOwned, Option.filter_eq_some_iff]

theorem mem_networkContributions :
    c ∈ s.networkContributions networkId ↔ c.offer = .broadcast ∧
      ∃ r ∈ s.networkCredentials, r.networkId = networkId ∧
        s.getOwned networkId r.credentialId = some c.credential := by
  simp only [networkContributions, mem_filterMap, getCredentialIdsForNetwork, mem_map,
    mem_filter, decide_eq_true_eq, Option.map_eq_some_iff]
  constructor
  · rintro ⟨_, ⟨r, ⟨hr, hnet⟩, rfl⟩, cred, hcred, rfl⟩
    exact ⟨rfl, r, hr, hnet, hcred⟩
  · rintro ⟨hoffer, r, hr, hnet, hcred⟩
    refine ⟨_, ⟨r, ⟨hr, hnet⟩, rfl⟩, c.credential, hcred, ?_⟩
    rw [← hoffer]

theorem mem_hostContributions :
    c ∈ s.hostContributions networkId ↔ ∃ host ∈ s.hosts, host.base.networkId = networkId ∧
      ∃ r ∈ s.hostCredentials, r.hostId = host.id ∧
        s.getOwned networkId r.credentialId = some c.credential ∧
        c.offer = .assigned ((relevantInterfaces host.id r.ipAddressIds
          (s.ipAddressesOf networkId)).map (·.base.ipAddress)) := by
  simp only [hostContributions, mem_flatMap, hostsOf, mem_filter, decide_eq_true_eq,
    mem_filterMap, getCredentialAssignmentsForHost, mem_map, Option.map_eq_some_iff]
  constructor
  · rintro ⟨host, ⟨hhost, hnet⟩, _, ⟨r, ⟨hr, hid⟩, rfl⟩, cred, hcred, rfl⟩
    exact ⟨host, hhost, hnet, r, hr, hid, hcred, rfl⟩
  · rintro ⟨host, hhost, hnet, r, hr, hid, hcred, hoffer⟩
    refine ⟨host, ⟨hhost, hnet⟩, _, ⟨r, ⟨hr, hid⟩, rfl⟩, c.credential, hcred, ?_⟩
    rw [← hoffer]

theorem mem_targetContributions :
    c ∈ s.targetContributions targets ↔
      ∃ t ∈ targets, s.getById t.credentialId = some c.credential ∧
        t.Applies c.credential.credentialType ∧ c.offer = t.offer := by
  simp only [targetContributions, mem_filterMap, Option.map_eq_some_iff,
    Option.filter_eq_some_iff, decide_eq_true_eq]
  constructor
  · rintro ⟨t, ht, cred, ⟨hcred, happlies⟩, rfl⟩
    exact ⟨t, ht, hcred, happlies, rfl⟩
  · rintro ⟨t, ht, hcred, happlies, hoffer⟩
    refine ⟨t, ht, c.credential, ⟨hcred, happlies⟩, ?_⟩
    rw [← hoffer]

theorem mem_contributions :
    c ∈ s.contributions networkId targets ↔
      c ∈ s.networkContributions networkId ∨ c ∈ s.hostContributions networkId ∨
        c ∈ s.targetContributions targets := by
  rw [contributions, mem_append, mem_append, or_assoc]

theorem coherent_contributions : Coherent s (s.contributions networkId targets) := by
  intro c hc
  rcases mem_contributions.mp hc with hc | hc | hc
  · obtain ⟨-, r, -, -, hcred⟩ := mem_networkContributions.mp hc
    exact getById_id (getOwned_eq_some.mp hcred).1
  · obtain ⟨host, -, -, r, -, -, hcred, -⟩ := mem_hostContributions.mp hc
    exact getById_id (getOwned_eq_some.mp hcred).1
  · obtain ⟨t, -, hcred, -⟩ := mem_targetContributions.mp hc
    exact getById_id hcred

/-- The contributions of the credentials that a daemon of version `v` gets. -/
def dispatched (s : CredentialStore) (networkId : Uuid) (targets : List IntegrationTarget)
    (v : Option Version) : List Contribution :=
  (s.contributions networkId targets).filter (·.compatible v)

theorem build_eq_dispatched (v : Option Version) :
    s.buildAllCredentialMappings networkId targets v = orderMappingsForDispatch
        ((s.dispatched networkId targets v).foldl Contribution.apply .empty) := by
  rw [buildAllCredentialMappings_eq, retainDaemonCompatible_foldl coherent_contributions v]
  rfl

end CredentialStore

theorem orderMappingsForDispatch_perm (mappings : Mappings) :
    (orderMappingsForDispatch mappings).Perm
      (mappings.values.map TypedCredentialMapping.mapping) := by
  rw [orderMappingsForDispatch, partition_eq_filter_filter]
  exact filter_append_perm _ _

end Scanopy
