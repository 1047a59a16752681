import Scanopy.Credentials.Precedence

/-! The overrides that assignments and targets add up to. A target adds only addresses that its
credential does not have yet; an assignment adds all of its own, twice where they repeat. -/

namespace Scanopy

open List Summarizes

structure HostAssignment where
  hostId : Uuid
  assignment : CredentialAssignment
  deriving DecidableEq

def Offer.ips : Offer → List IpAddr
  | broadcast => []
  | assigned ips | targeted ips => ips

section Extend
variable {m : CredentialMapping CredentialQueryPayload} {payload : CredentialQueryPayload}
  {id : Uuid} {offer : Offer}

theorem isSome_default_extend : (offer.extend payload id m).defaultCredential.isSome = true ↔
    m.defaultCredential.isSome = true ∨ offer = .broadcast := by
  cases offer with
  | broadcast => exact iff_of_true rfl (.inr rfl)
  | assigned ips => exact (or_iff_left (fun h => nomatch h)).symm
  | targeted ips =>
    have hsame : ((Offer.targeted ips).extend payload id m).defaultCredential =
        m.defaultCredential := by
      refine foldl_pushUniqueOverride (P := fun m' => m'.defaultCredential = m.defaultCredential)
        (fun m' ip hm' => ?_) rfl ips
      rcases pushUniqueOverride_cases m' ip payload id with ⟨-, heq⟩ | ⟨-, heq⟩
      · rwa [heq]
      · rwa [heq]
    rw [hsame]
    exact (or_iff_left (fun h => nomatch h)).symm

theorem mem_ips_pushUniqueOverride {ip ip' : IpAddr} :
    ip ∈ (pushUniqueOverride m ip' payload id).ips ↔ ip ∈ m.ips ∨ ip = ip' := by
  rcases pushUniqueOverride_cases m ip' payload id with ⟨hmem, heq⟩ | ⟨-, heq⟩
  · rw [heq]
    refine (or_iff_left_of_imp ?_).symm
    rintro rfl
    exact hmem
  · rw [heq, CredentialMapping.ips_append, mem_append]
    exact or_congr_right mem_singleton

theorem ips_assigned (ips : List IpAddr) :
    ((Offer.assigned ips).extend payload id m).ips = m.ips ++ ips := by
  unfold Offer.extend
  rw [CredentialMapping.ips_append, map_map]
  exact congrArg (m.ips ++ ·) (map_id ips)

theorem mem_ips_extend {ip : IpAddr} :
    ip ∈ (offer.extend payload id m).ips ↔ ip ∈ m.ips ∨ ip ∈ offer.ips := by
  cases offer with
  | broadcast => exact (or_iff_left not_mem_nil).symm
  | assigned ips =>
    rw [ips_assigned, mem_append]
    rfl
  | targeted ips =>
    show ip ∈ (ips.foldl (fun m ip => pushUniqueOverride m ip payload id) m).ips ↔
      ip ∈ m.ips ∨ ip ∈ ips
    induction ips generalizing m with
    | nil => exact (or_iff_left not_mem_nil).symm
    | cons ip' ips ih => rw [foldl_cons, ih, mem_ips_pushUniqueOverride, mem_cons, or_assoc]

theorem nodup_ips_targeted (h : m.OfId id) (ips : List IpAddr) :
    ((Offer.targeted ips).extend payload id m).ips.Nodup ↔ m.ips.Nodup := by
  refine (foldl_pushUniqueOverride (P := fun m' => m'.OfId id ∧ (m'.ips.Nodup ↔ m.ips.Nodup))
    (fun m' ip hm' => ⟨ofId_pushUniqueOverride hm'.1 ip, ?_⟩) ⟨h, Iff.rfl⟩ ips).2
  rcases pushUniqueOverride_cases m' ip payload id with ⟨-, heq⟩ | ⟨hnew, heq⟩
  · rw [heq]
    exact hm'.2
  · have hip : ip ∉ m'.ips := by
      intro hmem
      obtain ⟨o, ho, hoip⟩ := mem_map.mp hmem
      exact hnew o ho ⟨hoip, hm'.1 o ho⟩
    rw [heq, ← hm'.2, CredentialMapping.ips_append, map_singleton, nodup_append_comm,
      singleton_append, nodup_cons]
    exact and_iff_right hip

theorem extend_eq_self (hdefault : offer = .broadcast → m.defaultCredential = some payload)
    (htargeted : ∀ ips, offer = .targeted ips → m.OfId id ∧ ∀ ip ∈ ips, ip ∈ m.ips)
    (hassigned : ∀ ips, offer = .assigned ips → ips = []) :
    offer.extend payload id m = m := by
  cases offer with
  | broadcast =>
    show { m with defaultCredential := some payload } = m
    rw [← hdefault rfl]
  | assigned ips =>
    rw [hassigned ips rfl]
    show { m with ipOverrides := m.ipOverrides ++ [] } = m
    rw [append_nil]
  | targeted ips =>
    obtain ⟨hid, hall⟩ := htargeted ips rfl
    show ips.foldl (fun m ip => pushUniqueOverride m ip payload id) m = m
    clear htargeted hassigned
    induction ips with
    | nil => rfl
    | cons ip ips ih =>
      obtain ⟨hip, hips⟩ := forall_mem_cons.mp hall
      rw [foldl_cons]
      rcases pushUniqueOverride_cases m ip payload id with ⟨-, heq⟩ | ⟨hnew, -⟩
      · rw [heq]
        exact ih nofun hips
      · obtain ⟨o, ho, hoip⟩ := mem_map.mp hip
        exact absurd ⟨hoip, hid o ho⟩ (hnew o ho)

end Extend

section Fold
variable {id : Uuid} {cs cs' : List Contribution} {mappings : Mappings}
  {t : TypedCredentialMapping} {m : CredentialMapping CredentialQueryPayload}

def extendAll (id : Uuid) (cs : List Contribution) (m : CredentialMapping CredentialQueryPayload) :
    CredentialMapping CredentialQueryPayload :=
  cs.foldl (fun m c => c.offer.extend c.payload id m) m

def contributionsOf (id : Uuid) (cs : List Contribution) : List Contribution :=
  cs.filter fun c => c.credential.id = id

theorem foldl_contributions {A : Type} {f : A → Option Contribution}
    {step : Mappings → A → Mappings}
    (hstep : ∀ mappings a, step mappings a = ((f a).map (Contribution.apply mappings)).getD mappings)
    (l : List A) (mappings : Mappings) :
    l.foldl step mappings = (l.filterMap f).foldl Contribution.apply mappings := by
  induction l generalizing mappings with
  | nil => rfl
  | cons a l ih =>
    rw [foldl_cons, hstep, filterMap_cons]
    cases f a with
    | none => exact ih mappings
    | some c => exact ih (c.apply mappings)

theorem mapping_foldl_apply (h : (cs.foldl Contribution.apply mappings).get id = some t) :
    t.mapping = extendAll id (contributionsOf id cs)
      (((mappings.get id).map (·.mapping)).getD ⟨none, []⟩) := by
  induction cs generalizing mappings with
  | nil =>
    rw [foldl_nil] at h
    rw [h]
    rfl
  | cons c cs ih =>
    have htail := ih h
    by_cases hid : c.credential.id = id
    · subst hid
      have hcons : contributionsOf c.credential.id (c :: cs) =
          c :: contributionsOf c.credential.id cs := filter_cons_of_pos (decide_eq_true rfl)
      rw [get_apply_self] at htail
      rw [htail, hcons]
      cases hget : mappings.get c.credential.id with
      | none => rfl
      | some t₀ => rfl
    · -- what another credential contributes goes to its own mapping
      rw [get_apply_of_ne (Ne.symm hid)] at htail
      rwa [contributionsOf, filter_cons_of_neg (by simpa using hid)]

@[simp] theorem extendAll_cons (c : Contribution) :
    extendAll id (c :: cs) m = extendAll id cs (c.offer.extend c.payload id m) := rfl

theorem ofId_extendAll (h : m.OfId id) : (extendAll id cs m).OfId id := by
  induction cs generalizing m with
  | nil => exact h
  | cons c cs ih => exact ih (ofId_extend h)

theorem mem_ips_extendAll {ip : IpAddr} :
    ip ∈ (extendAll id cs m).ips ↔ ip ∈ m.ips ∨ ∃ c ∈ cs, ip ∈ c.offer.ips := by
  induction cs generalizing m with
  | nil => simp [extendAll]
  | cons c cs ih =>
    rw [extendAll_cons, ih, mem_ips_extend, or_assoc]
    refine or_congr_right ?_
    simp

theorem isSome_default_extendAll : (extendAll id cs m).defaultCredential.isSome = true ↔
    m.defaultCredential.isSome = true ∨ ∃ c ∈ cs, c.offer = .broadcast := by
  induction cs generalizing m with
  | nil => simp [extendAll]
  | cons c cs ih =>
    rw [extendAll_cons, ih, isSome_default_extend, or_assoc]
    refine or_congr_right ?_
    simp

theorem ips_extendAll_assigned (h : ∀ c ∈ cs, ∃ ips, c.offer = .assigned ips) :
    (extendAll id cs m).ips = m.ips ++ cs.flatMap fun c => c.offer.ips := by
  induction cs generalizing m with
  | nil => exact (append_nil _).symm
  | cons c cs ih =>
    obtain ⟨⟨ips, hc⟩, hcs⟩ := forall_mem_cons.mp h
    rw [extendAll_cons, ih hcs, flatMap_cons, ← append_assoc, hc, ips_assigned]
    rfl

theorem nodup_ips_extendAll_targeted (h : m.OfId id)
    (hcs : ∀ c ∈ cs, ∀ ips, c.offer ≠ .assigned ips) :
    (extendAll id cs m).ips.Nodup ↔ m.ips.Nodup := by
  induction cs generalizing m with
  | nil => rfl
  | cons c cs ih =>
    obtain ⟨hc, hcs⟩ := forall_mem_cons.mp hcs
    rw [extendAll_cons, ih (ofId_extend h) hcs]
    cases hoffer : c.offer with
    | broadcast => rfl
    | assigned ips => exact absurd hoffer (hc ips)
    | targeted ips => exact nodup_ips_targeted h ips

end Fold

structure OverrideSources where
  credentials : Table Credential.id
  ipAddresses : List IPAddress

namespace OverrideSources
variable (src : OverrideSources)
variable {cred : Credential}

def assign (mappings : Mappings) (a : HostAssignment) : Mappings :=
  match src.credentials.find a.assignment.credentialId with
  | some cred => applyHostAssignment mappings a.hostId a.assignment cred src.ipAddresses
  | none => mappings

def target (mappings : Mappings) (t : IntegrationTarget) : Mappings :=
  match src.credentials.find t.credentialId with
  | some cred => applyIntegrationTarget mappings t cred.credentialType
  | none => mappings

def build (assignments : List HostAssignment) (targets : List IntegrationTarget) : Mappings :=
  targets.foldl src.target (assignments.foldl src.assign .empty)

def assigned (a : HostAssignment) : List IpAddr :=
  (relevantInterfaces a.hostId a.assignment.ipAddressIds src.ipAddresses).map (·.base.ipAddress)

def assignmentContribution (a : HostAssignment) : Option Contribution :=
  (src.credentials.find a.assignment.credentialId).map fun cred => ⟨cred, .assigned (src.assigned a)⟩

def targetContribution (t : IntegrationTarget) : Option Contribution :=
  ((src.credentials.find t.credentialId).filter fun cred => t.Applies cred.credentialType).map
    fun cred => ⟨cred, t.offer⟩

def offers (assignments : List HostAssignment) (targets : List IntegrationTarget) :
    List Contribution :=
  assignments.filterMap src.assignmentContribution ++ targets.filterMap src.targetContribution

theorem assign_eq (mappings : Mappings) (a : HostAssignment) : src.assign mappings a =
    ((src.assignmentContribution a).map (Contribution.apply mappings)).getD mappings := by
  unfold assign assignmentContribution
  cases src.credentials.find a.assignment.credentialId with
  | none => rfl
  | some cred =>
    show applyHostAssignment _ _ _ _ _ = Contribution.apply _ _
    unfold Contribution.apply applyHostAssignment Offer.extend assigned
    simp only [map_map]
    rfl

theorem target_eq (mappings : Mappings) (t : IntegrationTarget) : src.target mappings t =
    ((src.targetContribution t).map (Contribution.apply mappings)).getD mappings := by
  unfold target targetContribution
  cases hfind : src.credentials.find t.credentialId with
  | none => rfl
  | some cred =>
    have hid : cred.id = t.credentialId := (Table.find_eq_some.mp hfind).2
    by_cases happlies : t.Applies cred.credentialType
    · rw [Option.filter_some, if_pos (decide_eq_true happlies)]
      show applyIntegrationTarget _ _ _ = Contribution.apply _ _
      rw [applyIntegrationTarget_of_applies happlies, ← hid]
      rfl
    · rw [Option.filter_some, if_neg (by simpa using happlies)]
      exact applyIntegrationTarget_of_not_applies happlies

theorem build_eq (assignments : List HostAssignment) (targets : List IntegrationTarget) :
    src.build assignments targets =
      (src.offers assignments targets).foldl Contribution.apply .empty := by
  rw [build, offers, foldl_append, foldl_contributions src.assign_eq,
    foldl_contributions src.target_eq]

variable {src} {assignments assignments' : List HostAssignment}
  {targets targets' : List IntegrationTarget} {c : Contribution} {id : Uuid}
  {t : TypedCredentialMapping}

theorem mem_offers : c ∈ src.offers assignments targets ↔
    (∃ a ∈ assignments, src.credentials.find a.assignment.credentialId = some c.credential ∧
      c.offer = .assigned (src.assigned a)) ∨
    ∃ t ∈ targets, src.credentials.find t.credentialId = some c.credential ∧
      t.Applies c.credential.credentialType ∧ c.offer = t.offer := by
  simp only [offers, assignmentContribution, targetContribution, mem_append,
    mem_filterMap, Option.map_eq_some_iff, Option.filter_eq_some_iff, decide_eq_true_eq]
  refine or_congr ?_ ?_
  · constructor
    · rintro ⟨a, ha, cred, hcred, rfl⟩
      exact ⟨a, ha, hcred, rfl⟩
    · rintro ⟨a, ha, hcred, hoffer⟩
      exact ⟨a, ha, c.credential, hcred, by rw [← hoffer]⟩
  · constructor
    · rintro ⟨t, ht, cred, ⟨hcred, happlies⟩, rfl⟩
      exact ⟨t, ht, hcred, happlies, rfl⟩
    · rintro ⟨t, ht, hcred, happlies, hoffer⟩
      exact ⟨t, ht, c.credential, ⟨hcred, happlies⟩, by rw [← hoffer]⟩

theorem find_of_mem_offers (hc : c ∈ src.offers assignments targets) :
    src.credentials.find c.credential.id = some c.credential := by
  rcases mem_offers.mp hc with ⟨a, -, hcred, -⟩ | ⟨t, -, hcred, -⟩
  · rwa [(Table.find_eq_some.mp hcred).2]
  · rwa [(Table.find_eq_some.mp hcred).2]

theorem offers_perm (hassignments : assignments.Perm assignments')
    (htargets : targets.Perm targets') :
    (src.offers assignments targets).Perm (src.offers assignments' targets') :=
  (hassignments.filterMap _).append (htargets.filterMap _)

theorem summarizes_build : Summarizes (src.offers assignments targets)
    (src.build assignments targets) := by
  rw [build_eq]
  exact Summarizes.foldl _

section Get
variable (ht : (src.build assignments targets).get id = some t)
include ht

theorem mapping_build : t.mapping =
    extendAll id (contributionsOf id (src.offers assignments targets)) ⟨none, []⟩ := by
  rw [build_eq] at ht
  exact mapping_foldl_apply ht

theorem exists_credential : ∃ cred, src.credentials.find id = some cred ∧
    t.discriminant = cred.credentialType.discriminant ∧
    t.mapping.OfCredential id cred.credentialType.toQueryPayload := by
  have hsum : Summarizes (src.offers assignments targets) (src.build assignments targets) :=
    summarizes_build
  obtain ⟨c, hc, rfl, hdisc⟩ := hsum.discriminant id t ht
  have hfind := find_of_mem_offers hc
  refine ⟨c.credential, hfind, hdisc, ⟨fun p hp => ?_, ?_⟩⟩
  · obtain ⟨c', hc', hid, rfl⟩ := hsum.payload c.credential.id t ht p hp
    have hfind' := find_of_mem_offers hc'
    rw [hid, hfind, Option.some.injEq] at hfind'
    rw [Contribution.payload, hfind']
  · rw [mapping_build ht]
    exact ofId_extendAll fun o ho => absurd ho not_mem_nil

theorem mem_ips_build {ip : IpAddr} : ip ∈ t.mapping.ips ↔
    ∃ c ∈ src.offers assignments targets, c.credential.id = id ∧ ip ∈ c.offer.ips := by
  rw [mapping_build ht, mem_ips_extendAll]
  refine (or_iff_right not_mem_nil).trans (exists_congr fun c => ?_)
  rw [contributionsOf, mem_filter, decide_eq_true_eq, and_assoc]

theorem isSome_default_build : t.mapping.defaultCredential.isSome = true ↔
    ∃ c ∈ src.offers assignments targets, c.credential.id = id ∧ c.offer = .broadcast := by
  rw [mapping_build ht, isSome_default_extendAll]
  refine (or_iff_right Bool.false_ne_true).trans (exists_congr fun c => ?_)
  rw [contributionsOf, mem_filter, decide_eq_true_eq, and_assoc]

end Get

structure SameMapping (t t' : TypedCredentialMapping) : Prop where
  discriminant : t.discriminant = t'.discriminant
  defaultCredential : t.mapping.defaultCredential = t'.mapping.defaultCredential
  overrides : ∀ o, o ∈ t.mapping.ipOverrides ↔ o ∈ t'.mapping.ipOverrides

def SameSets (mappings mappings' : Mappings) : Prop :=
  ∀ id, Option.Rel SameMapping (mappings.get id) (mappings'.get id)

theorem mem_overrides_of_ip
    (hof : t.mapping.OfCredential id cred.credentialType.toQueryPayload)
    {o : IpOverride CredentialQueryPayload} : o ∈ t.mapping.ipOverrides ↔
      o = ⟨o.ip, cred.credentialType.toQueryPayload, id⟩ ∧ o.ip ∈ t.mapping.ips := by
  have hshape : ∀ o ∈ t.mapping.ipOverrides,
      o = ⟨o.ip, cred.credentialType.toQueryPayload, id⟩ := by
    intro o ho
    have hpayload := hof.payloads o.credential
      (mem_append_right _ (mem_map_of_mem ho))
    rw [← hpayload, ← hof.ids o ho]
  constructor
  · exact fun ho => ⟨hshape o ho, mem_map_of_mem ho⟩
  · rintro ⟨ho, hip⟩
    obtain ⟨o', ho', hip'⟩ := mem_map.mp hip
    rw [ho, ← hip', ← hshape o' ho']
    exact ho'

theorem default_eq_some_iff {p : CredentialQueryPayload}
    (hof : t.mapping.OfCredential id cred.credentialType.toQueryPayload) :
    t.mapping.defaultCredential = some p ↔
      t.mapping.defaultCredential.isSome = true ∧ p = cred.credentialType.toQueryPayload := by
  have hpayload : ∀ p, t.mapping.defaultCredential = some p →
      p = cred.credentialType.toQueryPayload := fun p hp =>
    hof.payloads p (mem_append_left _ (Option.mem_toList.mpr hp))
  constructor
  · exact fun hp => ⟨Option.isSome_of_eq_some hp, hpayload p hp⟩
  · rintro ⟨hsome, rfl⟩
    obtain ⟨p, hp⟩ := Option.isSome_iff_exists.mp hsome
    rw [hp, hpayload p hp]

theorem sameSets_build (hassignments : assignments.Perm assignments')
    (htargets : targets.Perm targets') :
    SameSets (src.build assignments targets) (src.build assignments' targets') := by
  have hperm : (src.offers assignments targets).Perm (src.offers assignments' targets') :=
    offers_perm hassignments htargets
  intro id
  have hsame : (∃ t, (src.build assignments targets).get id = some t) ↔
      ∃ t, (src.build assignments' targets').get id = some t := by
    rw [summarizes_build.named id, summarizes_build.named id]
    exact exists_congr fun c => and_congr_left' hperm.mem_iff
  cases hget : (src.build assignments targets).get id with
  | none =>
    cases hget' : (src.build assignments' targets').get id with
    | none => exact .none
    | some t' =>
      obtain ⟨t, ht⟩ := hsame.mpr ⟨t', hget'⟩
      rw [hget] at ht
      cases ht
  | some t =>
    obtain ⟨t', ht'⟩ := hsame.mp ⟨t, hget⟩
    rw [ht']
    obtain ⟨cred, hfind, hdisc, hof⟩ := exists_credential hget
    obtain ⟨cred', hfind', hdisc', hof'⟩ := exists_credential ht'
    obtain rfl : cred = cred' := Option.some.inj (hfind.symm.trans hfind')
    have hips : ∀ ip, ip ∈ t.mapping.ips ↔ ip ∈ t'.mapping.ips := by
      intro ip
      rw [mem_ips_build hget, mem_ips_build ht']
      exact exists_congr fun c => and_congr_left' hperm.mem_iff
    refine .some ⟨hdisc.trans hdisc'.symm, ?_, fun o => ?_⟩
    · refine Option.ext fun p => ?_
      rw [default_eq_some_iff hof, default_eq_some_iff hof', isSome_default_build hget,
        isSome_default_build ht']
      exact and_congr_left' (exists_congr fun c => and_congr_left' hperm.mem_iff)
    · rw [mem_overrides_of_ip hof, mem_overrides_of_ip hof', hips]

theorem ips_offer (t : IntegrationTarget) : t.offer.ips = t.ips := by
  cases t <;> rfl

/-- The addresses that are overridden for a credential are those that its assignments and its
permitted targets name. -/
theorem overridden_iff {ip : IpAddr} :
    (∃ t, (src.build assignments targets).get id = some t ∧
      ∃ o ∈ t.mapping.ipOverrides, o.ip = ip ∧ o.credentialId = id) ↔
    ∃ cred, src.credentials.find id = some cred ∧
      ((∃ a ∈ assignments, a.assignment.credentialId = id ∧ ip ∈ src.assigned a) ∨
        ∃ t ∈ targets, t.credentialId = id ∧ t.scope ∈ cred.credentialType.targets ∧
          ip ∈ t.ips) := by
  constructor
  · rintro ⟨t, ht, o, ho, rfl, -⟩
    obtain ⟨c, hc, rfl, hip⟩ := (mem_ips_build ht).mp (mem_map_of_mem ho)
    refine ⟨c.credential, find_of_mem_offers hc, ?_⟩
    rcases mem_offers.mp hc with ⟨a, ha, hcred, hoffer⟩ | ⟨target, htarget, hcred, happlies, hoffer⟩
    · rw [hoffer] at hip
      exact .inl ⟨a, ha, (Table.find_eq_some.mp hcred).2.symm, hip⟩
    · rw [hoffer, ips_offer] at hip
      exact .inr ⟨target, htarget, (Table.find_eq_some.mp hcred).2.symm, happlies.1, hip⟩
  · rintro ⟨cred, hfind, hnamed⟩
    have hid : cred.id = id := (Table.find_eq_some.mp hfind).2
    -- whoever names the address, some offer of the credential has it
    obtain ⟨offer, hc, hip⟩ : ∃ offer, ⟨cred, offer⟩ ∈ src.offers assignments targets ∧
        ip ∈ offer.ips := by
      rcases hnamed with ⟨a, ha, rfl, hip⟩ | ⟨t, ht, rfl, hscope, hip⟩
      · exact ⟨_, mem_offers.mpr (.inl ⟨a, ha, hfind, rfl⟩), hip⟩
      · refine ⟨t.offer, mem_offers.mpr (.inr ⟨t, ht, hfind, ⟨hscope, fun hempty => ?_⟩, rfl⟩), ?_⟩
        · rw [hempty.2] at hip
          exact absurd hip not_mem_nil
        · rwa [ips_offer]
    obtain ⟨t, ht⟩ := (summarizes_build.named id).mpr ⟨_, hc, hid⟩
    obtain ⟨o, ho, hoip⟩ := mem_map.mp ((mem_ips_build ht).mpr ⟨_, hc, hid, hip⟩)
    obtain ⟨_, -, -, hof⟩ := exists_credential ht
    exact ⟨t, ht, o, ho, hoip, hof.ids o ho⟩

theorem apply_build_self_iff (ht : (src.build assignments targets).get c.credential.id = some t) :
    c.apply (src.build assignments targets) = src.build assignments targets ↔
      c.offer.extend c.payload c.credential.id t.mapping = t.mapping := by
  have hself : (c.apply (src.build assignments targets)).get c.credential.id =
      some { t with mapping := c.offer.extend c.payload c.credential.id t.mapping } := by
    rw [get_apply_self, ht, Option.getD_some]
  constructor
  · intro heq
    rw [heq, ht] at hself
    exact (congrArg TypedCredentialMapping.mapping (Option.some.inj hself)).symm
  · intro heq
    refine BTreeMap.ext_get fun k => ?_
    by_cases hk : k = c.credential.id
    · rw [hk, hself, ht]
      exact congrArg (fun m => some { t with mapping := m }) heq
    · exact get_apply_of_ne hk

theorem target_build_self {target : IntegrationTarget} (htarget : target ∈ targets) :
    src.target (src.build assignments targets) target = src.build assignments targets := by
  rw [target_eq]
  cases hcontribution : src.targetContribution target with
  | none => rfl
  | some c =>
    have hc : c ∈ src.offers assignments targets :=
      mem_append_right _ (mem_filterMap.mpr ⟨target, htarget, hcontribution⟩)
    obtain ⟨t, ht⟩ := (summarizes_build.named _).mpr ⟨c, hc, rfl⟩
    obtain ⟨cred, hfind, -, hof⟩ := exists_credential ht
    obtain rfl : c.credential = cred := Option.some.inj ((find_of_mem_offers hc).symm.trans hfind)
    refine (apply_build_self_iff ht).mpr (extend_eq_self (fun hbroadcast => ?_)
      (fun ips hips => ⟨hof.ids, fun ip hip => ?_⟩) fun ips hips => ?_)
    · refine (default_eq_some_iff hof).mpr ⟨(isSome_default_build ht).mpr ?_, rfl⟩
      exact ⟨c, hc, rfl, hbroadcast⟩
    · exact (mem_ips_build ht).mpr ⟨c, hc, rfl, hips ▸ hip⟩
    · -- a target assigns nothing
      obtain ⟨_, -, rfl⟩ := Option.map_eq_some_iff.mp hcontribution
      cases target <;> cases hips

theorem assign_build_self_iff {a : HostAssignment} (ha : a ∈ assignments) :
    src.assign (src.build assignments targets) a = src.build assignments targets ↔
      (src.credentials.find a.assignment.credentialId ≠ none → src.assigned a = []) := by
  rw [assign_eq]
  cases hcontribution : src.assignmentContribution a with
  | none => exact iff_of_true rfl fun h => absurd (Option.map_eq_none_iff.mp hcontribution) h
  | some c =>
    have hc : c ∈ src.offers assignments targets :=
      mem_append_left _ (mem_filterMap.mpr ⟨a, ha, hcontribution⟩)
    obtain ⟨t, ht⟩ := (summarizes_build.named _).mpr ⟨c, hc, rfl⟩
    obtain ⟨cred, hfind, rfl⟩ := Option.map_eq_some_iff.mp hcontribution
    rw [imp_iff_right (hfind ▸ Option.some_ne_none cred)]
    refine (apply_build_self_iff ht).trans ⟨fun heq => ?_, fun hnil => ?_⟩
    · have hips := congrArg CredentialMapping.ips heq
      rw [ips_assigned] at hips
      exact append_right_eq_self.mp hips
    · rw [hnil]
      exact extend_eq_self (fun h => nomatch h) (fun _ h => nomatch h) fun _ h => by
        cases h
        rfl

def assignedTo (src : OverrideSources) (id : Uuid) (assignments : List HostAssignment) :
    List IpAddr :=
  (assignments.filter fun a => a.assignment.credentialId = id).flatMap src.assigned

theorem flatMap_contributionsOf (hfind : src.credentials.find id = some cred)
    (assignments : List HostAssignment) :
    ((contributionsOf id (assignments.filterMap src.assignmentContribution)).flatMap fun c =>
      c.offer.ips) = src.assignedTo id assignments := by
  induction assignments with
  | nil => rfl
  | cons a assignments ih =>
    unfold contributionsOf assignedTo at ih ⊢
    rw [filterMap_cons, filter_cons]
    by_cases ha : a.assignment.credentialId = id
    · have hcontribution : src.assignmentContribution a =
          some ⟨cred, .assigned (src.assigned a)⟩ := by
        unfold assignmentContribution
        rw [ha, hfind]
        rfl
      rw [hcontribution, if_pos (decide_eq_true ha), flatMap_cons, ← ih]
      dsimp only
      rw [filter_cons_of_pos, flatMap_cons]
      · rfl
      · exact decide_eq_true (Table.find_eq_some.mp hfind).2
    · rw [if_neg (by simpa using ha), ← ih]
      cases hcontribution : src.assignmentContribution a with
      | none => rfl
      | some c =>
        obtain ⟨cred', hfind', rfl⟩ := Option.map_eq_some_iff.mp hcontribution
        have hother : cred'.id ≠ id := (Table.find_eq_some.mp hfind').2 ▸ ha
        dsimp only
        rw [filter_cons_of_neg (by simpa using hother)]

theorem nodup_ips_build (ht : (src.build assignments targets).get id = some t) :
    t.mapping.ips.Nodup ↔ (src.assignedTo id assignments).Nodup := by
  obtain ⟨cred, hfind, -, -⟩ := exists_credential ht
  have hsplit : contributionsOf id (src.offers assignments targets) =
      contributionsOf id (assignments.filterMap src.assignmentContribution) ++
        contributionsOf id (targets.filterMap src.targetContribution) := filter_append _ _
  have hassigned : ∀ c ∈ contributionsOf id (assignments.filterMap src.assignmentContribution),
      ∃ ips, c.offer = .assigned ips := by
    intro c hc
    obtain ⟨a, -, hc⟩ := mem_filterMap.mp (mem_of_mem_filter hc)
    obtain ⟨cred, -, rfl⟩ := Option.map_eq_some_iff.mp hc
    exact ⟨_, rfl⟩
  have htargeted : ∀ c ∈ contributionsOf id (targets.filterMap src.targetContribution),
      ∀ ips, c.offer ≠ .assigned ips := by
    intro c hc ips hoffer
    obtain ⟨target, -, hc⟩ := mem_filterMap.mp (mem_of_mem_filter hc)
    obtain ⟨cred, -, rfl⟩ := Option.map_eq_some_iff.mp hc
    cases target <;> cases hoffer
  have hempty : (⟨none, []⟩ : CredentialMapping CredentialQueryPayload).OfId id :=
    fun o ho => absurd ho not_mem_nil
  -- the assignments come first; the targets add nothing twice to what there is then
  rw [mapping_build ht, hsplit, extendAll, foldl_append]
  refine (nodup_ips_extendAll_targeted (ofId_extendAll hempty) htargeted).trans ?_
  rw [ips_extendAll_assigned hassigned, flatMap_contributionsOf hfind]
  rfl

theorem nodup_overrides {m : CredentialMapping CredentialQueryPayload} (h : m.OfId id) :
    (m.ipOverrides.map fun o => (o.ip, o.credentialId)).Nodup ↔ m.ips.Nodup := by
  have hpairs : (m.ipOverrides.map fun o => (o.ip, o.credentialId)) =
      m.ips.map fun ip => (ip, id) := by
    rw [CredentialMapping.ips, map_map]
    exact map_congr_left fun o ho => congrArg (Prod.mk o.ip) (h o ho)
  rw [hpairs]
  exact nodup_map_iff fun ip ip' heq => congrArg Prod.fst heq

theorem once_iff : (∀ id t, (src.build assignments targets).get id = some t →
      (t.mapping.ipOverrides.map fun o => (o.ip, o.credentialId)).Nodup) ↔
    ∀ id, src.credentials.find id ≠ none → (src.assignedTo id assignments).Nodup := by
  constructor
  · intro h id hfind
    by_cases hany : ∃ a ∈ assignments, a.assignment.credentialId = id
    · obtain ⟨a, ha, rfl⟩ := hany
      obtain ⟨cred, hcred⟩ := Option.ne_none_iff_exists'.mp hfind
      have hc : ⟨cred, .assigned (src.assigned a)⟩ ∈ src.offers assignments targets :=
        mem_offers.mpr (.inl ⟨a, ha, hcred, rfl⟩)
      obtain ⟨t, ht⟩ := (summarizes_build.named _).mpr ⟨_, hc, (Table.find_eq_some.mp hcred).2⟩
      obtain ⟨_, -, -, hof⟩ := exists_credential ht
      exact (nodup_ips_build ht).mp ((nodup_overrides hof.ids).mp (h _ t ht))
    · -- a credential that is assigned nowhere may have no mapping
      have hnil : assignments.filter (fun a => a.assignment.credentialId = id) = [] :=
        filter_eq_nil_iff.mpr fun a ha hid => hany ⟨a, ha, of_decide_eq_true hid⟩
      rw [assignedTo, hnil]
      exact nodup_nil
  · intro h id t ht
    obtain ⟨cred, hfind, -, hof⟩ := exists_credential ht
    rw [nodup_overrides hof.ids, nodup_ips_build ht]
    exact h id (hfind ▸ Option.some_ne_none cred)

structure OneOverrideEach (src : OverrideSources) (assignments : List HostAssignment)
    (targets : List IntegrationTarget) : Prop where
  once : ∀ id t, (src.build assignments targets).get id = some t →
    (t.mapping.ipOverrides.map fun o => (o.ip, o.credentialId)).Nodup
  named : ∀ id ip, (∃ t, (src.build assignments targets).get id = some t ∧
      ∃ o ∈ t.mapping.ipOverrides, o.ip = ip ∧ o.credentialId = id) ↔
    ∃ cred, src.credentials.find id = some cred ∧
      ((∃ a ∈ assignments, a.assignment.credentialId = id ∧ ip ∈ src.assigned a) ∨
        ∃ t ∈ targets, t.credentialId = id ∧ t.scope ∈ cred.credentialType.targets ∧ ip ∈ t.ips)
  filed : ∀ id t, (src.build assignments targets).get id = some t →
    ∀ o ∈ t.mapping.ipOverrides, o.credentialId = id
  assignedAgain : ∀ a ∈ assignments,
    src.assign (src.build assignments targets) a = src.build assignments targets
  targetedAgain : ∀ t ∈ targets,
    src.target (src.build assignments targets) t = src.build assignments targets
  unordered : ∀ assignments' targets', assignments.Perm assignments' → targets.Perm targets' →
    SameSets (src.build assignments targets) (src.build assignments' targets')

/-- An assignment that names an address adds it again whenever it is applied, and all else is as it
should be. -/
theorem oneOverrideEach_iff (src : OverrideSources) (assignments : List HostAssignment)
    (targets : List IntegrationTarget) : src.OneOverrideEach assignments targets ↔
      ∀ a ∈ assignments, src.credentials.find a.assignment.credentialId ≠ none →
        src.assigned a = [] := by
  constructor
  · exact fun h a ha => (assign_build_self_iff ha).mp (h.assignedAgain a ha)
  · intro h
    refine ⟨once_iff.mpr fun id hfind => ?_, fun _ _ => overridden_iff, fun id t ht => ?_,
      fun a ha => (assign_build_self_iff ha).mpr (h a ha), fun _ => target_build_self,
      fun _ _ => sameSets_build⟩
    · have hnil : src.assignedTo id assignments = [] := by
        refine flatMap_eq_nil_iff.mpr fun a ha => ?_
        obtain ⟨ha, hid⟩ := mem_filter.mp ha
        exact h a ha (of_decide_eq_true hid ▸ hfind)
      rw [hnil]
      exact nodup_nil
    · obtain ⟨_, -, -, hof⟩ := exists_credential ht
      exact hof.ids

def twoSubnets : OverrideSources where
  credentials := ⟨[⟨7, 1, "socket", .dockerSocket none⟩], List.nodup_singleton _⟩
  ipAddresses := [1, 2].map fun subnetId => ⟨subnetId, 0, 0, none, none, {
    networkId := 1, hostId := 1, subnetId, ipAddress := .v4 0x0A000005, macAddress := none
    name := none, position := 0, lastSeenAt := 0 }⟩

/-- Assigned to the whole host, the credential has two overrides for its one address. -/
theorem not_oneOverrideEach_twoSubnets :
    ¬ ∀ (src : OverrideSources) (assignments : List HostAssignment)
      (targets : List IntegrationTarget), src.OneOverrideEach assignments targets := by
  intro h
  have honce := once_iff.mp (h twoSubnets [⟨1, ⟨7, none⟩⟩] []).once 7 (by decide)
  exact absurd honce (by decide)

end OverrideSources
end Scanopy
