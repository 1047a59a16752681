import Scanopy.Credentials.Contributions
import Scanopy.Credentials.Probes

/-! Which credential is recorded for an integration at an address. Mappings with overrides are
probed last, so a credential of the host comes after the defaults of the network. -/

namespace Scanopy

open List Option

namespace CredentialMapping

structure OfCredential (m : CredentialMapping CredentialQueryPayload) (id : Uuid)
    (payload : CredentialQueryPayload) : Prop where
  payloads : ∀ p ∈ m.payloads, p = payload
  ids : ∀ o ∈ m.ipOverrides, o.credentialId = id

theorem OfCredential.extend {m : CredentialMapping CredentialQueryPayload} {id : Uuid}
    {payload : CredentialQueryPayload} (h : m.OfCredential id payload) (offer : Offer) :
    (offer.extend payload id m).OfCredential id payload := by
  refine ⟨fun p hp => ?_, ofId_extend h.ids⟩
  rcases mem_payloads_extend hp with hp | hp
  · exact h.payloads p hp
  · exact hp

variable {m : CredentialMapping CredentialQueryPayload} {id : Uuid}
  {payload : CredentialQueryPayload}

theorem OfCredential.leading (h : m.OfCredential id payload) {p : CredentialQueryPayload}
    (hp : m.leading = some p) : p = payload := by
  refine h.payloads p (mem_append.mpr ?_)
  rcases or_eq_some_iff.mp hp with hp | ⟨-, hp⟩
  · exact .inl (mem_toList.mpr hp)
  · obtain ⟨o, ho, rfl⟩ := map_eq_some_iff.mp hp
    exact .inr (List.mem_map_of_mem (mem_of_mem_head? ho))

theorem OfCredential.resolve (h : m.OfCredential id payload) (ip : IpAddr) :
    ∀ c ∈ resolveCredentialsForIp m ip, c.1 = payload :=
  fun c hc => h.payloads c.1 (mem_payloads_of_mem_resolve hc)

/-- What is tried first for an address, and so recorded if it works, has the id of the credential
exactly if the credential is assigned there. -/
theorem OfCredential.head_resolve (h : m.OfCredential id payload) {ip : IpAddr}
    {c : CredentialQueryPayload × Option Uuid} (hc : (resolveCredentialsForIp m ip).head? = some c) :
    c.2 = if m.userAssigned ip then some id else none := by
  unfold resolveCredentialsForIp at hc
  unfold userAssigned
  cases hat : m.ipOverrides.filter fun o => o.ip = ip with
  | nil =>
    rw [hat] at hc
    obtain ⟨d, -, rfl⟩ := map_eq_some_iff.mp (by simpa using hc)
    rw [filter_eq_nil_iff] at hat
    rw [if_neg]
    simp only [List.any_eq_true, not_exists, not_and, Bool.and_eq_true]
    exact fun o ho hip => absurd hip (hat o ho)
  | cons o rest =>
    rw [hat] at hc
    cases hc
    have ho : o ∈ m.ipOverrides.filter fun o => o.ip = ip := hat ▸ mem_cons_self
    obtain ⟨ho, hip⟩ := mem_filter.mp ho
    dsimp only
    rw [h.ids o ho]
    have hany : m.ipOverrides.any (fun o => o.ip = ip && o.credentialId ≠ Uuid.nil) = true ↔
        id ≠ Uuid.nil := by
      rw [List.any_eq_true]
      constructor
      · rintro ⟨o', ho', hand⟩
        rw [← h.ids o' ho']
        exact of_decide_eq_true (Bool.and_eq_true_iff.mp hand).2
      · intro hid
        refine ⟨o, ho, Bool.and_eq_true_iff.mpr ⟨hip, ?_⟩⟩
        rw [h.ids o ho]
        exact decide_eq_true hid
    simp only [hany]

end CredentialMapping

def PerCredential (mappings : Mappings) : Prop :=
  ∀ id t, mappings.get id = some t → ∃ payload, t.mapping.OfCredential id payload

theorem perCredential_foldl {cs : List Contribution}
    (h : ∀ c ∈ cs, ∀ c' ∈ cs, c.credential.id = c'.credential.id → c.credential = c'.credential) :
    PerCredential (cs.foldl Contribution.apply .empty) := by
  suffices hof : ∀ id t, (cs.foldl Contribution.apply .empty).get id = some t →
      ∃ c ∈ cs, c.credential.id = id ∧ t.mapping.OfCredential id c.payload by
    intro id t ht
    obtain ⟨c, -, -, hc⟩ := hof id t ht
    exact ⟨_, hc⟩
  induction cs using List.reverseRecOn with
  | nil => exact fun id t ht => absurd ht nofun
  | append_singleton cs c ih =>
    intro id t ht
    have hc : c ∈ cs ++ [c] := mem_append_right _ (mem_singleton_self c)
    have ih := ih fun c hc c' hc' => h c (mem_append_left _ hc) c' (mem_append_left _ hc')
    rw [foldl_append, foldl_cons, foldl_nil, Contribution.apply, mappingFor,
      BTreeMap.get_alter] at ht
    split_ifs at ht with hid
    · cases ht
      subst hid
      refine ⟨c, hc, rfl, CredentialMapping.OfCredential.extend ?_ c.offer⟩
      cases hget : (cs.foldl Contribution.apply .empty).get c.credential.id with
      | none =>
        exact ⟨fun p hp => absurd hp not_mem_nil, fun o ho => absurd ho not_mem_nil⟩
      | some t' =>
        obtain ⟨c', hc', hid, hof⟩ := ih _ t' hget
        have hsame := h c' (mem_append_left _ hc') c hc hid
        unfold Contribution.payload at hof ⊢
        rw [hsame] at hof
        exact hof
    · obtain ⟨c', hc', hof⟩ := ih id t ht
      exact ⟨c', mem_append_left _ hc', hof⟩

/-- The mappings that a server puts together for a scan. -/
theorem exists_perCredential (s : CredentialStore) (networkId : Uuid)
    (targets : List IntegrationTarget) (v : Option Version) :
    ∃ mappings, s.buildAllCredentialMappings networkId targets v =
      orderMappingsForDispatch mappings ∧ PerCredential mappings := by
  refine ⟨_, CredentialStore.build_eq_dispatched v, perCredential_foldl fun c hc c' hc' hid => ?_⟩
  have hcoherent : ∀ c ∈ s.dispatched networkId targets v,
      s.getById c.credential.id = some c.credential :=
    fun c hc => CredentialStore.coherent_contributions c (mem_of_mem_filter hc)
  have hsame := hcoherent c hc
  rw [hid, hcoherent c' hc', some.injEq] at hsame
  exact hsame.symm

namespace ProbeEnv
variable {H : Type} (env : ProbeEnv H)
variable {payload : CredentialQueryPayload}

def winner (m : CredentialMapping CredentialQueryPayload) : Option (ProbeWinner H) :=
  (env.openSlot m).bind fun slot => (env.closeSlot slot).1

def Works (m : CredentialMapping CredentialQueryPayload) (d : CredentialQueryPayloadDiscriminants) :
    Prop :=
  m.Offers env.ip ∧ ∃ payload success, m.leading = some payload ∧ payload.discriminant = d ∧
    d ≠ .unknown ∧ env.gateOpen d payload = true ∧ env.probe d payload = .ok success

theorem workingCredentialIds_foldl_merge (winners : List (ProbeWinner H))
    (results : IntegrationProbeResults H) :
    (winners.foldl env.merge results).workingCredentialIds =
      winners.foldl (fun ids w => ids.insert w.discriminant (w.credentialId, w.credential))
        results.workingCredentialIds := by
  induction winners generalizing results with
  | nil => rfl
  | cons w winners ih => rw [foldl_cons, foldl_cons, ih]; rfl

theorem get_workingCredentialIds {mappings : List (CredentialMapping CredentialQueryPayload)}
    {cancelled : Bool} {results : IntegrationProbeResults H}
    (h : env.probeIntegrations cancelled mappings = .ok results)
    (d : CredentialQueryPayloadDiscriminants) :
    results.workingCredentialIds.get d =
      ((mappings.filterMap env.winner).filter fun w => w.discriminant = d).getLast?.map
        fun w => (w.credentialId, w.credential) := by
  unfold probeIntegrations at h
  split_ifs at h
  cases h
  rw [workingCredentialIds_foldl_merge, HashMap.get_foldl_insert, filterMap_map,
    filterMap_filterMap]
  exact or_none

theorem runTask_of_forall (d : CredentialQueryPayloadDiscriminants)
    {credentials : List (CredentialQueryPayload × Option Uuid)}
    (h : ∀ c ∈ credentials, c.1 = payload) (failures : List CredentialIssue) :
    (env.runTask d credentials failures).1 = credentials.head?.bind fun c =>
      (env.probe d payload).toOption.map fun success => ⟨d, c.2, payload, success⟩ := by
  induction credentials generalizing failures with
  | nil => rfl
  | cons c credentials ih =>
    obtain ⟨credential, id⟩ := c
    obtain rfl : credential = payload := h _ mem_cons_self
    rw [runTask]
    cases hprobe : env.probe d credential with
    | ok success => rfl
    | error failure =>
      have hrest := ih (fun c hc => h c (mem_cons_of_mem _ hc))
      show (env.runTask d credentials _).1 = _
      rw [hrest, hprobe]
      cases credentials <;> rfl

theorem fst_closeSlot (slot : ProbeSlot) : (env.closeSlot slot).1 =
    slot.task.bind fun credentials => (env.runTask slot.entry.discriminant credentials []).1 := by
  unfold closeSlot
  cases slot.task with
  | none => rfl
  | some credentials =>
    rcases hrun : env.runTask slot.entry.discriminant credentials [] with ⟨_ | w, _ | ⟨i, is⟩⟩ <;>
      simp [hrun]

theorem winner_eq (m : CredentialMapping CredentialQueryPayload) :
    env.winner m = m.leading.bind fun leading =>
      (resolveCredentialsForIp m env.ip).head?.bind fun first =>
        if leading.discriminant ≠ .unknown ∧ env.gateOpen leading.discriminant first.1 = true then
          (env.runTask leading.discriminant (resolveCredentialsForIp m env.ip) []).1
        else none := by
  unfold winner openSlot
  rw [bind_map]
  refine Option.bind_congr fun leading _ => ?_
  show (env.closeSlot _).1 = _
  rw [fst_closeSlot]
  dsimp only
  cases hcredentials : resolveCredentialsForIp m env.ip with
  | nil => split_ifs <;> rfl
  | cons first rest =>
    obtain ⟨credential, id⟩ := first
    dsimp only [head?_cons, bind_some]
    split_ifs with hunknown hand hopen hand hand
    · exact absurd hunknown hand.1
    · rfl
    · rfl
    · exact absurd ⟨hunknown, hopen⟩ hand
    · exact absurd hand.2 hopen
    · cases ((credential, id) :: rest).find? fun c => c.2.isSome <;> rfl

theorem winner_eq_some {m : CredentialMapping CredentialQueryPayload} {id : Uuid}
    (h : m.OfCredential id payload) {w : ProbeWinner H} :
    env.winner m = some w ↔ env.Works m w.discriminant ∧
      w.credentialId = (if m.userAssigned env.ip then some id else none) ∧
      w.credential = payload ∧ env.probe w.discriminant payload = .ok w.success := by
  rw [winner_eq, bind_eq_some_iff]
  constructor
  · rintro ⟨leading, hleading, hbind⟩
    obtain ⟨first, hfirst, hif⟩ := bind_eq_some_iff.mp hbind
    obtain rfl := h.leading hleading
    have hmem := mem_of_mem_head? hfirst
    split_ifs at hif with hand
    rw [runTask_of_forall env _ (h.resolve env.ip), hfirst] at hif
    obtain ⟨success, hsuccess, rfl⟩ := map_eq_some_iff.mp hif
    have hprobe : env.probe leading.discriminant leading = .ok success := by
      cases hprobe : env.probe leading.discriminant leading with
      | ok success' =>
        rw [hprobe] at hsuccess
        cases hsuccess
        rfl
      | error failure =>
        rw [hprobe] at hsuccess
        cases hsuccess
    refine ⟨⟨exists_mem_resolveCredentialsForIp.mp ⟨first, hmem⟩, leading, success, hleading, rfl,
      hand.1, ?_, hprobe⟩, h.head_resolve hfirst, rfl, hprobe⟩
    have hopen := hand.2
    rwa [h.resolve env.ip first hmem] at hopen
  · rintro ⟨⟨hoffers, leading, -, hleading, hd, hknown, hopen, -⟩, hid, hcredential, hprobe⟩
    obtain rfl := h.leading hleading
    obtain ⟨c, hc⟩ := exists_mem_resolveCredentialsForIp.mpr hoffers
    obtain ⟨first, hfirst⟩ : ∃ first, (resolveCredentialsForIp m env.ip).head? = some first :=
      ⟨_, head?_eq_some_head (ne_nil_of_mem hc)⟩
    have hpayload := h.resolve env.ip first (mem_of_mem_head? hfirst)
    refine ⟨leading, hleading, bind_eq_some_iff.mpr ⟨first, hfirst, ?_⟩⟩
    rw [hd, hpayload, if_pos ⟨hknown, hopen⟩, runTask_of_forall env _ (h.resolve env.ip), hfirst,
      hprobe]
    obtain ⟨d, credentialId, credential, success⟩ := w
    cases hcredential
    simp only [bind_some, Except.toOption, map_some, h.head_resolve hfirst, ← hid]

def SpecificWins (mappings : List (CredentialMapping CredentialQueryPayload)) : Prop :=
  ∀ cancelled results, env.probeIntegrations cancelled mappings = .ok results → ∀ d,
    (∃ m ∈ mappings, ∃ w, env.winner m = some w ∧ w.discriminant = d ∧
      w.credentialId.isSome = true) →
    ∃ id payload, results.workingCredentialIds.get d = some (some id, payload) ∧
      ∃ m ∈ mappings, ∃ o ∈ m.ipOverrides,
        o.ip = env.ip ∧ o.credentialId = id ∧ o.credential = payload

/-- A credential that is assigned to other addresses only, and works here as a default, comes before
all that are assigned here and work, or before one of them at least. -/
def DefaultsFirst (mappings : Mappings) : Prop :=
  ∀ d id t id' t', mappings.get id = some t → mappings.get id' = some t' → id < id' →
    t.mapping.userAssigned env.ip = true → env.Works t.mapping d →
    t'.mapping.userAssigned env.ip = false → t'.mapping.ipOverrides ≠ [] → env.Works t'.mapping d →
    ∃ id'' t'', mappings.get id'' = some t'' ∧ id' < id'' ∧
      t''.mapping.userAssigned env.ip = true ∧ env.Works t''.mapping d

section Recorded
variable {env} {mappings : Mappings} {d : CredentialQueryPayloadDiscriminants}
variable {e : Uuid × TypedCredentialMapping}

def workers (env : ProbeEnv H) (mappings : Mappings) (d : CredentialQueryPayloadDiscriminants) :
    List (Uuid × TypedCredentialMapping) :=
  mappings.entries.filter fun e => !e.2.mapping.ipOverrides.isEmpty &&
    ((env.winner e.2.mapping).any fun w => w.discriminant = d)

theorem pairwise_workers : (workers env mappings d).Pairwise fun e e' => e.1 < e'.1 :=
  mappings.sorted.filter _

theorem orderMappingsForDispatch_eq (mappings : Mappings) : orderMappingsForDispatch mappings =
    (mappings.entries.filter fun e => e.2.mapping.ipOverrides.isEmpty).map (·.2.mapping) ++
      (mappings.entries.filter fun e => !e.2.mapping.ipOverrides.isEmpty).map (·.2.mapping) := by
  unfold orderMappingsForDispatch BTreeMap.values
  rw [partition_eq_filter_filter, List.map_map, List.filter_map, List.filter_map]
  rfl

theorem mem_orderMappingsForDispatch {m : CredentialMapping CredentialQueryPayload} :
    m ∈ orderMappingsForDispatch mappings ↔ ∃ id t, mappings.get id = some t ∧ t.mapping = m := by
  rw [(orderMappingsForDispatch_perm mappings).mem_iff, List.mem_map]
  simp only [BTreeMap.mem_values]
  exact ⟨fun ⟨t, ⟨id, hid⟩, ht⟩ => ⟨id, t, hid, ht⟩, fun ⟨id, t, hid, ht⟩ => ⟨t, ⟨id, hid⟩, ht⟩⟩

theorem mem_workers (hper : PerCredential mappings) {id : Uuid} {t : TypedCredentialMapping} :
    (id, t) ∈ workers env mappings d ↔
      mappings.get id = some t ∧ t.mapping.ipOverrides ≠ [] ∧ env.Works t.mapping d := by
  unfold workers
  rw [mem_filter, BTreeMap.mem_entries, Bool.and_eq_true, Bool.not_eq_true',
    isEmpty_eq_false_iff, Option.any_eq_true]
  refine and_congr_right fun hget => and_congr_right fun _ => ?_
  obtain ⟨payload, hof⟩ := hper id t hget
  constructor
  · rintro ⟨w, hw, hd⟩
    obtain rfl := of_decide_eq_true hd
    exact ((env.winner_eq_some hof).mp hw).1
  · intro hworks
    have ⟨_, payload', success, hleading, _, _, _, hprobe⟩ := hworks
    obtain rfl := hof.leading hleading
    exact ⟨⟨d, _, payload', success⟩, (env.winner_eq_some hof).mpr ⟨hworks, rfl, rfl, hprobe⟩,
      decide_eq_true rfl⟩

theorem winner_of_mem_workers
    (h : e ∈ workers env mappings d) :
    ∃ w, env.winner e.2.mapping = some w ∧ w.discriminant = d := by
  have hand := (mem_filter.mp h).2
  rw [Bool.and_eq_true, Option.any_eq_true] at hand
  obtain ⟨-, w, hw, hd⟩ := hand
  exact ⟨w, hw, of_decide_eq_true hd⟩

theorem filter_filterMap_winner (entries : List (Uuid × TypedCredentialMapping)) :
    ((entries.map (·.2.mapping)).filterMap env.winner).filter (fun w => w.discriminant = d) =
      (entries.filter fun e => (env.winner e.2.mapping).any fun w => w.discriminant = d).filterMap
        fun e => env.winner e.2.mapping := by
  induction entries with
  | nil => rfl
  | cons e entries ih =>
    rw [map_cons, filterMap_cons, filter_cons]
    cases hw : env.winner e.2.mapping with
    | none => simpa using ih
    | some w =>
      by_cases hd : w.discriminant = d
      · simpa [hd, hw] using ih
      · simpa [hd] using ih

theorem getLast?_winners
    (he : (workers env mappings d).getLast? = some e) :
    (((orderMappingsForDispatch mappings).filterMap env.winner).filter
      fun w => w.discriminant = d).getLast? = env.winner e.2.mapping := by
  have hmem := mem_of_getLast? he
  obtain ⟨w, hw, -⟩ := winner_of_mem_workers hmem
  obtain ⟨before, hworkers⟩ := getLast?_eq_some_iff.mp he
  rw [orderMappingsForDispatch_eq, filterMap_append, filter_append,
    filter_filterMap_winner, filter_filterMap_winner]
  have hfilter : ((mappings.entries.filter fun e => !e.2.mapping.ipOverrides.isEmpty).filter
      fun e => (env.winner e.2.mapping).any fun w => w.discriminant = d) = before ++ [e] := by
    rw [← hworkers, List.filter_filter]
    exact filter_congr fun e _ => Bool.and_comm _ _
  rw [hfilter, filterMap_append, getLast?_append, getLast?_append]
  simp [hw]

theorem exists_assigned_iff (hper : PerCredential mappings) :
    (∃ m ∈ orderMappingsForDispatch mappings, ∃ w, env.winner m = some w ∧ w.discriminant = d ∧
      w.credentialId.isSome = true) ↔
      ∃ e ∈ workers env mappings d, e.2.mapping.userAssigned env.ip = true := by
  constructor
  · rintro ⟨m, hm, w, hw, rfl, hsome⟩
    obtain ⟨id, t, hget, rfl⟩ := mem_orderMappingsForDispatch.mp hm
    obtain ⟨payload, hof⟩ := hper id t hget
    obtain ⟨hworks, hid, -, -⟩ := (env.winner_eq_some hof).mp hw
    have hassigned : t.mapping.userAssigned env.ip = true := by
      by_contra hnot
      rw [hid, if_neg hnot] at hsome
      exact absurd hsome Bool.false_ne_true
    obtain ⟨o, ho, -⟩ := List.any_eq_true.mp hassigned
    exact ⟨(id, t), (mem_workers hper).mpr ⟨hget, ne_nil_of_mem ho, hworks⟩, hassigned⟩
  · rintro ⟨⟨id, t⟩, he, hassigned⟩
    obtain ⟨hget, -, hworks⟩ := (mem_workers hper).mp he
    obtain ⟨payload, hof⟩ := hper id t hget
    obtain ⟨w, hw, hd⟩ := winner_of_mem_workers he
    refine ⟨t.mapping, mem_orderMappingsForDispatch.mpr ⟨id, t, hget, rfl⟩, w, hw, hd, ?_⟩
    rw [((env.winner_eq_some hof).mp hw).2.1, if_pos hassigned]
    rfl

/-- What is recorded was offered through an override for the address exactly if the last mapping
that works is assigned there. -/
theorem recorded_iff (hper : PerCredential mappings) {cancelled : Bool}
    {results : IntegrationProbeResults H}
    (hresults : env.probeIntegrations cancelled (orderMappingsForDispatch mappings) = .ok results)
    (he : (workers env mappings d).getLast? = some e) :
    (∃ id payload, results.workingCredentialIds.get d = some (some id, payload) ∧
      ∃ m ∈ orderMappingsForDispatch mappings, ∃ o ∈ m.ipOverrides,
        o.ip = env.ip ∧ o.credentialId = id ∧ o.credential = payload) ↔
      e.2.mapping.userAssigned env.ip = true := by
  obtain ⟨id, t⟩ := e
  have hmem := mem_of_getLast? he
  obtain ⟨hget, -, -⟩ := (mem_workers hper).mp hmem
  obtain ⟨payload, hof⟩ := hper id t hget
  obtain ⟨w, hw, -⟩ := winner_of_mem_workers hmem
  obtain ⟨-, hid, hcredential, -⟩ := (env.winner_eq_some hof).mp hw
  rw [env.get_workingCredentialIds hresults, getLast?_winners he, hw, map_some, hid, hcredential]
  constructor
  · rintro ⟨id', payload', hrecorded, -⟩
    by_contra hnot
    rw [if_neg hnot] at hrecorded
    simp at hrecorded
  · intro hassigned
    obtain ⟨o, ho, hand⟩ := List.any_eq_true.mp hassigned
    rw [if_pos hassigned]
    refine ⟨id, payload, rfl, t.mapping, mem_orderMappingsForDispatch.mpr ⟨id, t, hget, rfl⟩, o, ho,
      of_decide_eq_true (Bool.and_eq_true_iff.mp hand).1, hof.ids o ho, ?_⟩
    exact hof.payloads _ (mem_append_right _ (List.mem_map_of_mem ho))

end Recorded

/-- A credential of the host is recorded before a default of the network exactly if no credential
that works as a default stands behind it with overrides of its own for other addresses, or a
further credential of the host follows. -/
theorem specificWins_iff (mappings : Mappings) (hper : PerCredential mappings) :
    env.SpecificWins (orderMappingsForDispatch mappings) ↔ env.DefaultsFirst mappings := by
  have hsorted : ∀ d, ((∃ e ∈ workers env mappings d, e.2.mapping.userAssigned env.ip = true) →
      ∃ e ∈ (workers env mappings d).getLast?, e.2.mapping.userAssigned env.ip = true) ↔ _ :=
    fun d => pairwise_workers.last_of_exists_iff
  constructor
  · intro hwins d id t id' t' hget hget' hlt hassigned hworks hnot hne hworks'
    obtain ⟨results, hresults⟩ : ∃ results,
        env.probeIntegrations false (orderMappingsForDispatch mappings) = .ok results := ⟨_, rfl⟩
    obtain ⟨o, ho, -⟩ := List.any_eq_true.mp hassigned
    have hmem : (id, t) ∈ workers env mappings d :=
      (mem_workers hper).mpr ⟨hget, ne_nil_of_mem ho, hworks⟩
    have hmem' : (id', t') ∈ workers env mappings d := (mem_workers hper).mpr ⟨hget', hne, hworks'⟩
    have hlast : (∃ e ∈ workers env mappings d, e.2.mapping.userAssigned env.ip = true) →
        ∃ e ∈ (workers env mappings d).getLast?, e.2.mapping.userAssigned env.ip = true := by
      intro hexists
      have he := getLast?_eq_some_getLast (ne_nil_of_mem hmem)
      refine ⟨_, he, (recorded_iff hper hresults he).mp ?_⟩
      exact hwins false results hresults d ((exists_assigned_iff hper).mpr hexists)
    obtain ⟨⟨id'', t''⟩, hmem'', hassigned'', hlt''⟩ := (hsorted d).mp hlast (id, t) hmem (id', t')
      hmem' hassigned (Bool.eq_false_iff.mp hnot) hlt
    obtain ⟨hget'', -, hworks''⟩ := (mem_workers hper).mp hmem''
    exact ⟨id'', t'', hget'', hlt'', hassigned'', hworks''⟩
  · intro hfirst cancelled results hresults d hexists
    have hlast := (hsorted d).mpr fun e he e' he' hassigned hnot hlt => by
      obtain ⟨hget, -, hworks⟩ := (mem_workers hper).mp he
      obtain ⟨hget', hne', hworks'⟩ := (mem_workers hper).mp he'
      obtain ⟨id'', t'', hget'', hlt'', hassigned'', hworks''⟩ := hfirst d e.1 e.2 e'.1 e'.2 hget
        hget' hlt hassigned hworks (Bool.eq_false_iff.mpr hnot) hne' hworks'
      obtain ⟨o, ho, -⟩ := List.any_eq_true.mp hassigned''
      exact ⟨(id'', t''), (mem_workers hper).mpr ⟨hget'', ne_nil_of_mem ho, hworks''⟩,
        hassigned'', hlt''⟩
    obtain ⟨e, he, hassigned⟩ := hlast ((exists_assigned_iff hper).mp hexists)
    exact (recorded_iff hper hresults he).mpr hassigned

end ProbeEnv

section Switches

def community (id : Uuid) (text : String) : Credential := ⟨id, 7, text, .snmpV2c (.inline text)⟩

/-- The credential `core` is for the switch at 10.0.0.2 only; the credential `lan` is the default of
the network and is assigned to the switch at 10.0.0.3 as well. -/
def switchContributions (core lan : Uuid) : List Contribution :=
  [⟨community lan "lan", .broadcast⟩, ⟨community core "core", .assigned [.v4 0x0A000002#32]⟩,
    ⟨community lan "lan", .assigned [.v4 0x0A000003#32]⟩]

def switchMappings (core lan : Uuid) : Mappings :=
  (switchContributions core lan).foldl Contribution.apply .empty

def coreSwitch : ProbeEnv Unit where
  ip := .v4 0x0A000002#32
  openPorts := []
  skipGate := false
  probe _ _ := .ok ⟨.snmp, [], none⟩

theorem perCredential_switchMappings {core lan : Uuid} (h : core ≠ lan) :
    PerCredential (switchMappings core lan) := by
  refine perCredential_foldl ?_
  simp [switchContributions, community, h, h.symm]

/-- With the lower id, the default of the network is out of the way. -/
theorem specificWins_coreSwitch : PerCredential (switchMappings 2 1) ∧
    coreSwitch.SpecificWins (orderMappingsForDispatch (switchMappings 2 1)) := by
  have hper := perCredential_switchMappings (show (2 : Uuid) ≠ 1 by decide)
  refine ⟨hper, (coreSwitch.specificWins_iff _ hper).mpr ?_⟩
  intro d id t id' t' hget hget' hlt hassigned _ hnot
  rw [← BTreeMap.mem_entries] at hget hget'
  have hcore : ∀ e ∈ (switchMappings 2 1).entries,
      e.2.mapping.userAssigned coreSwitch.ip = true → e.1 = 2 := by decide +kernel
  have hlast : ∀ e ∈ (switchMappings 2 1).entries, ¬ 2 < e.1 := by decide +kernel
  obtain rfl : id = 2 := hcore (id, t) hget hassigned
  exact absurd hlt (hlast (id', t') hget')

/-- With the higher id, the default of the network is recorded in place of the credential that is
assigned to the switch. -/
theorem not_specificWins : ¬ ∀ (env : ProbeEnv Unit) (mappings : Mappings),
    PerCredential mappings → env.SpecificWins (orderMappingsForDispatch mappings) := by
  intro h
  obtain ⟨results, hresults⟩ : ∃ results, coreSwitch.probeIntegrations false
      (orderMappingsForDispatch (switchMappings 1 2)) = .ok results := ⟨_, rfl⟩
  obtain ⟨id, payload, hrecorded, -⟩ := h coreSwitch _
    (perCredential_switchMappings (by decide)) false results hresults .snmp
    ⟨_, mem_of_getElem? (i := 0) rfl, _, rfl, rfl, rfl⟩
  have hdefault : (results.workingCredentialIds.get .snmp).map (·.1) = some none := by
    cases hresults
    decide +kernel
  rw [hrecorded] at hdefault
  cases hdefault

end Switches

end Scanopy
