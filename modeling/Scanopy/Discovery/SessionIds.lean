import Scanopy.Discovery.Provenance
import Scanopy.Discovery.Runs

/-! The life of a session id. Until `start_session` has stored a session, no other call and no part
of the state knows its id; from then on the id is published and stays so. -/

namespace Scanopy
open List DiscoveryService

def History.Published (h : History) (id : Uuid) : Prop := id ∈ h.known ∧ id ∉ h.unpublished

/-- The payload of a `start_session` call that has an id and has not stored the session. -/
def Call.reserved : Call → Option DiscoveryUpdatePayload
  | startMapped p | startGuarded p _ | startProbed p | startTracked p => some p
  | _ => none

def Call.names : Call → List Uuid
  | startStored p => [p.sessionId]
  | updateCalled u | updateReceived u => [u.sessionId]
  | cancelRead session | cancelLooked session => [session.sessionId]
  | _ => []

structure IdsInv (s : System) : Prop where
  known : ∀ id ∈ s.history.unpublished, id ∈ s.history.known
  stored : ∀ id p, s.svc.sessions.get id = some p →
    s.history.Published id ∧ p.phase.isTerminal = false
  queued : ∀ d, ∀ id ∈ s.svc.queue d, s.history.Published id
  dispatched : ∀ id ∈ s.history.dispatched, s.history.Published id
  ended : ∀ id ∈ s.history.ended, s.history.Published id
  reserved : ∀ c k, s.calls.get c = some k → ∀ p, k.reserved = some p →
    p.sessionId ∈ s.history.unpublished ∧ p.phase.isTerminal = false
  names : ∀ c k, s.calls.get c = some k → ∀ id ∈ k.names, s.history.Published id
  /-- An id that is not published is reserved by one call. -/
  holder : ∀ id ∈ s.history.unpublished, ∃ c k p, s.calls.get c = some k ∧
    k.reserved = some p ∧ p.sessionId = id
  unique : ∀ c c' k k' p p', s.calls.get c = some k → s.calls.get c' = some k' →
    k.reserved = some p → k'.reserved = some p' → p.sessionId = p'.sessionId → c = c'

def Section.FromIds (h : History) : Section → Prop
  | mapDiscovery _ id => id ∉ h.known
  | store p => p.sessionId ∈ h.unpublished ∧ p.phase.isTerminal = false
  | enqueue p => h.Published p.sessionId
  | update u _ _ => h.Published u.sessionId
  | cancelQueued session _ => h.Published session.sessionId
  | _ => True

theorem startPhase_isTerminal (b r : Bool) : (startPhase b r).isTerminal = false := by
  cases b <;> cases r <;> rfl

theorem enrich_sessionId (s : DiscoveryService) (order : List Uuid) (u : DiscoveryUpdatePayload) :
    (enrich s order u).sessionId = u.sessionId := by
  unfold enrich; split_ifs <;> rfl

namespace IdsInv
variable {s : System} {c : ℕ} {k : Call} {e : Env} {sec : Section} {k' : Option Call}
variable {t : DiscoveryService} {p : DiscoveryUpdatePayload} {id : Uuid}

theorem init : IdsInv System.init where
  known _ h := by cases h
  stored _ _ h := by cases h
  queued _ _ h := by cases h
  dispatched _ h := by cases h
  ended _ h := by cases h
  reserved _ _ h := by cases h
  names _ _ h := by cases h
  holder _ h := by cases h
  unique _ _ _ _ _ _ h := by cases h

theorem not_reserved_of_isInitial (hk : k.isInitial = true) : k.reserved = none := by
  cases k <;> first | rfl | cases hk

theorem published_spawn (h : s.history.Published id) :
    (s.spawn c k).history.Published id := by
  refine ⟨?_, h.2⟩
  cases k with
  | updateCalled u => exact Finset.mem_insert_of_mem h.1
  | _ => exact h.1

theorem spawn (h : IdsInv s) (hc : s.calls.get c = none) (hk : k.isInitial = true)
    (ha : k.admissible s.history = true) : IdsInv (s.spawn c k) where
  known id hid := by
    have hold := h.known id hid
    cases k with
    | updateCalled u => exact Finset.mem_insert_of_mem hold
    | _ => exact hold
  stored id p hp := ⟨published_spawn (h.stored id p hp).1, (h.stored id p hp).2⟩
  queued d id hid := published_spawn (h.queued d id hid)
  dispatched id hid := published_spawn (h.dispatched id hid)
  ended id hid := published_spawn (h.ended id hid)
  reserved := by
    refine System.forall_calls_spawn h.reserved fun p hp => ?_
    rw [not_reserved_of_isInitial hk] at hp
    cases hp
  names := by
    refine System.forall_calls_spawn
      (fun c' k' hk' id hid => published_spawn (h.names c' k' hk' id hid)) fun id hid => ?_
    cases k with
    | updateCalled u =>
      rw [mem_singleton.mp hid]
      exact ⟨Finset.mem_insert_self _ _, of_decide_eq_true ha⟩
    | startStored | updateReceived | cancelRead | cancelLooked => cases hk
    | _ => cases hid
  holder id hid := by
    obtain ⟨c', k', p, hc', hk', hp⟩ := h.holder id hid
    refine ⟨c', k', p, ?_, hk', hp⟩
    rw [System.get_calls_spawn, if_neg, hc']
    rintro rfl
    cases hc.symm.trans hc'
  unique c₁ c₂ k₁ k₂ p₁ p₂ h₁ h₂ hr₁ hr₂ := by
    have hnew : ∀ c' k' p', (s.spawn c k).calls.get c' = some k' → k'.reserved = some p' →
        s.calls.get c' = some k' := by
      intro c' k' p' hc' hr
      rw [System.get_calls_spawn] at hc'
      split_ifs at hc'
      · cases hc'
        rw [not_reserved_of_isInitial hk] at hr
        cases hr
      · exact hc'
    exact h.unique c₁ c₂ k₁ k₂ p₁ p₂ (hnew c₁ k₁ p₁ h₁ hr₁) (hnew c₂ k₂ p₂ h₂ hr₂) hr₁ hr₂

theorem published_observe (hsec : sec.FromIds s.history)
    (h : s.history.Published id) : (s.history.observe s.svc sec).Published id := by
  cases sec with
  | mapDiscovery d fresh =>
    refine ⟨Finset.mem_insert_of_mem h.1, fun hid => ?_⟩
    rcases Finset.mem_insert.mp hid with rfl | hid
    · exact hsec h.1
    · exact h.2 hid
  | store p => exact ⟨h.1, fun hid => h.2 (Finset.mem_of_mem_erase hid)⟩
  | _ => exact h

theorem storedBy (h : IdsInv s) (hsec : sec.FromIds s.history) (hp : StoredBy s.svc sec id p) :
    (s.history.observe s.svc sec).Published id ∧ p.phase.isTerminal = false := by
  have hkept : ∀ {q}, s.svc.sessions.get id = some q → (s.history.observe s.svc sec).Published id :=
    fun hq => published_observe hsec (h.stored id _ hq).1
  cases hp with
  | kept hp => exact ⟨hkept hp, (h.stored id p hp).2⟩
  | stored =>
    exact ⟨⟨h.known _ hsec.1, Finset.notMem_erase _ _⟩, hsec.2⟩
  | updated ht => exact ⟨published_observe hsec hsec, ht⟩
  | promotedByUpdate _ _ _ hp | promotedByCancel _ _ hp | promotedBySweep hp _ =>
    exact ⟨hkept hp, rfl⟩
  | released hp _ _ hph =>
    refine ⟨hkept hp, ?_⟩
    rcases hph with rfl | rfl <;> rfl
  | transitioned hp _ | taken hp _ => exact ⟨hkept hp, rfl⟩

theorem queuedBy (h : IdsInv s) (hsec : sec.FromIds s.history) {d : Uuid}
    (hq : QueuedBy s.svc sec d id) : (s.history.observe s.svc sec).Published id := by
  cases hq with
  | kept hid => exact published_observe hsec (h.queued d id hid)
  | enqueued | created => exact published_observe hsec hsec

theorem ends (h : IdsInv s) (hsec : sec.FromIds s.history)
    (hid : id ∈ sec.ends s.svc) : s.history.Published id := by
  cases sec with
  | update u now db =>
    rw [Section.ends] at hid
    split_ifs at hid
    · rw [Finset.mem_singleton.mp hid]
      exact hsec
    · cases hid
  | cancelQueued p now =>
    rw [Finset.mem_singleton.mp hid]
    exact hsec
  | sweep ps now promotedAt db =>
    obtain ⟨p, hp⟩ := SessionMap.mem_keys.mp (Finset.mem_inter.mp hid).2
    exact (h.stored id p hp).1
  | _ => cases hid

theorem mem_dispatchedIds :
    id ∈ t.dispatchedIds ↔ ∃ p, t.sessions.get id = some p ∧ p.phase.isDispatched = true := by
  rw [dispatchedIds, Finset.mem_filter, SessionMap.mem_keys, Option.any_eq_true]
  constructor
  · rintro ⟨-, p, hp⟩
    exact ⟨p, hp⟩
  · rintro ⟨p, hp, hd⟩
    exact ⟨⟨p, hp⟩, p, hp, hd⟩

theorem reserved_kept (hf : Fires s e k sec k')
    (hp : k.reserved = some p) :
    sec = .store p ∨ ∃ k'' p', k' = some k'' ∧ k''.reserved = some p' ∧
      p'.sessionId = p.sessionId := by
  cases hf with
  | guard | probe | track | noTrack =>
    cases hp
    exact .inr ⟨_, _, rfl, rfl, rfl⟩
  | store =>
    cases hp
    exact .inl rfl
  | _ => cases hp

theorem mem_unpublished_observe {h : History}
    (hid : id ∈ (h.observe t sec).unpublished) :
    (∃ d, sec = .mapDiscovery d id) ∨
      id ∈ h.unpublished ∧ ∀ p, sec = .store p → p.sessionId ≠ id := by
  cases sec with
  | mapDiscovery d fresh =>
    rcases Finset.mem_insert.mp hid with rfl | hid
    · exact .inl ⟨d, rfl⟩
    · exact .inr ⟨hid, fun _ hp => nomatch hp⟩
  | store p =>
    obtain ⟨hne, hid⟩ := Finset.mem_erase.mp hid
    refine .inr ⟨hid, fun q hq => ?_⟩
    cases hq
    exact hne.symm
  | _ => exact .inr ⟨hid, fun _ hp => nomatch hp⟩

variable (h : IdsInv s) (hc : s.calls.get c = some k) (hf : Fires s e k sec k')
include h hc hf

theorem fromIds : sec.FromIds s.history := by
  have hres := h.reserved c k hc
  have hnames := h.names c k hc
  cases hf with
  | map hfresh => exact hfresh
  | store => exact hres _ rfl
  | enqueue | update | cancelQueued => exact hnames _ mem_cons_self
  | _ => trivial

theorem reserved_next :
    k'.elim True fun k' => ∀ p, k'.reserved = some p → p.phase.isTerminal = false ∧
      p.sessionId ∈ (s.history.observe s.svc sec).unpublished ∧
      ((∃ q, k.reserved = some q ∧ q.sessionId = p.sessionId) ∨ p.sessionId ∉ s.history.known) := by
  have hres := h.reserved c k hc
  cases hf with
  | map hfresh =>
    rintro p hp
    cases hp
    exact ⟨rfl, Finset.mem_insert_self _ _, .inr hfresh⟩
  | @guard q =>
    rintro p hp
    cases hp
    exact ⟨(hres q rfl).2, (hres q rfl).1, .inl ⟨q, rfl, rfl⟩⟩
  | @probe q b =>
    rintro p hp
    cases hp
    exact ⟨startPhase_isTerminal _ _, (hres q rfl).1, .inl ⟨q, rfl, rfl⟩⟩
  | @track q | @noTrack q =>
    rintro p hp
    cases hp
    exact ⟨(hres q rfl).2, (hres q rfl).1, .inl ⟨q, rfl, rfl⟩⟩
  | _ => first | trivial | exact fun p hp => nomatch hp

theorem names_next :
    k'.elim True fun k' => ∀ id ∈ k'.names, (s.history.observe s.svc sec).Published id := by
  have hnames := h.names c k hc
  have hsec := h.fromIds hc hf
  cases hf with
  | @store p =>
    intro id hid
    rw [mem_singleton.mp hid]
    exact ⟨h.known _ hsec.1, Finset.notMem_erase _ _⟩
  | @receive u =>
    intro id hid
    rw [mem_singleton.mp hid, enrich_sessionId]
    exact hnames _ mem_cons_self
  | cancelFound hp =>
    intro id hid
    rw [mem_singleton.mp hid, SessionMap.get_sessionId hp]
    exact (h.stored _ _ hp).1
  | cancelLookup => exact hnames
  | _ => first | trivial | exact fun id hid => nomatch hid

theorem holder_next (hid : id ∈ (s.history.observe s.svc sec).unpublished) :
    ∃ c' k'' p, (s.after c sec k').calls.get c' = some k'' ∧ k''.reserved = some p ∧
      p.sessionId = id := by
  have hself : ∀ k'', k' = some k'' → (s.after c sec k').calls.get c = some k'' := by
    intro k'' hk''
    rw [System.get_calls_after, if_pos rfl, hk'']
  rcases mem_unpublished_observe hid with ⟨d, rfl⟩ | ⟨hid, hstore⟩
  · cases hf
    exact ⟨c, _, _, hself _ rfl, rfl, rfl⟩
  · obtain ⟨c', k₀, p, hc', hr, rfl⟩ := h.holder id hid
    by_cases hcc : c' = c
    · subst hcc
      cases hc.symm.trans hc'
      rcases reserved_kept hf hr with hsec | ⟨k'', p', hk'', hr', hp'⟩
      · exact absurd rfl (hstore p hsec)
      · exact ⟨c', k'', p', hself k'' hk'', hr', hp'⟩
    · refine ⟨c', k₀, p, ?_, hr, rfl⟩
      rw [System.get_calls_after, if_neg hcc, hc']

theorem unique_next
    {c' : ℕ} {k₁ k₂ : Call} {p₁ p₂ : DiscoveryUpdatePayload} (hk₁ : k' = some k₁)
    (hr₁ : k₁.reserved = some p₁) (hc' : c' ≠ c) (hk₂ : s.calls.get c' = some k₂)
    (hr₂ : k₂.reserved = some p₂) : p₁.sessionId ≠ p₂.sessionId := by
  intro hid
  have hnext := h.reserved_next hc hf
  rw [hk₁] at hnext
  rcases (hnext p₁ hr₁).2.2 with ⟨q, hq, hqid⟩ | hfresh
  · exact hc' (h.unique c' c k₂ k p₂ q hk₂ hc hr₂ hq (hid.symm.trans hqid.symm))
  · rw [hid] at hfresh
    exact hfresh (h.known _ (h.reserved c' k₂ hk₂ p₂ hr₂).1)

theorem next : IdsInv (s.after c sec k') := by
  have hsec := h.fromIds hc hf
  have hpub : ∀ {id}, s.history.Published id → (s.history.observe s.svc sec).Published id :=
    published_observe hsec
  refine ⟨fun id hid => ?_, fun id p hp => h.storedBy hsec (storedBy_of_get hp),
    fun d id hid => h.queuedBy hsec (queuedBy_of_mem hid), fun id hid => ?_, fun id hid => ?_,
    fun c' k'' hk'' p hp => ?_, ?_, fun id hid => h.holder_next hc hf hid, ?_⟩
  · obtain ⟨c', k'', p, hc', hr, rfl⟩ := h.holder_next hc hf hid
    rcases mem_unpublished_observe hid with ⟨d, rfl⟩ | ⟨hid, -⟩
    · exact Finset.mem_insert_self _ _
    · have hold := h.known _ hid
      cases sec with
      | mapDiscovery => exact Finset.mem_insert_of_mem hold
      | _ => exact hold
  · rcases Finset.mem_union.mp hid with hid | hid
    · exact hpub (h.dispatched id hid)
    · obtain ⟨p, hp, -⟩ := mem_dispatchedIds.mp hid
      exact (h.storedBy hsec (storedBy_of_get hp)).1
  · rcases Finset.mem_union.mp hid with hid | hid
    · exact hpub (h.ended id hid)
    · exact hpub (h.ends hsec hid)
  · rw [System.get_calls_after] at hk''
    split_ifs at hk'' with hcc
    · have hnext := h.reserved_next hc hf
      rw [hk''] at hnext
      exact ⟨(hnext p hp).2.1, (hnext p hp).1⟩
    · -- another call keeps its id: the section stores that of the call that goes on
      obtain ⟨hid, ht⟩ := h.reserved c' k'' hk'' p hp
      refine ⟨?_, ht⟩
      cases sec with
      | mapDiscovery => exact Finset.mem_insert_of_mem hid
      | store q =>
        refine Finset.mem_erase.mpr ⟨fun hpq => ?_, hid⟩
        cases hf
        exact hcc (h.unique c' c k'' _ p q hk'' hc hp rfl hpq)
      | _ => exact hid
  · exact System.forall_calls_after (P := fun k => ∀ id ∈ k.names, s.history.Published id)
      h.names (fun _ hk id hid => hpub (hk id hid)) (h.names_next hc hf)
  · intro c₁ c₂ k₁ k₂ p₁ p₂ h₁ h₂ hr₁ hr₂ hid
    rw [System.get_calls_after] at h₁ h₂
    split_ifs at h₁ h₂ with hc₁ hc₂ hc₂
    · exact hc₁.trans hc₂.symm
    · exact absurd hid (h.unique_next hc hf h₁ hr₁ hc₂ h₂ hr₂)
    · exact absurd hid.symm (h.unique_next hc hf h₂ hr₂ hc₁ h₁ hr₁)
    · exact h.unique c₁ c₂ k₁ k₂ p₁ p₂ h₁ h₂ hr₁ hr₂ hid

end IdsInv

variable {s : System} {ok : System → Section → Prop}

theorem idsInv_of_reached (hs : ReachedWith ok s) :
    IdsInv s :=
  ReachedWith.invariant .init (fun _ _ _ h hc hk ha => h.spawn hc hk ha)
    (fun _ _ _ _ _ _ h hc hf _ => h.next hc hf) hs

theorem idsInv_of_reachable (hs : sessionSystem.Reachable s) : IdsInv s := by
  have hreached : ReachedWith (fun _ _ => True) s := hs.mono fun _ _ _ _ _ => trivial
  exact idsInv_of_reached hreached

theorem ReachedWith.invariant_ids {I : System → Prop}
    (hinit : I System.init)
    (hcall : ∀ s c k, IdsInv s → I s → s.calls.get c = none → k.isInitial = true → I (s.spawn c k))
    (hnext : ∀ s c k e sec k', IdsInv s → I s → s.calls.get c = some k → Fires s e k sec k' →
      ok s sec → I (s.after c sec k')) (hs : ReachedWith ok s) : I s := by
  refine (ReachedWith.invariant (I := fun s => IdsInv s ∧ I s) ⟨.init, hinit⟩ ?_ ?_ hs).2
  · exact fun s c k h hc hk ha => ⟨h.1.spawn hc hk ha, hcall s c k h.1 h.2 hc hk⟩
  · exact fun s c k e sec k' h hc hf hok =>
      ⟨h.1.next hc hf, hnext s c k e sec k' h.1 h.2 hc hf hok⟩

end Scanopy
