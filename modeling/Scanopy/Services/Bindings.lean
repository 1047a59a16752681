import Mathlib.Data.List.Pairwise
import Scanopy.Services.Types

/-! The bindings of one service. A submitted list is deduplicated and checked, a discovered one
merged into the stored one; otherwise bindings are only removed. -/

namespace Scanopy

open List Option

def bindingsOverlap : Option Uuid → Option Uuid → Bool
  | none, _ | _, none => true
  | some a, some b => a = b

def portClaims (bindings : List Binding) : List (Uuid × Option Uuid) :=
  bindings.filterMap fun b => match b.base.bindingType with
    | .port portId ipAddressId => some (portId, ipAddressId)
    | .ipAddress _ => none

def isBindingCoveredByExisting (b : Binding) (existing : List Binding) : Bool :=
  match b.base.bindingType with
  | .port portId (some _) => existing.any fun e => e.base.bindingType = .port portId none
  | _ => false

def validateBindingNoConflict (t : BindingType) (existing : List Binding) : Option String :=
  match t with
  | .ipAddress ipAddressId =>
    if existing.any fun e => match e.base.bindingType with
        | .port _ ip => ip = some ipAddressId || ip.isNone
        | .ipAddress _ => false then
      some ("Cannot add ip_address binding: service already has a port binding on this " ++
        "ip_address (or on all ip_addresses).")
    else none
  | .port _ (some ipAddressId) =>
    if existing.any fun e => e.base.bindingType = .ipAddress ipAddressId then
      some ("Cannot add port binding: service already has an ip_address binding on this " ++
        "ip_address.")
    else none
  | .port _ none =>
    if existing.any fun e => match e.base.bindingType with
        | .ipAddress _ => true
        | .port _ _ => false then
      some ("Cannot add port binding on all ip_addresses: service already has ip_address " ++
        "bindings.")
    else none

def allInterfacePortIds (bindings : List Binding) : List Uuid :=
  bindings.filterMap fun b => match b.base.bindingType with
    | .port portId none => some portId
    | _ => none

def isSuperseded (allPortIds : List Uuid) (b : Binding) : Bool :=
  match b.base.bindingType with
  | .port portId (some _) => allPortIds.contains portId
  | _ => false

def deduplicateStep (allPortIds : List Uuid) (result : List Binding) (b : Binding) :
    List Binding :=
  if isSuperseded allPortIds b then result
  else if result.any fun r => r.base.bindingType = b.base.bindingType then result
  else result ++ [b]

def deduplicateBindings (bindings : List Binding) : List Binding :=
  bindings.foldl (deduplicateStep (allInterfacePortIds bindings)) []

def validateBindingsNoConflicts (bindings : List Binding) : Option String :=
  bindings.zipIdx.findSome? fun (b, i) =>
    validateBindingNoConflict b.base.bindingType (bindings.take i)

/-- A port on all addresses supersedes the same port on single ones. -/
def retainUndominated (t : BindingType) (existing : List Binding) : List Binding :=
  match t with
  | .port portId none => existing.filter fun e => match e.base.bindingType with
    | .port existingPortId ip => !(ip.isSome && existingPortId = portId)
    | .ipAddress _ => true
  | _ => existing

/-- One discovered binding, in the loop of `upsert_service`. -/
def upsertBinding (existing : List Binding) (b : Binding) : List Binding :=
  if isBindingCoveredByExisting b existing then existing
  else if (validateBindingNoConflict b.base.bindingType existing).isSome then existing
  else
    let existing := retainUndominated b.base.bindingType existing
    if existing.any fun e => e.base.bindingType = b.base.bindingType then existing
    else existing ++ [b]

def upsertBindings (existing new : List Binding) : List Binding := new.foldl upsertBinding existing

def isClaimed (claims : List (Uuid × Option Uuid)) (b : Binding) : Bool :=
  match b.base.bindingType with
  | .port portId ip => claims.any fun (claimPort, claimIp) =>
    claimPort = portId && bindingsOverlap claimIp ip
  | .ipAddress _ => false

/-- What `remove_port_bindings` leaves. -/
def remainingBindings (claims : List (Uuid × Option Uuid)) (bindings : List Binding) :
    List Binding :=
  bindings.filter fun b => !isClaimed claims b

structure WellFormed (bindings : List Binding) : Prop where
  nodup : (bindings.map (·.base.bindingType)).Nodup
  uncovered : ∀ b ∈ bindings, isBindingCoveredByExisting b bindings = false
  noConflict : ∀ b ∈ bindings, validateBindingNoConflict b.base.bindingType bindings = none

namespace BindingType

def covers : BindingType → BindingType → Bool
  | port p none, port q (some _) => p = q
  | _, _ => false

def conflicts : BindingType → BindingType → Bool
  | ipAddress i, port _ ip | port _ ip, ipAddress i => ip = some i || ip.isNone
  | _, _ => false

structure Compatible (s t : BindingType) : Prop where
  ne : s ≠ t
  not_covers : covers s t = false
  not_covered : covers t s = false
  not_conflicts : conflicts s t = false

instance (s t : BindingType) : Decidable (Compatible s t) :=
  decidable_of_iff (s ≠ t ∧ covers s t = false ∧ covers t s = false ∧ conflicts s t = false)
    ⟨fun h => ⟨h.1, h.2.1, h.2.2.1, h.2.2.2⟩,
      fun h => ⟨h.ne, h.not_covers, h.not_covered, h.not_conflicts⟩⟩

theorem conflicts_comm (s t : BindingType) : conflicts s t = conflicts t s := by
  cases s <;> cases t <;> rfl

theorem covers_self (t : BindingType) : covers t t = false := by
  rcases t with i | ⟨p, _ | i⟩ <;> rfl

theorem conflicts_self (t : BindingType) : conflicts t t = false := by cases t <;> rfl

theorem Compatible.symm {s t : BindingType} (h : Compatible s t) : Compatible t s :=
  ⟨h.ne.symm, h.not_covered, h.not_covers, (conflicts_comm t s).trans h.not_conflicts⟩

end BindingType

open BindingType

variable {bindings existing : List Binding}

theorem isBindingCoveredByExisting_eq_false {b : Binding} :
    isBindingCoveredByExisting b existing = false ↔
      ∀ e ∈ existing, covers e.base.bindingType b.base.bindingType = false := by
  unfold isBindingCoveredByExisting
  rcases b.base.bindingType with i | ⟨p, _ | i⟩
  · simp [covers]
  · simp [covers]
  · simp only [List.any_eq_false, decide_eq_true_eq]
    refine forall₂_congr fun e _ => ?_
    rcases e.base.bindingType with j | ⟨q, _ | j⟩ <;> simp [covers]

theorem validateBindingNoConflict_eq_none {t : BindingType} :
    validateBindingNoConflict t existing = none ↔
      ∀ e ∈ existing, conflicts t e.base.bindingType = false := by
  unfold validateBindingNoConflict
  rcases t with i | ⟨p, _ | i⟩
  all_goals
    simp only [ite_eq_right_iff, reduceCtorEq, imp_false, Bool.not_eq_true, List.any_eq_false]
    refine forall₂_congr fun e _ => ?_
    rcases e.base.bindingType with j | ⟨q, _ | j⟩ <;> simp [conflicts, eq_comm]

def BindingsCompatible (a b : Binding) : Prop := Compatible a.base.bindingType b.base.bindingType

instance : Std.Symm BindingsCompatible := ⟨fun _ _ h => h.symm⟩

theorem pairwise_bindingType :
    (bindings.map (·.base.bindingType)).Pairwise Compatible ↔
      bindings.Pairwise BindingsCompatible := pairwise_map

theorem wellFormed_iff_pairwise :
    WellFormed bindings ↔ bindings.Pairwise BindingsCompatible := by
  constructor
  · intro h
    have hne := pairwise_map.mp h.nodup
    refine hne.imp_of_mem fun {a b} ha hb hab => ⟨hab, ?_, ?_, ?_⟩
    · exact isBindingCoveredByExisting_eq_false.mp (h.uncovered b hb) a ha
    · exact isBindingCoveredByExisting_eq_false.mp (h.uncovered a ha) b hb
    · exact validateBindingNoConflict_eq_none.mp (h.noConflict a ha) b hb
  · intro h
    refine ⟨pairwise_map.mpr (h.imp Compatible.ne), fun b hb => ?_, fun b hb => ?_⟩
    · refine isBindingCoveredByExisting_eq_false.mpr fun e he => ?_
      by_cases heb : e = b
      · rw [heb]
        exact covers_self _
      · exact (h.forall he hb heb).not_covers
    · refine validateBindingNoConflict_eq_none.mpr fun e he => ?_
      by_cases hbe : b = e
      · rw [hbe]
        exact conflicts_self _
      · exact (h.forall hb he hbe).not_conflicts

theorem WellFormed.filter (h : WellFormed bindings)
    (p : Binding → Bool) : WellFormed (bindings.filter p) :=
  wellFormed_iff_pairwise.mpr ((wellFormed_iff_pairwise.mp h).filter p)

section Deduplicate
variable {allPortIds : List Uuid} {bindings result : List Binding}
variable {b : Binding}

structure Deduplicated (allPortIds : List Uuid) (bindings result : List Binding) : Prop where
  nodup : (result.map (·.base.bindingType)).Nodup
  mem : ∀ r ∈ result, r ∈ bindings
  kept : ∀ r ∈ result, isSuperseded allPortIds r = false

theorem deduplicateStep_keeps (h : Deduplicated allPortIds bindings result)
    (hb : b ∈ bindings) :
    Deduplicated allPortIds bindings (deduplicateStep allPortIds result b) := by
  unfold deduplicateStep
  split_ifs with hsuperseded hseen
  · exact h
  · exact h
  · rw [Bool.not_eq_true] at hsuperseded
    simp only [List.any_eq_true, decide_eq_true_eq, not_exists, not_and] at hseen
    refine ⟨?_, ?_, ?_⟩
    · rw [map_append, map_singleton]
      refine h.nodup.append (nodup_singleton _) ?_
      intro t ht htb
      obtain ⟨r, hr, rfl⟩ := List.mem_map.mp ht
      exact hseen r hr (mem_singleton.mp htb)
    · intro r hr
      rcases mem_append.mp hr with hr | hr
      · exact h.mem r hr
      · rwa [mem_singleton.mp hr]
    · intro r hr
      rcases mem_append.mp hr with hr | hr
      · exact h.kept r hr
      · rwa [mem_singleton.mp hr]

theorem deduplicated (bindings : List Binding) :
    Deduplicated (allInterfacePortIds bindings) bindings (deduplicateBindings bindings) := by
  unfold deduplicateBindings
  refine List.foldlRecOn bindings _ ⟨nodup_nil, nofun, nofun⟩ fun result h b hb => ?_
  exact deduplicateStep_keeps h hb

theorem mem_of_mem_deduplicateBindings (h : b ∈ deduplicateBindings bindings) :
    b ∈ bindings := (deduplicated bindings).mem b h

theorem subset_foldl_deduplicateStep (bindings result : List Binding) :
    result ⊆ bindings.foldl (deduplicateStep allPortIds) result := by
  induction bindings generalizing result with
  | nil => exact List.Subset.refl _
  | cons b bindings ih =>
    refine List.Subset.trans ?_ (ih _)
    unfold deduplicateStep
    split_ifs
    · exact List.Subset.refl _
    · exact List.Subset.refl _
    · exact subset_append_left _ _

theorem exists_mem_foldl_deduplicateStep (hb : b ∈ bindings)
    (hkept : isSuperseded allPortIds b = false) (result : List Binding) :
    ∃ r ∈ bindings.foldl (deduplicateStep allPortIds) result,
      r.base.bindingType = b.base.bindingType := by
  obtain ⟨before, after, rfl⟩ := append_of_mem hb
  rw [foldl_append, foldl_cons]
  suffices h : ∃ r ∈ deduplicateStep allPortIds (before.foldl (deduplicateStep allPortIds) result) b,
      r.base.bindingType = b.base.bindingType by
    obtain ⟨r, hr, htype⟩ := h
    exact ⟨r, subset_foldl_deduplicateStep _ _ hr, htype⟩
  rw [deduplicateStep, hkept, if_neg Bool.false_ne_true]
  split_ifs with hseen
  · obtain ⟨r, hr, htype⟩ := List.any_eq_true.mp hseen
    exact ⟨r, hr, of_decide_eq_true htype⟩
  · exact ⟨b, mem_append_right _ (mem_singleton_self b), rfl⟩

theorem exists_mem_deduplicateBindings (hb : b ∈ bindings) :
    ∃ r ∈ deduplicateBindings bindings, r.base.bindingType = b.base.bindingType ∨
      covers r.base.bindingType b.base.bindingType = true := by
  cases hsuperseded : isSuperseded (allInterfacePortIds bindings) b with
  | false =>
    obtain ⟨r, hr, htype⟩ := exists_mem_foldl_deduplicateStep hb hsuperseded []
    exact ⟨r, hr, .inl htype⟩
  | true =>
    unfold isSuperseded at hsuperseded
    split at hsuperseded
    next portId ip htype =>
      rw [contains_iff_mem, allInterfacePortIds, mem_filterMap] at hsuperseded
      obtain ⟨e, he, hport⟩ := hsuperseded
      split at hport
      next portId' htype' =>
        cases hport
        have hkept : isSuperseded (allInterfacePortIds bindings) e = false := by
          rw [isSuperseded, htype']
        obtain ⟨r, hr, hrtype⟩ := exists_mem_foldl_deduplicateStep he hkept []
        refine ⟨r, hr, .inr ?_⟩
        rw [hrtype, htype', htype]
        exact decide_eq_true rfl
      next => cases hport
    next => cases hsuperseded

theorem isSuperseded_of_covers {e : Binding} (he : e ∈ bindings)
    (h : covers e.base.bindingType b.base.bindingType = true) :
    isSuperseded (allInterfacePortIds bindings) b = true := by
  unfold isSuperseded
  rcases htb : b.base.bindingType with i | ⟨p, _ | i⟩ <;>
    rcases hte : e.base.bindingType with j | ⟨q, _ | j⟩ <;>
      simp only [htb, hte, covers, decide_eq_true_eq, Bool.false_eq_true] at h
  subst h
  rw [contains_iff_mem, allInterfacePortIds, mem_filterMap]
  exact ⟨e, he, by rw [hte]⟩

theorem pairwise_of_validateBindingsNoConflicts (h : validateBindingsNoConflicts bindings = none) :
    bindings.Pairwise fun a b => conflicts a.base.bindingType b.base.bindingType = false := by
  rw [pairwise_iff_getElem]
  intro i j hi hj hij
  rw [conflicts_comm]
  have hmem : (bindings[j], j) ∈ bindings.zipIdx := by
    rw [mem_zipIdx_iff_getElem?]
    exact getElem?_eq_getElem hj
  have hnone := findSome?_eq_none_iff.mp h _ hmem
  refine validateBindingNoConflict_eq_none.mp hnone bindings[i] ?_
  exact mem_take_iff_getElem.mpr ⟨i, lt_min hij hi, rfl⟩

theorem wellFormed_deduplicateBindings
    (h : validateBindingsNoConflicts (deduplicateBindings bindings) = none) :
    WellFormed (deduplicateBindings bindings) := by
  have hdedup := deduplicated bindings
  have huncovered : ∀ a ∈ deduplicateBindings bindings, ∀ b ∈ deduplicateBindings bindings,
      covers a.base.bindingType b.base.bindingType = false := by
    intro a ha b hb
    by_contra hcovers
    rw [Bool.not_eq_false] at hcovers
    have hsuperseded := isSuperseded_of_covers (hdedup.mem a ha) hcovers
    exact Bool.noConfusion ((hdedup.kept b hb).symm.trans hsuperseded)
  have hne := pairwise_map.mp hdedup.nodup
  rw [wellFormed_iff_pairwise]
  refine (hne.and (pairwise_of_validateBindingsNoConflicts h)).imp_of_mem ?_
  intro a b ha hb hab
  exact ⟨hab.1, huncovered a ha b hb, huncovered b hb a ha, hab.2⟩

theorem exists_covers_of_isSuperseded
    (h : isSuperseded (allInterfacePortIds bindings) b = true) :
    ∃ e ∈ bindings, covers e.base.bindingType b.base.bindingType = true := by
  unfold isSuperseded at h
  split at h
  next portId ip htype =>
    rw [contains_iff_mem, allInterfacePortIds, mem_filterMap] at h
    obtain ⟨e, he, hport⟩ := h
    split at hport
    next portId' htype' =>
      cases hport
      refine ⟨e, he, ?_⟩
      rw [htype', htype]
      exact decide_eq_true rfl
    next => cases hport
  next => cases h

theorem deduplicateBindings_eq_self (h : bindings.Pairwise BindingsCompatible) :
    deduplicateBindings bindings = bindings := by
  have hwell := wellFormed_iff_pairwise.mpr h
  suffices key : ∀ result rest, result ++ rest = bindings →
      rest.foldl (deduplicateStep (allInterfacePortIds bindings)) result = bindings from
    key [] bindings rfl
  intro result rest
  induction rest generalizing result with
  | nil => exact fun hsplit => (append_nil result).symm.trans hsplit
  | cons b rest ih =>
    intro hsplit
    have hb : b ∈ bindings := hsplit ▸ mem_append_right _ mem_cons_self
    have hsuperseded : ¬isSuperseded (allInterfacePortIds bindings) b = true := by
      intro hsuperseded
      obtain ⟨e, he, hcovers⟩ := exists_covers_of_isSuperseded hsuperseded
      have huncovered := isBindingCoveredByExisting_eq_false.mp (hwell.uncovered b hb) e he
      exact absurd hcovers (Bool.eq_false_iff.mp huncovered)
    have hseen : ¬(result.any fun r => r.base.bindingType = b.base.bindingType) = true := by
      rw [List.any_eq_true]
      rintro ⟨r, hr, htype⟩
      rw [← hsplit, pairwise_append] at h
      exact (h.2.2 r hr b mem_cons_self).ne (of_decide_eq_true htype)
    rw [foldl_cons, deduplicateStep, if_neg hsuperseded, if_neg hseen]
    refine ih _ ?_
    rw [append_assoc, singleton_append, hsplit]

theorem validateBindingsNoConflicts_eq_none (h : bindings.Pairwise BindingsCompatible) :
    validateBindingsNoConflicts bindings = none := by
  have hwell := wellFormed_iff_pairwise.mpr h
  unfold validateBindingsNoConflicts
  rw [findSome?_eq_none_iff]
  intro p hp
  refine validateBindingNoConflict_eq_none.mpr fun e he => ?_
  have hnone := hwell.noConflict p.1 (fst_mem_of_mem_zipIdx hp)
  exact validateBindingNoConflict_eq_none.mp hnone e (mem_of_mem_take he)

end Deduplicate

section Upsert
variable {existing new : List Binding} {b e : Binding} {t : BindingType}

theorem retainUndominated_sublist (t : BindingType) (existing : List Binding) :
    (retainUndominated t existing).Sublist existing := by
  rcases t with i | ⟨p, _ | i⟩
  · exact Sublist.refl existing
  · exact filter_sublist
  · exact Sublist.refl existing

theorem not_covers_of_mem_retainUndominated (h : e ∈ retainUndominated t existing) :
    covers t e.base.bindingType = false := by
  rcases t with i | ⟨p, _ | i⟩
  · rfl
  · obtain ⟨-, he⟩ := mem_filter.mp h
    revert he
    rcases e.base.bindingType with j | ⟨q, _ | j⟩
    · exact fun _ => rfl
    · exact fun _ => rfl
    · simp only [covers, isSome_some, Bool.true_and, Bool.not_eq_true', decide_eq_false_iff_not]
      exact fun hne => Ne.symm hne
  · rfl

theorem mem_upsertBinding (h : e ∈ upsertBinding existing b) : e ∈ existing ∨ e = b := by
  unfold upsertBinding at h
  dsimp only at h
  split_ifs at h
  · exact .inl h
  · exact .inl h
  · exact .inl ((retainUndominated_sublist _ existing).subset h)
  · rcases mem_append.mp h with h | h
    · exact .inl ((retainUndominated_sublist _ existing).subset h)
    · exact .inr (mem_singleton.mp h)

theorem WellFormed.upsertBinding (h : WellFormed existing) (b : Binding) :
    WellFormed (upsertBinding existing b) := by
  unfold Scanopy.upsertBinding
  dsimp only
  split_ifs with hcovered hconflict hseen
  · exact h
  · exact h
  all_goals
    have hpairwise := wellFormed_iff_pairwise.mp h
    have hretained := hpairwise.sublist (retainUndominated_sublist b.base.bindingType existing)
  · exact wellFormed_iff_pairwise.mpr hretained
  · rw [Bool.not_eq_true, isBindingCoveredByExisting_eq_false] at hcovered
    rw [Bool.not_eq_true, isSome_eq_false_iff, isNone_iff_eq_none,
      validateBindingNoConflict_eq_none] at hconflict
    simp only [List.any_eq_true, decide_eq_true_eq, not_exists, not_and] at hseen
    rw [wellFormed_iff_pairwise, pairwise_append]
    refine ⟨hretained, pairwise_singleton _ _, ?_⟩
    intro e he b' hb'
    obtain rfl := mem_singleton.mp hb'
    have hmem := (retainUndominated_sublist _ existing).subset he
    refine ⟨hseen e he, hcovered e hmem, not_covers_of_mem_retainUndominated he, ?_⟩
    rw [conflicts_comm]
    exact hconflict e hmem

theorem mem_upsertBindings (h : e ∈ upsertBindings existing new) : e ∈ existing ∨ e ∈ new := by
  unfold upsertBindings at h
  induction new generalizing existing with
  | nil => exact .inl h
  | cons b new ih =>
    rcases ih h with h | h
    · rcases mem_upsertBinding h with h | rfl
      · exact .inl h
      · exact .inr mem_cons_self
    · exact .inr (mem_cons_of_mem b h)

theorem WellFormed.upsertBindings (h : WellFormed existing) (new : List Binding) :
    WellFormed (upsertBindings existing new) :=
  List.foldlRecOn new _ h fun _ hresult b _ => hresult.upsertBinding b

end Upsert
end Scanopy
