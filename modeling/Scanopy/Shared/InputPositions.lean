import Scanopy.Lib.Lookup
import Scanopy.Shared.Positions

/-! The positions that the inputs of a request get. Given positions are checked; where none is
given, inputs of stored items keep theirs and the others come after them, unchecked. -/

namespace Scanopy

open List Nat

def ValidOrder (inputs : List (Uuid × Option ℤ)) (positions : List ℤ) : Prop :=
  positions.Nodup ∧ positions.Perm (listPositions inputs.length)

def storedPosition (existing : List (Uuid × ℤ)) (id : Uuid) : Option ℤ :=
  (existing.reverse.find? (·.1 = id)).map (·.2)

def SendsItemsOnce (inputs : List (Uuid × Option ℤ)) (existing : List (Uuid × ℤ)) : Prop :=
  ((inputs.map Prod.fst).filter fun id => (storedPosition existing id).isSome).Nodup ∧
    ∀ item ∈ existing, item.2 < inputs.length →
      ∃ input ∈ inputs, storedPosition existing input.1 = some item.2

variable {inputs : List (Uuid × Option ℤ)} {existing : List (Uuid × ℤ)} {positions : List ℤ}

theorem perm_of_validateSequentialPositions (h : validateSequentialPositions positions = .ok ()) :
    positions.Perm (listPositions positions.length) := by
  unfold validateSequentialPositions at h
  dsimp only at h
  split at h
  · cases h
  · split at h
    · cases h
    next hfind =>
      rw [find?_eq_none] at hfind
      have hsorted : positions.mergeSort (· ≤ ·) = listPositions positions.length := by
        have hnumbers := zipIdx_map_snd 0 (positions.mergeSort (· ≤ ·))
        rw [length_mergeSort] at hnumbers
        rw [listPositions, range_eq_range', ← hnumbers, map_map]
        nth_rewrite 1 [← zipIdx_map_fst 0 (positions.mergeSort (· ≤ ·))]
        refine map_congr_left fun x hx => ?_
        simpa using hfind x hx
      rw [← hsorted]
      exact (mergeSort_perm positions _).symm

theorem firstDuplicate_eq_none (h : positions.Pairwise (· ≠ ·)) : firstDuplicate positions = none := by
  induction positions with
  | nil => rfl
  | cons p positions ih =>
    obtain ⟨hhead, htail⟩ := pairwise_cons.mp h
    cases positions with
    | nil => rfl
    | cons q positions =>
      rw [firstDuplicate, if_neg (hhead q mem_cons_self)]
      exact ih htail

theorem validateSequentialPositions_iff : validateSequentialPositions positions = .ok () ↔
    positions.Perm (listPositions positions.length) := by
  refine ⟨perm_of_validateSequentialPositions, fun hperm => ?_⟩
  have hsorted : positions.mergeSort (· ≤ ·) = listPositions positions.length := by
    have hmerged : (positions.mergeSort (· ≤ ·)).Pairwise (· ≤ ·) :=
      pairwise_mergeSort' (· ≤ ·) positions
    refine ((mergeSort_perm positions _).trans hperm).eq_of_pairwise' hmerged ?_
    refine pairwise_map.mpr (pairwise_lt_range.imp fun h => ?_)
    exact Int.ofNat_le.mpr h.le
  unfold validateSequentialPositions
  dsimp only
  rw [hsorted, firstDuplicate_eq_none (nodup_listPositions _)]
  dsimp only
  split
  next actual expected hfind =>
    obtain ⟨-, -, hactual⟩ := mem_zipIdx (mem_of_find?_eq_some hfind)
    have hne := find?_some hfind
    rw [hactual] at hne
    simp [listPositions] at hne
  next => rfl

theorem assignPositions_perm (existing : List (Uuid × ℤ)) (next : ℤ) (ids : List Uuid) :
    (assignPositions existing next ids).Perm
      (ids.filterMap (storedPosition existing) ++
        (List.range (ids.length - (ids.filterMap (storedPosition existing)).length)).map
          fun n : ℕ => next + n) := by
  induction ids generalizing next with
  | nil => exact Perm.refl _
  | cons id ids ih =>
    have hle := length_filterMap_le (storedPosition existing) ids
    rw [assignPositions]
    cases hfind : existing.reverse.find? (·.1 = id) with
    | some item =>
      have hstored : storedPosition existing id = some item.2 := by
        rw [storedPosition, hfind]
        rfl
      -- a stored item uses up none of the new positions
      rw [filterMap_cons_some hstored, length_cons, length_cons, Nat.add_sub_add_right]
      exact (ih next).cons item.2
    | none =>
      have hstored : storedPosition existing id = none := by
        rw [storedPosition, hfind]
        rfl
      rw [filterMap_cons_none hstored, length_cons, succ_sub hle,
        range_succ_eq_map, map_cons, map_map]
      have hnext : (fun n : ℕ => next + (n : ℤ)) ∘ Nat.succ = fun n : ℕ => next + 1 + (n : ℤ) := by
        funext n
        show next + ((n + 1 : ℕ) : ℤ) = next + 1 + n
        omega
      rw [hnext, cast_zero, add_zero]
      exact ((ih (next + 1)).cons next).trans perm_middle.symm

theorem perm_listPositions_iff {l : List ℤ} {m : ℕ} (hl : ∀ p ∈ l, 0 ≤ p ∧ p < m) (j : ℕ) :
    (l ++ (List.range j).map fun n : ℕ => (m : ℤ) + n).Perm (listPositions (l.length + j)) ↔
      l.Nodup ∧ ∀ p : ℤ, 0 ≤ p → p < m → p < (l.length + j : ℕ) → p ∈ l := by
  constructor
  · intro h
    have hnodup := h.nodup_iff.mpr (nodup_listPositions _)
    refine ⟨hnodup.of_append_left, fun p hp hm hlen => ?_⟩
    have hmem := h.mem_iff.mpr (mem_listPositions.mpr ⟨hp, hlen⟩)
    rcases mem_append.mp hmem with hmem | hmem
    · exact hmem
    · obtain ⟨n, -, rfl⟩ := mem_map.mp hmem
      omega
  · rintro ⟨hnodup, hfilled⟩
    -- `l` has no more members than there are positions below `m`, and all below both bounds
    have habove : l.length ≤ m := by
      have hsub : l ⊆ listPositions m := fun p hp => mem_listPositions.mpr (hl p hp)
      have hle := (hnodup.subperm hsub).length_le
      rwa [length_listPositions] at hle
    have hbelow : listPositions (min m (l.length + j)) ⊆ l := by
      intro p hp
      obtain ⟨hp, hlt⟩ := mem_listPositions.mp hp
      exact hfilled p hp (by omega) (by omega)
    have hsub := (nodup_listPositions (min m (l.length + j))).subperm hbelow
    have hle := hsub.length_le
    rw [length_listPositions] at hle
    have hperm : l.Perm (listPositions l.length) := by
      have hmin : min m (l.length + j) = l.length := by omega
      rw [hmin] at hsub
      exact (hsub.perm_of_length_le (by rw [length_listPositions])).symm
    obtain rfl | hj := Nat.eq_zero_or_pos j
    · simpa using hperm
    · -- the new positions follow on the stored ones without a gap
      have hm : m = l.length := by omega
      subst hm
      have hadd : listPositions (l.length + j) = listPositions l.length ++
          (List.range j).map fun n : ℕ => (l.length : ℤ) + n := by
        rw [listPositions, range_add, map_append, map_map]
        refine congrArg (listPositions l.length ++ ·) (map_congr_left fun n _ => ?_)
        exact cast_add l.length n
      rw [hadd]
      exact hperm.append_right _

theorem mem_of_storedPosition {id : Uuid} {p : ℤ} (h : storedPosition existing id = some p) :
    (id, p) ∈ existing := by
  obtain ⟨item, hfind, rfl⟩ := Option.map_eq_some_iff.mp h
  obtain ⟨hmem, rfl⟩ := Lookup.mem_of_find?_key hfind
  exact mem_reverse.mp hmem

theorem nodup_storedPositions_iff
    (hplace : (existing.map Prod.snd).Perm (listPositions existing.length)) (ids : List Uuid) :
    (ids.filterMap (storedPosition existing)).Nodup ↔
      (ids.filter fun id => (storedPosition existing id).isSome).Nodup := by
  have hnodup := hplace.nodup_iff.mpr (nodup_listPositions _)
  unfold List.Nodup
  rw [pairwise_filterMap, pairwise_filter]
  refine List.Pairwise.iff fun {id id'} => ?_
  constructor
  · rintro h hid - rfl
    obtain ⟨p, hp⟩ := Option.isSome_iff_exists.mp hid
    exact h p hp p hp rfl
  · rintro h p hp p' hp' rfl
    have hitem := inj_on_of_nodup_map hnodup (mem_of_storedPosition hp)
      (mem_of_storedPosition hp') rfl
    exact h (Option.isSome_of_eq_some hp) (Option.isSome_of_eq_some hp')
      (congrArg Prod.fst hitem)

theorem resolveAndValidateInputPositions_of_omitted (h : ∀ input ∈ inputs, input.2 = none) :
    resolveAndValidateInputPositions inputs existing =
      .ok (assignPositions existing existing.length (inputs.map Prod.fst)) := by
  have hspecified : inputs.filterMap Prod.snd = [] := filterMap_eq_nil_iff.mpr h
  unfold resolveAndValidateInputPositions
  dsimp only
  rw [hspecified, length_nil, if_neg fun hmixed => Nat.lt_irrefl 0 hmixed.1]
  cases inputs with
  | nil =>
    have hvalid : validateSequentialPositions [] = .ok () := by
      simp [validateSequentialPositions, firstDuplicate]
    rw [if_pos length_nil.symm, hvalid]
    rfl
  | cons input inputs => rfl

theorem perm_of_given (hgiven : ¬ ∀ input ∈ inputs, input.2 = none)
    (h : resolveAndValidateInputPositions inputs existing = .ok positions) :
    positions = inputs.filterMap Prod.snd ∧
      (inputs.filterMap Prod.snd).Perm (listPositions inputs.length) := by
  have hspecified : inputs.filterMap Prod.snd ≠ [] := fun hnil =>
    hgiven (filterMap_eq_nil_iff.mp hnil)
  have hpos := length_pos_iff.mpr hspecified
  have hle := length_filterMap_le Prod.snd inputs
  unfold resolveAndValidateInputPositions at h
  dsimp only at h
  split_ifs at h with hmixed hall
  · cases hvalid : validateSequentialPositions (inputs.filterMap Prod.snd) with
    | error e =>
      rw [hvalid] at h
      cases h
    | ok =>
      rw [hvalid] at h
      cases h
      have hperm := perm_of_validateSequentialPositions hvalid
      rw [hall] at hperm
      exact ⟨rfl, hperm⟩
  · omega

theorem validOrder_of_given (hgiven : ¬ ∀ input ∈ inputs, input.2 = none)
    (h : resolveAndValidateInputPositions inputs existing = .ok positions) :
    ValidOrder inputs positions := by
  obtain ⟨rfl, hperm⟩ := perm_of_given hgiven h
  exact ⟨hperm.nodup_iff.mpr (nodup_listPositions _), hperm⟩

theorem length_resolveAndValidateInputPositions
    (h : resolveAndValidateInputPositions inputs existing = .ok positions) :
    positions.length = inputs.length := by
  by_cases hall : ∀ input ∈ inputs, input.2 = none
  · rw [resolveAndValidateInputPositions_of_omitted hall] at h
    cases h
    have hle := length_filterMap_le (storedPosition existing) (inputs.map Prod.fst)
    rw [(assignPositions_perm existing existing.length (inputs.map Prod.fst)).length_eq,
      length_append, length_map, length_range, Nat.add_sub_cancel' hle,
      length_map]
  · obtain ⟨rfl, hperm⟩ := perm_of_given hall h
    rw [hperm.length_eq, length_listPositions]

theorem exists_resolveAndValidateInputPositions_iff :
    (∃ positions, resolveAndValidateInputPositions inputs existing = .ok positions) ↔
      (∀ input ∈ inputs, input.2 = none) ∨
        (inputs.filterMap Prod.snd).Perm (listPositions inputs.length) := by
  by_cases hall : ∀ input ∈ inputs, input.2 = none
  · exact iff_of_true ⟨_, resolveAndValidateInputPositions_of_omitted hall⟩ (.inl hall)
  · rw [or_iff_right hall]
    refine ⟨fun ⟨positions, h⟩ => (perm_of_given hall h).2, fun hperm => ?_⟩
    have hsame : (inputs.filterMap Prod.snd).length = inputs.length := by
      rw [hperm.length_eq, length_listPositions]
    have hvalid := validateSequentialPositions_iff.mpr (hsame.symm ▸ hperm)
    refine ⟨inputs.filterMap Prod.snd, ?_⟩
    unfold resolveAndValidateInputPositions
    dsimp only
    rw [if_neg fun hmixed => absurd hsame hmixed.2.ne, if_pos hsame, hvalid]
    rfl
theorem validOrder_assignPositions_iff
    (hplace : (existing.map Prod.snd).Perm (listPositions existing.length)) :
    ValidOrder inputs (assignPositions existing existing.length (inputs.map Prod.fst)) ↔
      SendsItemsOnce inputs existing := by
  have hle := length_filterMap_le (storedPosition existing) (inputs.map Prod.fst)
  have hperm := assignPositions_perm existing existing.length (inputs.map Prod.fst)
  have hstored : ∀ p ∈ (inputs.map Prod.fst).filterMap (storedPosition existing),
      0 ≤ p ∧ p < existing.length := by
    intro p hp
    obtain ⟨id, -, hid⟩ := mem_filterMap.mp hp
    exact mem_listPositions.mp (hplace.mem_iff.mp
      (mem_map_of_mem (f := Prod.snd) (mem_of_storedPosition hid)))
  have hiff := perm_listPositions_iff hstored ((inputs.map Prod.fst).length -
    ((inputs.map Prod.fst).filterMap (storedPosition existing)).length)
  rw [Nat.add_sub_cancel' hle, length_map] at hiff
  rw [ValidOrder, and_iff_right_of_imp fun h => h.nodup_iff.mpr (nodup_listPositions _)]
  rw [length_map] at hperm
  rw [hperm.congr_left, hiff, nodup_storedPositions_iff hplace]
  refine and_congr_right fun _ => ?_
  constructor
  · intro h item hitem hlt
    have hmem := mem_listPositions.mp (hplace.mem_iff.mp (mem_map_of_mem hitem))
    obtain ⟨id, hid, hp⟩ := mem_filterMap.mp (h item.2 hmem.1 hmem.2 hlt)
    obtain ⟨input, hinput, rfl⟩ := mem_map.mp hid
    exact ⟨input, hinput, hp⟩
  · intro h p hp hm hlt
    have hmem := hplace.mem_iff.mpr (mem_listPositions.mpr ⟨hp, hm⟩)
    obtain ⟨item, hitem, rfl⟩ := mem_map.mp hmem
    obtain ⟨input, hinput, hstoredItem⟩ := h item hitem hlt
    exact mem_filterMap.mpr ⟨input.1, mem_map_of_mem hinput, hstoredItem⟩

/-- When the positions that a request ends with are those of a list. -/
theorem resolveAndValidateInputPositions_valid_iff
    (hplace : (existing.map Prod.snd).Perm (listPositions existing.length)) :
    (∀ positions, resolveAndValidateInputPositions inputs existing = .ok positions →
      ValidOrder inputs positions) ↔
      ((∀ input ∈ inputs, input.2 = none) → SendsItemsOnce inputs existing) := by
  by_cases hall : ∀ input ∈ inputs, input.2 = none
  · rw [resolveAndValidateInputPositions_of_omitted hall, imp_iff_right hall,
      ← validOrder_assignPositions_iff hplace]
    constructor
    · exact fun h => h _ rfl
    · rintro h positions ⟨⟩
      exact h
  · exact iff_of_true (fun _ h => validOrder_of_given hall h) fun h => absurd h hall

theorem resolveAndValidateInputPositions_kept :
    resolveAndValidateInputPositions [(1, none), (3, none)] [(1, 0)] = .ok [0, 1] ∧
      ValidOrder [(1, none), (3, none)] [0, 1] := by
  have hsends : SendsItemsOnce [(1, none), (3, none)] [(1, 0)] := by
    unfold SendsItemsOnce
    decide
  exact ⟨rfl, (resolveAndValidateInputPositions_valid_iff (by decide)).mpr (fun _ => hsends) _ rfl⟩

/-- An item that is left out leaves its place empty. -/
theorem not_validOrder_of_dropped :
    ¬ ∀ (inputs : List (Uuid × Option ℤ)) (existing : List (Uuid × ℤ)) (positions : List ℤ),
      (existing.map Prod.snd).Perm (listPositions existing.length) →
      resolveAndValidateInputPositions inputs existing = .ok positions →
      ValidOrder inputs positions := by
  intro h
  have hvalid := h [(2, none)] [(1, 0), (2, 1)] [1] (by decide) rfl
  exact absurd hvalid.2 (by decide)

end Scanopy
