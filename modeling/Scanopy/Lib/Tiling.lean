import Mathlib.Data.Set.Pairwise.Basic
import Mathlib.Order.CompletePartialOrder
import Mathlib.Order.Interval.Set.Disjoint

/-! Families of half-open intervals that follow each other without a gap. Intervals may be empty,
so a point can be the end of several of them. -/

/-- The intervals `[lo i, hi i)` with `i` in `I` are disjoint and cover `[a, b)`. -/
structure Tiles {ι T : Type*} [LinearOrder T] (I : Set ι) (lo hi : ι → T) (a b : T) : Prop where
  lower : ∀ i ∈ I, a ≤ lo i
  upper : ∀ i ∈ I, hi i ≤ b
  disjoint : I.PairwiseDisjoint fun i => Set.Ico (lo i) (hi i)
  covers : Set.Ico a b ⊆ ⋃ i ∈ I, Set.Ico (lo i) (hi i)

namespace Tiles
variable {ι T : Type*} [LinearOrder T] {I : Set ι} {lo hi : ι → T} {a b c : T}

theorem empty (lo hi : ι → T) (a : T) : Tiles ∅ lo hi a a where
  lower := fun _ hi => hi.elim
  upper := fun _ hi => hi.elim
  disjoint := Set.pairwiseDisjoint_empty
  covers := by
    rw [Set.Ico_self]
    exact Set.empty_subset _

theorem insert {i : ι} (h : Tiles I lo hi a b) (hab : a ≤ b) (hlo : lo i = b) (hhi : hi i = c)
    (hbc : b ≤ c) : Tiles (Insert.insert i I) lo hi a c := by
  refine ⟨?_, ?_, ?_, ?_⟩
  · rintro j (rfl | hj)
    · rw [hlo]
      exact hab
    · exact h.lower j hj
  · rintro j (rfl | hj)
    · exact hhi.le
    · exact (h.upper j hj).trans hbc
  · refine (Set.pairwiseDisjoint_insert).mpr ⟨h.disjoint, fun j hj _ => ?_⟩
    rw [hlo]
    -- the others end before this one starts
    exact (Set.Ico_disjoint_Ico_same (a := lo j) (b := b) (c := hi i)).symm.mono_right
      (Set.Ico_subset_Ico_right (h.upper j hj))
  · intro x hx
    by_cases hxb : x < b
    · have hold := h.covers ⟨hx.1, hxb⟩
      simp only [Set.mem_iUnion] at hold ⊢
      obtain ⟨j, hj, hxj⟩ := hold
      exact ⟨j, Set.mem_insert_of_mem i hj, hxj⟩
    · simp only [Set.mem_iUnion]
      refine ⟨i, Set.mem_insert i I, ?_⟩
      rw [hlo, hhi]
      exact ⟨not_lt.mp hxb, hx.2⟩

theorem image {f : ι → ι} (h : Tiles I lo hi a b) (hlo : ∀ i, lo (f i) = lo i)
    (hhi : ∀ i, hi (f i) = hi i) : Tiles (Set.image f I) lo hi a b := by
  refine ⟨?_, ?_, ?_, ?_⟩
  · rintro _ ⟨i, hmem, rfl⟩
    rw [hlo]
    exact h.lower i hmem
  · rintro _ ⟨i, hmem, rfl⟩
    rw [hhi]
    exact h.upper i hmem
  · rintro _ ⟨i, hmem, rfl⟩ _ ⟨j, hmem', rfl⟩ hne
    show Disjoint (Set.Ico (lo (f i)) (hi (f i))) (Set.Ico (lo (f j)) (hi (f j)))
    rw [hlo, hhi, hlo, hhi]
    exact h.disjoint hmem hmem' (ne_of_apply_ne f hne)
  · intro x hx
    have hold := h.covers hx
    simp only [Set.mem_iUnion] at hold ⊢
    obtain ⟨i, hmem, hxi⟩ := hold
    refine ⟨f i, Set.mem_image_of_mem f hmem, ?_⟩
    rw [hlo, hhi]
    exact hxi

end Tiles
