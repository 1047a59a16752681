import Mathlib.Data.List.Sort

/-! Stable sorting of rows: what is left out of the rows is left out of the sorted rows, and the
others keep their places. -/

namespace Sorting
open List Nat
variable {R : Type*} {r : R → R → Prop} [DecidableRel r]

theorem mem_take_iff {α : Type*} [LinearOrder α] {l : List α} (hsorted : l.Pairwise (· < ·)) {a : α}
    {n : ℕ} : a ∈ l.take n ↔ a ∈ l ∧ (l.filter (· < a)).length < n := by
  induction l generalizing n with
  | nil => simp
  | cons b l ih =>
    obtain ⟨hhead, htail⟩ := pairwise_cons.mp hsorted
    cases n with
    | zero => simp
    | succ n =>
      rw [take_succ_cons, mem_cons, mem_cons, ih htail]
      by_cases hab : a = b
      · subst hab
        have hnone : (a :: l).filter (· < a) = [] := by
          refine filter_eq_nil_iff.mpr fun c hc => ?_
          rcases mem_cons.mp hc with rfl | hc
          · simp
          · simpa using (hhead c hc).le
        rw [hnone]
        exact iff_of_true (.inl rfl) ⟨.inl rfl, zero_lt_succ n⟩
      · rw [or_iff_right hab, or_iff_right hab]
        refine and_congr_right fun ha => ?_
        rw [filter_cons_of_pos (by simpa using hhead a ha), length_cons]
        exact succ_lt_succ_iff.symm

end Sorting
