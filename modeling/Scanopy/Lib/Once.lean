import Mathlib.Data.List.Basic

/-! A loop that goes on with the first element of every key. An element may have no key, and then
nothing is noted about it; the first element with a key may still give no result. -/

namespace Once
open List Option
variable {A K B : Type*} [DecidableEq K]

def onceBy (f : A → Option (K × Option B)) : List K → List A → List B
  | _, [] => []
  | seen, a :: l =>
    match f a with
    | none => onceBy f seen l
    | some (k, out) => if k ∈ seen then onceBy f seen l else out.toList ++ onceBy f (k :: seen) l

variable {f f' : A → Option (K × Option B)} {seen : List K} {l : List A} {b : B}

theorem exists_of_mem_onceBy (h : b ∈ onceBy f seen l) :
    ∃ a ∈ l, ∃ k, k ∉ seen ∧ f a = some (k, some b) := by
  induction l generalizing seen with
  | nil => exact absurd h not_mem_nil
  | cons a l ih =>
    rw [onceBy] at h
    split at h
    · obtain ⟨a', ha', hf⟩ := ih h
      exact ⟨a', mem_cons_of_mem _ ha', hf⟩
    · rename_i k out hfa
      split at h
      · obtain ⟨a', ha', hf⟩ := ih h
        exact ⟨a', mem_cons_of_mem _ ha', hf⟩
      · rename_i hk
        obtain hb | hb := mem_append.mp h
        · refine ⟨a, mem_cons_self, k, hk, ?_⟩
          rw [hfa, mem_toList.mp hb]
        · obtain ⟨a', ha', k', hk', hf⟩ := ih hb
          exact ⟨a', mem_cons_of_mem _ ha', k', fun hmem => hk' (mem_cons_of_mem _ hmem), hf⟩

theorem exists_first {a : A} {k : K} {out : Option B} (ha : a ∈ l) (hfa : f a = some (k, out))
    (hk : k ∉ seen) :
    ∃ a' ∈ l, ∃ out', f a' = some (k, out') ∧ ∀ b ∈ out', b ∈ onceBy f seen l := by
  induction l generalizing seen with
  | nil => exact absurd ha not_mem_nil
  | cons a₀ l ih =>
    rw [onceBy]
    cases hf₀ : f a₀ with
    | none =>
      obtain rfl | ha := mem_cons.mp ha
      · exact nomatch hf₀.symm.trans hfa
      · obtain ⟨a', ha', hfirst⟩ := ih ha hk
        exact ⟨a', mem_cons_of_mem _ ha', hfirst⟩
    | some e =>
      obtain ⟨k₀, out₀⟩ := e
      by_cases hk₀ : k₀ = k
      · subst hk₀
        refine ⟨a₀, mem_cons_self, out₀, hf₀, fun b hb => ?_⟩
        simp only [hk, if_false]
        exact mem_append_left _ (mem_toList.mpr hb)
      · have ha : a ∈ l := by
          obtain rfl | ha := mem_cons.mp ha
          · exact absurd (Prod.mk.inj (some.inj (hf₀.symm.trans hfa))).1 hk₀
          · exact ha
        dsimp only
        split
        · obtain ⟨a', ha', hfirst⟩ := ih ha hk
          exact ⟨a', mem_cons_of_mem _ ha', hfirst⟩
        · have hk' : k ∉ k₀ :: seen := by simp [hk, Ne.symm hk₀]
          obtain ⟨a', ha', out', hfa', hout'⟩ := ih ha hk'
          exact ⟨a', mem_cons_of_mem _ ha', out', hfa',
            fun b hb => mem_append_right _ (hout' b hb)⟩

theorem exists_mem_onceBy {P : B → Prop} (hagree : ∀ a ∈ l, ∀ a' ∈ l, ∀ k out out',
      f a = some (k, out) → f a' = some (k, out') → (∃ b ∈ out, P b) → ∃ b ∈ out', P b)
    {a : A} {k : K} {out : Option B} (ha : a ∈ l) (hfa : f a = some (k, out)) (hk : k ∉ seen)
    (hout : ∃ b ∈ out, P b) : ∃ b ∈ onceBy f seen l, P b := by
  obtain ⟨a', ha', out', hfa', hmem⟩ := exists_first ha hfa hk
  obtain ⟨b, hb, hPb⟩ := hagree a ha a' ha' k out out' hfa hfa' hout
  exact ⟨b, hmem b hb, hPb⟩

theorem pairwise_onceBy {R : B → B → Prop} (h : ∀ a ∈ l, ∀ a' ∈ l, ∀ k k' b b',
    f a = some (k, some b) → f a' = some (k', some b') → k ≠ k' → R b b') :
    (onceBy f seen l).Pairwise R := by
  induction l generalizing seen with
  | nil => exact .nil
  | cons a l ih =>
    have ih : ∀ seen, (onceBy f seen l).Pairwise R := fun _ => ih fun a ha a' ha' =>
      h a (mem_cons_of_mem _ ha) a' (mem_cons_of_mem _ ha')
    rw [onceBy]
    cases hfa : f a with
    | none => exact ih seen
    | some e =>
      obtain ⟨k, out⟩ := e
      dsimp only
      split_ifs
      · exact ih seen
      · refine pairwise_append.mpr ⟨?_, ih _, fun b hb b' hb' => ?_⟩
        · cases out <;> simp
        · obtain ⟨a', ha', k', hk', hfa'⟩ := exists_of_mem_onceBy hb'
          rw [mem_toList.mp hb] at hfa
          exact h a mem_cons_self a' (mem_cons_of_mem _ ha') k k' b b' hfa hfa'
            fun heq => hk' (heq ▸ mem_cons_self)

theorem onceBy_congr (h : ∀ a ∈ l, f a = f' a) : onceBy f seen l = onceBy f' seen l := by
  induction l generalizing seen with
  | nil => rfl
  | cons a l ih =>
    have ih : ∀ seen, onceBy f seen l = onceBy f' seen l :=
      fun _ => ih fun a ha => h a (mem_cons_of_mem _ ha)
    simp only [onceBy, h a mem_cons_self, ih]

omit [DecidableEq K] in
theorem nodup_eraseDups [DecidableEq A] : ∀ l : List A, l.eraseDups.Nodup
  | [] => List.nodup_nil
  | a :: l => by
    rw [List.eraseDups_cons, List.nodup_cons]
    refine ⟨fun h => ?_, nodup_eraseDups _⟩
    have h := (mem_filter.mp (mem_eraseDups.mp h)).2
    simp at h
  termination_by l => l.length
  decreasing_by
    have := length_filter_le (fun b => !b == a) l
    simp only [length_cons]
    omega

omit [DecidableEq K] in
theorem eraseDups_of_nodup [DecidableEq A] {l : List A} (h : l.Nodup) : l.eraseDups = l := by
  induction l with
  | nil => rfl
  | cons a l ih =>
    obtain ⟨hnot, hnodup⟩ := nodup_cons.mp h
    have hkeep : l.filter (fun b => !b == a) = l := by
      refine filter_eq_self.mpr fun b hb => ?_
      have hne : b ≠ a := fun heq => hnot (heq ▸ hb)
      simp [hne]
    rw [eraseDups_cons, hkeep, ih hnodup]

end Once
