import Mathlib.Data.List.Basic

/-! Steps that run one after another until one fails. What the steps before it have written stays. -/

namespace Commits
open List
variable {S E A : Type*}

/-- Runs `g` if `f` does not fail. -/
def andThen (f g : S → S × Option E) (s : S) : S × Option E :=
  match f s with
  | (s', none) => g s'
  | (s', some e) => (s', some e)

def each (step : A → S → S × Option E) : List A → S → S × Option E
  | [] => fun s => (s, none)
  | a :: as => andThen (step a) (each step as)

/-- The step writes nothing when it fails. -/
def Atomic (f : S → S × Option E) : Prop := ∀ s, (f s).2 ≠ none → (f s).1 = s

variable {f g : S → S × Option E} {step : A → S → S × Option E} {s : S} {a : A} {as : List A}

theorem andThen_of_ok (h : (f s).2 = none) : andThen f g s = g (f s).1 := by
  obtain ⟨s', hf⟩ : ∃ s', f s = (s', none) := ⟨(f s).1, Prod.ext rfl h⟩
  rw [andThen, hf]

theorem andThen_of_failed (h : (f s).2 ≠ none) : andThen f g s = f s := by
  obtain ⟨e, he⟩ := Option.ne_none_iff_exists'.mp h
  obtain ⟨s', hf⟩ : ∃ s', f s = (s', some e) := ⟨(f s).1, Prod.ext rfl he⟩
  rw [andThen, hf]

theorem snd_andThen : (andThen f g s).2 = none ↔ (f s).2 = none ∧ (g (f s).1).2 = none := by
  by_cases h : (f s).2 = none
  · rw [andThen_of_ok h, and_iff_right h]
  · rw [andThen_of_failed h]
    exact iff_of_false h fun hboth => h hboth.1

theorem invariant_of_andThen {P : S → Prop} (hf : ∀ s, P s → P (f s).1) (hg : ∀ s, P s → P (g s).1)
    (hs : P s) : P (andThen f g s).1 := by
  by_cases h : (f s).2 = none
  · rw [andThen_of_ok h]
    exact hg _ (hf s hs)
  · rw [andThen_of_failed h]
    exact hf s hs

theorem invariant_of_each {P : S → Prop} (hstep : ∀ a ∈ as, ∀ s, P s → P (step a s).1) (hs : P s) :
    P (each step as s).1 := by
  induction as generalizing s with
  | nil => exact hs
  | cons a as ih =>
    have hhead := hstep a mem_cons_self s hs
    rw [each]
    by_cases h : (step a s).2 = none
    · rw [andThen_of_ok h]
      exact ih (fun a ha => hstep a (mem_cons_of_mem _ ha)) hhead
    · rwa [andThen_of_failed h]

theorem forall_split_cons {Q : List A → A → Prop} :
    (∀ before b after, a :: as = before ++ b :: after → Q before b) ↔
      Q [] a ∧ ∀ before b after, as = before ++ b :: after → Q (a :: before) b := by
  constructor
  · intro h
    refine ⟨h [] a as rfl, fun before b after has => h (a :: before) b after ?_⟩
    rw [has, cons_append]
  · rintro ⟨hhead, htail⟩ (_ | ⟨c, before⟩) b after h
    · obtain ⟨rfl, rfl⟩ := cons.inj h
      exact hhead
    · obtain ⟨rfl, has⟩ := cons.inj h
      exact htail before b after has

theorem forall_split_map {B : Type*} {bs : List B} {f : B → A} {Q : List A → A → Prop} :
    (∀ before a after, bs.map f = before ++ a :: after → Q before a) ↔
      ∀ before b after, bs = before ++ b :: after → Q (before.map f) (f b) := by
  constructor
  · intro h before b after hbs
    refine h (before.map f) (f b) (after.map f) ?_
    rw [hbs, map_append, map_cons]
  · intro h before a after hmap
    obtain ⟨before, rest, rfl, rfl, hrest⟩ := map_eq_append_iff.mp hmap
    obtain ⟨b, after, rfl, rfl, -⟩ := map_eq_cons_iff.mp hrest
    exact h before b after rfl

/-- The rule for a run that is to go through: `P` holds after the steps that were taken, and under it
`Q` tells whether the next one goes through. -/
theorem each_ok_iff {P : List A → S → Prop} {Q : List A → A → Prop}
    (hstep : ∀ before a after, as = before ++ a :: after → ∀ s, P before s →
      ((step a s).2 = none ↔ Q before a) ∧
        ((step a s).2 = none → P (before ++ [a]) (step a s).1)) (hs : P [] s) :
    ((each step as s).2 = none ↔ ∀ before a after, as = before ++ a :: after → Q before a) ∧
      ((each step as s).2 = none → P as (each step as s).1) := by
  induction as generalizing s P Q with
  | nil =>
    refine ⟨iff_of_true rfl fun before a after h => ?_, fun _ => hs⟩
    exact absurd h.symm (append_ne_nil_of_right_ne_nil before (cons_ne_nil a after))
  | cons a as ih =>
    obtain ⟨hiff, hkeep⟩ := hstep [] a as rfl s hs
    have hrest : (step a s).2 = none → _ := fun hok =>
      ih (P := fun before => P (a :: before)) (Q := fun before => Q (a :: before))
        (fun before b after has => hstep (a :: before) b after (by rw [has, cons_append]))
        (hkeep hok)
    rw [each, snd_andThen, forall_split_cons, ← hiff]
    refine ⟨and_congr_right fun hok => (hrest hok).1, fun ⟨hok, htail⟩ => ?_⟩
    rw [andThen_of_ok hok]
    exact (hrest hok).2 htail
theorem each_eq_self_iff (size : S → ℕ) (hatomic : ∀ a ∈ as, Atomic (step a))
    (hsize : ∀ a ∈ as, ∀ s, (step a s).2 = none → size s < size (step a s).1)
    (hfailed : (each step as s).2 ≠ none) :
    (each step as s).1 = s ↔ ∃ a ∈ as.head?, (step a s).2 ≠ none := by
  cases as with
  | nil => exact absurd rfl hfailed
  | cons a as =>
    have hhead : (∃ a' ∈ (a :: as).head?, (step a' s).2 ≠ none) ↔ (step a s).2 ≠ none := by simp
    rw [hhead, each]
    by_cases h : (step a s).2 = none
    · rw [andThen_of_ok h]
      refine iff_of_false (fun hsame => ?_) (not_not_intro h)
      have hgrows : size s < size (each step as (step a s).1).1 := by
        refine invariant_of_each (P := fun s' => size s < size s') (fun a ha s' hlt => ?_)
          (hsize a mem_cons_self s h)
        by_cases hok : (step a s').2 = none
        · exact Nat.lt_trans hlt (hsize a (mem_cons_of_mem _ ha) s' hok)
        · rwa [hatomic a (mem_cons_of_mem _ ha) s' hok]
      rw [hsame] at hgrows
      exact absurd hgrows (Nat.lt_irrefl _)
    · rw [andThen_of_failed h]
      exact iff_of_true (hatomic a mem_cons_self s h) h

end Commits
