import Mathlib.Data.List.Nodup
import Mathlib.Data.List.Pairwise
import Mathlib.Data.List.Perm.Basic

/-! Lookups in rows that come in no particular order. One that takes the first matching row has one
answer for all orders exactly when the matching rows agree on it. -/

namespace Lookup
open List Option
variable {R A : Type*}

theorem map_find?_eq_of_agree {p : R → Bool} {f : R → A} {l l' : List R} (hperm : l.Perm l')
    (h : ∀ r ∈ l, ∀ r' ∈ l, p r = true → p r' = true → f r = f r') :
    (l'.find? p).map f = (l.find? p).map f := by
  cases hl : l.find? p with
  | none =>
    have hnone : l'.find? p = none := by
      rw [find?_eq_none] at hl ⊢
      exact fun r hr => hl r (hperm.mem_iff.mpr hr)
    rw [hnone]
  | some r =>
    have hmem := mem_of_find?_eq_some hl
    have hp := find?_some hl
    have hsome : (l'.find? p).isSome = true := find?_isSome.mpr ⟨r, hperm.mem_iff.mp hmem, hp⟩
    obtain ⟨r', hr'⟩ := isSome_iff_exists.mp hsome
    have hmem' := hperm.mem_iff.mpr (mem_of_find?_eq_some hr')
    rw [hr', map_some, map_some, h r' hmem' r hmem (find?_some hr') hp]

theorem exists_perm_find? {p : R → Bool} {l : List R} {r : R} (hr : r ∈ l) (hp : p r = true) :
    ∃ l', l.Perm l' ∧ l'.find? p = some r := by
  obtain ⟨before, after, rfl⟩ := append_of_mem hr
  refine ⟨r :: (before ++ after), perm_middle, ?_⟩
  rw [find?_cons_of_pos hp]

theorem map_find?_perm_iff {p : R → Bool} {f : R → A} {l : List R} :
    (∀ l', l.Perm l' → (l'.find? p).map f = (l.find? p).map f) ↔
      ∀ r ∈ l, ∀ r' ∈ l, p r = true → p r' = true → f r = f r' := by
  constructor
  · intro h r hr r' hr' hp hp'
    obtain ⟨l₁, hperm₁, hfind₁⟩ := exists_perm_find? hr hp
    obtain ⟨l₂, hperm₂, hfind₂⟩ := exists_perm_find? hr' hp'
    have heq := (h l₁ hperm₁).trans (h l₂ hperm₂).symm
    rw [hfind₁, hfind₂] at heq
    exact some.inj heq
  · exact fun h l' hperm => map_find?_eq_of_agree hperm h

theorem find?_isNone_perm {p : R → Bool} {l l' : List R} (hperm : l.Perm l') :
    (l'.find? p).isNone = (l.find? p).isNone := by
  rw [Bool.eq_iff_iff, isNone_iff_eq_none, isNone_iff_eq_none,
    find?_eq_none, find?_eq_none]
  simp only [hperm.mem_iff]

def onlyMatch : List R → Option R
  | [r] => some r
  | _ => none

theorem onlyMatch_eq_some {l : List R} {r : R} : onlyMatch l = some r ↔ l = [r] := by
  match l with
  | [] => simp [onlyMatch]
  | [r'] => simp [onlyMatch]
  | r₁ :: r₂ :: l => simp [onlyMatch]

theorem onlyMatch_perm {l l' : List R} (hperm : l.Perm l') : onlyMatch l' = onlyMatch l := by
  refine Option.ext fun r => ?_
  show onlyMatch l' = some r ↔ onlyMatch l = some r
  rw [onlyMatch_eq_some, onlyMatch_eq_some]
  constructor
  · rintro rfl
    exact perm_singleton.mp hperm
  · rintro rfl
    exact perm_singleton.mp hperm.symm

section OrderIndependent
variable {S : Type*} (reorders : S → S → Prop)

/-- Whether `lookup` answers the same for every order of the rows of `s`. -/
def OrderIndependent (lookup : S → A) (s : S) : Prop :=
  ∀ s', reorders s s' → lookup s' = lookup s

variable {reorders}

theorem orderIndependent_comp {B : Type*} {g : A → B} (hg : Function.Injective g) (lookup : S → A)
    {s : S} : OrderIndependent reorders (fun s => g (lookup s)) s ↔
      OrderIndependent reorders lookup s :=
  forall₂_congr fun _ _ => hg.eq_iff

theorem orderIndependent_or (first second : S → Option A) {s : S}
    (hnone : ∀ s', reorders s s' → (first s').isNone = (first s).isNone) :
    OrderIndependent reorders (fun s => (first s).or (second s)) s ↔
      OrderIndependent reorders first s ∧
        (first s = none → OrderIndependent reorders second s) := by
  constructor
  · intro h
    refine ⟨fun s' hs' => ?_, fun hs s' hs' => ?_⟩
    · have heq : (first s').or (second s') = (first s).or (second s) := h s' hs'
      have hnone' := hnone s' hs'
      cases hs : first s with
      | none =>
        rw [hs] at hnone'
        exact isNone_iff_eq_none.mp hnone'
      | some a =>
        cases hfirst : first s' with
        | none =>
          rw [hs, hfirst] at hnone'
          exact absurd hnone'.symm Bool.false_ne_true
        | some b =>
          rw [hs, hfirst] at heq
          exact heq
    · have heq := h s' hs'
      have hs₁ : first s' = none := by
        rw [← isNone_iff_eq_none, hnone s' hs', hs]
        rfl
      simpa [hs, hs₁] using heq
  · rintro ⟨hfirst, hsecond⟩ s' hs'
    show (first s').or (second s') = (first s).or (second s)
    rw [hfirst s' hs']
    cases hs : first s with
    | none => exact hsecond hs s' hs'
    | some a => rfl

end OrderIndependent

section Map
variable {g : R → R}

theorem map_find?_map {p : R → Bool} {f : R → A} (hp : ∀ r, p (g r) = p r)
    (hf : ∀ r, f (g r) = f r) (l : List R) : ((l.map g).find? p).map f = (l.find? p).map f := by
  have hcomp : p ∘ g = p := funext hp
  have hcomp' : f ∘ g = f := funext hf
  rw [find?_map, hcomp, Option.map_map, hcomp']

theorem filter_map_of_eq {p : R → Bool} (hp : ∀ r, p (g r) = p r) (l : List R) :
    (l.map g).filter p = (l.filter p).map g := by
  have hcomp : p ∘ g = p := funext hp
  rw [List.filter_map, hcomp]

end Map

def firstOfTiers (tiers : List (R → Bool)) (f : R → A) (l : List R) : Option A :=
  tiers.findSome? fun p => (l.find? p).map f

def TiersAgree (tiers : List (R → Bool)) (f : R → A) (l : List R) : Prop :=
  ∀ p, tiers.find? (fun p => l.any p) = some p →
    ∀ r ∈ l, ∀ r' ∈ l, p r = true → p r' = true → f r = f r'

theorem firstOfTiers_cons (p : R → Bool) (tiers : List (R → Bool)) (f : R → A) (l : List R) :
    firstOfTiers (p :: tiers) f l = ((l.find? p).map f).or (firstOfTiers tiers f l) := by
  rw [firstOfTiers, findSome?_cons]
  cases (l.find? p).map f with
  | none => rfl
  | some a => rfl

theorem firstOfTiers_append (tiers tiers' : List (R → Bool)) (f : R → A) (l : List R) :
    firstOfTiers (tiers ++ tiers') f l =
      (firstOfTiers tiers f l).or (firstOfTiers tiers' f l) := findSome?_append

theorem firstOfTiers_map {g : R → R} {tiers : List (R → Bool)} {f : R → A}
    (htiers : ∀ p ∈ tiers, ∀ r, p (g r) = p r) (hf : ∀ r, f (g r) = f r) (l : List R) :
    firstOfTiers tiers f (l.map g) = firstOfTiers tiers f l := by
  induction tiers with
  | nil => rfl
  | cons p tiers ih =>
    rw [firstOfTiers_cons, firstOfTiers_cons, map_find?_map (htiers p mem_cons_self) hf,
      ih fun q hq => htiers q (mem_cons_of_mem p hq)]

theorem firstOfTiers_eq_some {tiers : List (R → Bool)} {f : R → A} {l : List R} {a : A}
    (h : firstOfTiers tiers f l = some a) : ∃ p ∈ tiers, ∃ r ∈ l, p r = true ∧ f r = a := by
  obtain ⟨p, hp, h⟩ := exists_of_findSome?_eq_some h
  obtain ⟨r, hr, hfr⟩ := map_eq_some_iff.mp h
  exact ⟨p, hp, r, mem_of_find?_eq_some hr, find?_some hr, hfr⟩

theorem tiersAgree_cons {p : R → Bool} {tiers : List (R → Bool)} {f : R → A} {l : List R} :
    TiersAgree (p :: tiers) f l ↔ (∀ r ∈ l, ∀ r' ∈ l, p r = true → p r' = true → f r = f r') ∧
        (l.find? p = none → TiersAgree tiers f l) := by
  by_cases hany : l.any p = true
  · have hfind : (p :: tiers).find? (fun p => l.any p) = some p := find?_cons_of_pos hany
    obtain ⟨r, hr, hp⟩ := List.any_eq_true.mp hany
    rw [TiersAgree, hfind]
    constructor
    · intro h
      refine ⟨h p rfl, fun hnone => ?_⟩
      exact absurd hp (find?_eq_none.mp hnone r hr)
    · rintro ⟨h, -⟩ q hq
      cases hq
      exact h
  · have hfind : (p :: tiers).find? (fun p => l.any p) = tiers.find? fun p => l.any p :=
      find?_cons_of_neg hany
    have hfalse : ∀ r ∈ l, ¬ p r = true := by
      intro r hr hp
      exact hany (List.any_eq_true.mpr ⟨r, hr, hp⟩)
    rw [TiersAgree, hfind]
    constructor
    · exact fun h => ⟨fun r hr r' hr' hp => absurd hp (hfalse r hr), fun _ => h⟩
    · exact fun h => h.2 (find?_eq_none.mpr hfalse)

theorem firstOfTiers_perm_iff {tiers : List (R → Bool)} {f : R → A} {l : List R} :
    (∀ l', l.Perm l' → firstOfTiers tiers f l' = firstOfTiers tiers f l) ↔
      TiersAgree tiers f l := by
  induction tiers with
  | nil => exact ⟨fun _ p hp => absurd hp (by simp), fun _ _ _ => rfl⟩
  | cons p tiers ih =>
    have hnone : ∀ l', l.Perm l' → ((l'.find? p).map f).isNone = ((l.find? p).map f).isNone := by
      intro l' hperm
      rw [isNone_map, isNone_map, find?_isNone_perm hperm]
    have hor := orderIndependent_or (fun l => (l.find? p).map f) (firstOfTiers tiers f) hnone
    simp only [OrderIndependent, ← firstOfTiers_cons, map_eq_none_iff] at hor
    rw [hor, map_find?_perm_iff, ih, tiersAgree_cons]

section ByKey
variable {K : Type*} [DecidableEq K] {key : R → K} {l : List R} {r : R} {k : K}

theorem mem_of_find?_key (h : (l.find? fun r => key r = k) = some r) : r ∈ l ∧ key r = k :=
  ⟨mem_of_find?_eq_some h, by simpa using find?_some h⟩

theorem find?_key_isSome : (l.find? fun r => key r = k).isSome ↔ ∃ r ∈ l, key r = k := by
  simp [find?_isSome]

theorem find?_key_eq_none : (l.find? fun r => key r = k) = none ↔ ∀ r ∈ l, key r ≠ k := by
  simp [find?_eq_none]

theorem find?_key_of_nodup (hnodup : (l.map key).Nodup) (hr : r ∈ l) :
    (l.find? fun r' => key r' = key r) = some r := by
  cases h : l.find? fun r' => key r' = key r with
  | none => exact absurd rfl (find?_key_eq_none.mp h r hr)
  | some r' =>
    obtain ⟨hr', hkey⟩ := mem_of_find?_key h
    rw [inj_on_of_nodup_map hnodup hr' hr hkey]

end ByKey

theorem eq_of_nodup_filterMap {f : R → Option A} {l : List R} (hnodup : (l.filterMap f).Nodup)
    {r r' : R} (hr : r ∈ l) (hr' : r' ∈ l) {a : A} (hra : f r = some a) (hra' : f r' = some a) :
    r = r' := by
  by_contra hne
  have hpair := pairwise_filterMap.mp hnodup
  have hsymm : Std.Symm fun r r' => ∀ b, f r = some b → ∀ b', f r' = some b' → b ≠ b' :=
    ⟨fun r r' h b hb b' hb' heq => h b' hb' b hb heq.symm⟩
  exact hpair.forall hr hr' hne a hra a hra' rfl

end Lookup
