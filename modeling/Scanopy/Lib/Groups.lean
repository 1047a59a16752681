import Mathlib.Algebra.BigOperators.Group.Finset.Piecewise
import Mathlib.Algebra.Order.BigOperators.Group.List
import Mathlib.Algebra.Order.Ring.Nat

/-! Elements collected under keys, with the keys in the order of their first element. Grouping loses
nothing: the groups together are a rearrangement of the list. -/

namespace Groups
open List
variable {K A : Type*} [DecidableEq K]

def push : List (K × List A) → K → A → List (K × List A)
  | [], k, a => [(k, [a])]
  | (k', as) :: groups, k, a =>
    if k' = k then (k', as ++ [a]) :: groups else (k', as) :: push groups k a

def groupOn (key : A → K) (l : List A) : List (K × List A) :=
  l.foldl (fun groups a => push groups (key a) a) []

theorem push_perm (groups : List (K × List A)) (k : K) (a : A) :
    ((push groups k a).flatMap Prod.snd).Perm (groups.flatMap Prod.snd ++ [a]) := by
  induction groups with
  | nil => rfl
  | cons g groups ih =>
    obtain ⟨k', as⟩ := g
    rw [push]
    split
    · simp only [flatMap_cons, append_assoc]
      exact .append_left as perm_append_comm
    · simp only [flatMap_cons, append_assoc]
      exact ih.append_left as

theorem groupOn_perm (key : A → K) (l : List A) : ((groupOn key l).flatMap Prod.snd).Perm l := by
  -- for any groups that the loop starts from
  suffices h : ∀ groups : List (K × List A),
      ((l.foldl (fun groups a => push groups (key a) a) groups).flatMap Prod.snd).Perm
        (groups.flatMap Prod.snd ++ l) from h []
  induction l with
  | nil => simp
  | cons a l ih =>
    intro groups
    refine (ih (push groups (key a) a)).trans ?_
    refine ((push_perm groups (key a) a).append_right l).trans ?_
    rw [append_assoc, singleton_append]

theorem mem_push {groups : List (K × List A)} {k : K} {a : A} {g : K × List A}
    (h : g ∈ push groups k a) :
    g ∈ groups ∨ g = (k, [a]) ∨ ∃ as, (k, as) ∈ groups ∧ g = (k, as ++ [a]) := by
  induction groups with
  | nil => exact .inr (.inl (mem_singleton.mp h))
  | cons g' groups ih =>
    obtain ⟨k', as⟩ := g'
    rw [push] at h
    split at h
    · rename_i hk
      subst hk
      obtain rfl | h := mem_cons.mp h
      · exact .inr (.inr ⟨as, mem_cons_self, rfl⟩)
      · exact .inl (mem_cons_of_mem _ h)
    · obtain rfl | h := mem_cons.mp h
      · exact .inl mem_cons_self
      · obtain h | h | ⟨as', hmem, rfl⟩ := ih h
        · exact .inl (mem_cons_of_mem _ h)
        · exact .inr (.inl h)
        · exact .inr (.inr ⟨as', mem_cons_of_mem _ hmem, rfl⟩)

theorem groupOn_spec {key : A → K} {l : List A} {g : K × List A} (hg : g ∈ groupOn key l) :
    g.2 ≠ [] ∧ ∀ a ∈ g.2, key a = g.1 := by
  suffices h : ∀ groups : List (K × List A), (∀ g ∈ groups, g.2 ≠ [] ∧ ∀ a ∈ g.2, key a = g.1) →
      ∀ g ∈ l.foldl (fun groups a => push groups (key a) a) groups,
        g.2 ≠ [] ∧ ∀ a ∈ g.2, key a = g.1 from h [] nofun g hg
  clear hg g
  induction l with
  | nil => exact fun groups hgroups => hgroups
  | cons a l ih =>
    intro groups hgroups
    refine ih (push groups (key a) a) fun g hg => ?_
    obtain hg | rfl | ⟨as, hmem, rfl⟩ := mem_push hg
    · exact hgroups g hg
    · simp
    · obtain ⟨-, hkey⟩ := hgroups _ hmem
      refine ⟨by simp, fun b hb => ?_⟩
      obtain hb | hb := mem_append.mp hb
      · exact hkey b hb
      · rw [mem_singleton.mp hb]

theorem mem_of_mem_groupOn {key : A → K} {l : List A} {g : K × List A} {a : A}
    (hg : g ∈ groupOn key l) (ha : a ∈ g.2) : a ∈ l :=
  (groupOn_perm key l).mem_iff.mp (mem_flatMap.mpr ⟨g, hg, ha⟩)

theorem mem_keys_push {groups : List (K × List A)} {k k' : K} {a : A} :
    k' ∈ (push groups k a).map Prod.fst ↔ k' = k ∨ k' ∈ groups.map Prod.fst := by
  induction groups with
  | nil => simp [push]
  | cons g groups ih =>
    rw [push]
    split
    · rename_i hk
      simp only [map_cons, mem_cons, hk]
      tauto
    · simp only [map_cons, mem_cons, ih]
      tauto

theorem nodup_keys_push {groups : List (K × List A)} (k : K) (a : A)
    (h : (groups.map Prod.fst).Nodup) : ((push groups k a).map Prod.fst).Nodup := by
  induction groups with
  | nil => simp [push]
  | cons g groups ih =>
    obtain ⟨hg, hgroups⟩ := nodup_cons.mp h
    rw [push]
    split
    · exact nodup_cons.mpr ⟨hg, hgroups⟩
    · rename_i hk
      refine nodup_cons.mpr ⟨fun hmem => ?_, ih hgroups⟩
      obtain hmem | hmem := mem_keys_push.mp hmem
      · exact hk hmem
      · exact hg hmem

theorem nodup_keys_groupOn (key : A → K) (l : List A) : ((groupOn key l).map Prod.fst).Nodup := by
  suffices h : ∀ groups : List (K × List A), (groups.map Prod.fst).Nodup →
      ((l.foldl (fun groups a => push groups (key a) a) groups).map Prod.fst).Nodup from
    h [] nodup_nil
  induction l with
  | nil => exact fun groups hgroups => hgroups
  | cons a l ih => exact fun groups hgroups => ih _ (nodup_keys_push (key a) a hgroups)

section Collect
variable {l : List (K × A)} {k : K} {a : A} {as : List A}

/-- Values under their keys. -/
def collect (l : List (K × A)) : List (K × List A) :=
  (groupOn Prod.fst l).map fun g => (g.1, g.2.map Prod.snd)

theorem collect_spec (h : (k, as) ∈ collect l) : as ≠ [] ∧ ∀ a ∈ as, (k, a) ∈ l := by
  obtain ⟨g, hg, heq⟩ := mem_map.mp h
  obtain ⟨rfl, rfl⟩ := Prod.mk.inj heq
  obtain ⟨hne, hkey⟩ := groupOn_spec hg
  refine ⟨by simpa using hne, fun a ha => ?_⟩
  obtain ⟨e, he, rfl⟩ := mem_map.mp ha
  rw [← hkey e he]
  exact mem_of_mem_groupOn hg he

theorem exists_mem_collect (h : (k, a) ∈ l) : ∃ as, (k, as) ∈ collect l ∧ a ∈ as := by
  obtain ⟨g, hg, hmem⟩ := mem_flatMap.mp ((groupOn_perm Prod.fst l).mem_iff.mpr h)
  have hk : k = g.1 := (groupOn_spec hg).2 _ hmem
  refine ⟨g.2.map Prod.snd, mem_map.mpr ⟨g, hg, by rw [hk]⟩, ?_⟩
  exact mem_map.mpr ⟨(k, a), hmem, rfl⟩

theorem nodup_keys_collect (l : List (K × A)) : ((collect l).map Prod.fst).Nodup := by
  rw [collect, map_map]
  exact nodup_keys_groupOn Prod.fst l

theorem collect_perm (l : List (K × A)) : ((collect l).flatMap Prod.snd).Perm (l.map Prod.snd) := by
  have h := (groupOn_perm Prod.fst l).map Prod.snd
  rw [map_flatMap] at h
  rw [collect, flatMap_map]
  exact h

end Collect

section Sums

theorem sum_filter_keys {key : A → K} {keys : List K} (hnodup : keys.Nodup) {l : List A}
    (hkeys : ∀ a ∈ l, key a ∈ keys) (f : A → ℕ) :
    (keys.map fun k => ((l.filter (key · = k)).map f).sum).sum = (l.map f).sum := by
  induction l with
  | nil => simp
  | cons a l ih =>
    obtain ⟨ha, hl⟩ := forall_mem_cons.mp hkeys
    have hcons : ∀ k, (((a :: l).filter (key · = k)).map f).sum =
        (if key a = k then f a else 0) + ((l.filter (key · = k)).map f).sum := by
      intro k
      rw [filter_cons]
      by_cases hk : key a = k <;> simp [hk]
    have hone : (keys.map fun k => if key a = k then f a else 0).sum = f a := by
      rw [← sum_toFinset _ hnodup, Finset.sum_ite_eq, if_pos (mem_toFinset.mpr ha)]
    simp only [hcons]
    rw [sum_map_add, hone, ih hl, map_cons, sum_cons]

theorem sum_map_eq_iff {f g : A → ℕ} {l : List A} (h : ∀ a ∈ l, f a ≤ g a) :
    (l.map f).sum = (l.map g).sum ↔ ∀ a ∈ l, f a = g a := by
  induction l with
  | nil => simp
  | cons a l ih =>
    obtain ⟨ha, hl⟩ := forall_mem_cons.mp h
    have hsum : (l.map f).sum ≤ (l.map g).sum := sum_le_sum hl
    rw [map_cons, map_cons, sum_cons, sum_cons, forall_mem_cons, ← ih hl]
    omega

theorem length_flatMap_filterMap {A B C : Type*} {f : A → Option B} {g : B → List C} {h : A → ℕ}
    {l : List A} (hl : ∀ a ∈ l, ∃ b, f a = some b ∧ (g b).length = h a) :
    ((l.filterMap f).flatMap g).length = (l.map h).sum := by
  induction l with
  | nil => rfl
  | cons a l ih =>
    obtain ⟨⟨b, hb, hlength⟩, hl⟩ := forall_mem_cons.mp hl
    rw [filterMap_cons_some hb, flatMap_cons, length_append, hlength, ih hl,
      map_cons, sum_cons]

end Sums

theorem map_filter_perm_iff {key : A → K} {p q : K → Bool} {l : List A} :
    ((l.filter fun a => p (key a)).map key).Perm ((l.filter fun a => q (key a)).map key) ↔
      ∀ a ∈ l, p (key a) = q (key a) := by
  constructor
  · intro hperm a ha
    have hmem : ∀ r : K → Bool,
        key a ∈ (l.filter fun a => r (key a)).map key ↔ r (key a) = true := by
      intro r
      constructor
      · intro h
        obtain ⟨b, hb, hkey⟩ := mem_map.mp h
        rw [← hkey]
        exact (mem_filter.mp hb).2
      · exact fun h => mem_map_of_mem (mem_filter.mpr ⟨ha, h⟩)
    rw [Bool.eq_iff_iff, ← hmem p, ← hmem q]
    exact hperm.mem_iff
  · intro h
    rw [filter_congr h]

end Groups
