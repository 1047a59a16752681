import Mathlib.Data.List.Perm.Subperm
import Mathlib.Order.WellFounded

/-! Nodes that name their parents. A parent function without cycles makes the nodes a forest, in
which the outermost ancestor with a property is well defined; a walk up the parents finds it. -/

namespace Ancestry
open List Option
variable {α : Type*}

def IsParent (parent : α → Option α) (n p : α) : Prop := parent n = some p

/-- `a` is reached from `n` by going to a parent once or more. -/
def Above (parent : α → Option α) : α → α → Prop := Relation.TransGen (IsParent parent)

def AtOrAbove (parent : α → Option α) : α → α → Prop := Relation.ReflTransGen (IsParent parent)

def Acyclic (parent : α → Option α) : Prop := WellFounded fun p n => IsParent parent n p

variable {parent : α → Option α} {n p a : α}

theorem acyclic_of_depth (depth : α → ℕ) (h : ∀ n p, parent n = some p → depth p < depth n) :
    Acyclic parent :=
  Subrelation.wf (fun {p n} hp => h n p hp) (measure depth).wf

theorem Acyclic.not_above_self (hparent : Acyclic parent) (n : α) : ¬Above parent n n := by
  intro h
  have hwf := hparent.transGen
  exact hwf.irrefl.irrefl n (Relation.transGen_swap.mpr h)

theorem Above.of_parent (h : parent n = some p) : Above parent n p := .single h

theorem atOrAbove_iff : AtOrAbove parent n a ↔ a = n ∨ Above parent n a :=
  Relation.reflTransGen_iff_eq_or_transGen

theorem not_above_of_none (h : parent n = none) : ¬Above parent n a := by
  intro ha
  obtain ⟨p, hp, -⟩ := Relation.TransGen.head'_iff.mp ha
  rw [IsParent, h] at hp
  exact nomatch hp

theorem above_iff_of_parent (h : parent n = some p) : Above parent n a ↔ AtOrAbove parent p a := by
  constructor
  · intro ha
    obtain ⟨p', hp', hreach⟩ := Relation.TransGen.head'_iff.mp ha
    rw [IsParent, h, some.injEq] at hp'
    exact hp' ▸ hreach
  · exact fun ha => .head' h ha

theorem AtOrAbove.total {b : α} (ha : AtOrAbove parent n a) (hb : AtOrAbove parent n b) :
    AtOrAbove parent a b ∨ AtOrAbove parent b a := by
  refine Relation.ReflTransGen.total_of_right_unique ?_ ha hb
  intro m p q hp hq
  exact some.inj (hp.symm.trans hq)

section Outermost
variable {S : α → Prop} {r : α}

/-- `r` has the property, and nothing above it has. -/
structure Outermost (parent : α → Option α) (S : α → Prop) (n r : α) : Prop where
  holds : S r
  atOrAbove : AtOrAbove parent n r
  last : ∀ a, Above parent r a → ¬S a

theorem Outermost.unique (hr : Outermost parent S n r) (ha : Outermost parent S n a) : r = a := by
  obtain h | h := hr.atOrAbove.total ha.atOrAbove
  · obtain rfl | h := atOrAbove_iff.mp h
    · rfl
    · exact absurd ha.holds (hr.last a h)
  · obtain rfl | h := atOrAbove_iff.mp h
    · rfl
    · exact absurd hr.holds (ha.last r h)

theorem Outermost.of_parent (h : parent n = some p) (hr : Outermost parent S p r) :
    Outermost parent S n r where
  holds := hr.holds
  atOrAbove := .head h hr.atOrAbove
  last := hr.last

theorem Outermost.self (hn : S n) (h : ∀ a, Above parent n a → ¬S a) : Outermost parent S n n :=
  ⟨hn, .refl, h⟩

end Outermost

section Walk
variable [DecidableEq α] (parent : α → Option α) (S : α → Prop) [DecidablePred S]

/-- A walk up from `current`, with the last node with the property so far. It stops at a node that
it has visited. -/
def walkUp : (fuel : ℕ) → (visited : List α) → (current : α) → Option α → Option α
  | 0, _, _, result => result
  | fuel + 1, visited, current, result =>
    if current ∈ visited then result
    else
      let result := if S current then some current else result
      match parent current with
      | none => result
      | some p => if p = current then result else walkUp fuel (current :: visited) p result

/-- The last node with the property on the way up from `n`, where `keys` has all nodes with a
parent. -/
def outermost (keys : List α) (n : α) : Option α := walkUp parent S (keys.length + 1) [] n none

variable {parent S} {keys visited : List α} {r : α}

/-- The fuel outlasts the nodes that the walk can visit. -/
theorem walkUp_spec (hparent : Acyclic parent) (hkeys : ∀ n p, parent n = some p → n ∈ keys)
    {fuel : ℕ} (hfuel : visited.length + fuel = keys.length + 1) (hnodup : visited.Nodup)
    (hsub : visited ⊆ keys) (hbelow : ∀ v ∈ visited, Above parent v n) (result : Option α) :
    (∃ r, Outermost parent S n r ∧ walkUp parent S fuel visited n result = some r) ∨
      ((∀ a, AtOrAbove parent n a → ¬S a) ∧ walkUp parent S fuel visited n result = result) := by
  induction fuel generalizing visited n result with
  | zero =>
    have hle := (subperm_of_subset hnodup hsub).length_le
    omega
  | succ fuel ih =>
    have hn : n ∉ visited := fun h => hparent.not_above_self n (hbelow n h)
    rw [walkUp, if_neg hn]
    cases hp : parent n with
    | none =>
      have hlast : ∀ a, ¬Above parent n a := fun a => not_above_of_none hp
      by_cases hS : S n
      · exact .inl ⟨n, .self hS fun a ha => absurd ha (hlast a), by simp [hS]⟩
      · refine .inr ⟨fun a ha => ?_, by simp [hS]⟩
        obtain rfl | ha := atOrAbove_iff.mp ha
        · exact hS
        · exact absurd ha (hlast a)
    | some p =>
      have habove := Above.of_parent hp
      have hne : p ≠ n := fun h => hparent.not_above_self n (h ▸ habove)
      have hbelow' : ∀ v ∈ n :: visited, Above parent v p :=
        forall_mem_cons.mpr ⟨habove, fun v hv => (hbelow v hv).trans habove⟩
      have hfuel' : (n :: visited).length + fuel = keys.length + 1 := by
        rw [length_cons]
        omega
      have hnext := ih hfuel' (nodup_cons.mpr ⟨hn, hnodup⟩)
        (cons_subset.mpr ⟨hkeys n p hp, hsub⟩) hbelow' (if S n then some n else result)
      dsimp only
      rw [if_neg hne]
      obtain ⟨r, hr, heq⟩ | ⟨hnone, heq⟩ := hnext
      · exact .inl ⟨r, .of_parent hp hr, heq⟩
      · have hlast : ∀ a, Above parent n a → ¬S a :=
          fun a ha => hnone a ((above_iff_of_parent hp).mp ha)
        by_cases hS : S n
        · exact .inl ⟨n, .self hS hlast, by rw [heq, if_pos hS]⟩
        · refine .inr ⟨fun a ha => ?_, by rw [heq, if_neg hS]⟩
          obtain rfl | ha := atOrAbove_iff.mp ha
          · exact hS
          · exact hlast a ha

theorem outermost_spec (hparent : Acyclic parent) (hkeys : ∀ n p, parent n = some p → n ∈ keys)
    (n : α) :
    (∃ r, Outermost parent S n r ∧ outermost parent S keys n = some r) ∨
      ((∀ a, AtOrAbove parent n a → ¬S a) ∧ outermost parent S keys n = none) :=
  walkUp_spec hparent hkeys (by simp) .nil (nil_subset _) nofun none

theorem outermost_eq_some (hparent : Acyclic parent) (hkeys : ∀ n p, parent n = some p → n ∈ keys) :
    outermost parent S keys n = some r ↔ Outermost parent S n r := by
  obtain ⟨r', hr', heq⟩ | ⟨hnone, heq⟩ := outermost_spec (S := S) hparent hkeys n
  · rw [heq, some.injEq]
    constructor
    · rintro rfl
      exact hr'
    · exact hr'.unique
  · rw [heq]
    exact ⟨nofun, fun hr => absurd hr.holds (hnone r hr.atOrAbove)⟩

theorem outermost_eq_none (hparent : Acyclic parent) (hkeys : ∀ n p, parent n = some p → n ∈ keys) :
    outermost parent S keys n = none ↔ ∀ a, AtOrAbove parent n a → ¬S a := by
  obtain ⟨r, hr, heq⟩ | ⟨hnone, heq⟩ := outermost_spec (S := S) hparent hkeys n
  · rw [heq]
    exact ⟨nofun, fun h => absurd hr.holds (h r hr.atOrAbove)⟩
  · exact ⟨fun _ => hnone, fun _ => heq⟩

end Walk

section Representative
variable {S : α → Prop} {r : α}

/-- What stands for `n` when the nodes with the property hide what is below them. -/
def Represents (parent : α → Option α) (S : α → Prop) (n r : α) : Prop :=
  Outermost parent S n r ∨ r = n ∧ ∀ a, AtOrAbove parent n a → ¬S a

/-- Below a node with the property. -/
def Hidden (parent : α → Option α) (S : α → Prop) (n : α) : Prop := ∃ a, Above parent n a ∧ S a

theorem Represents.not_hidden (h : Represents parent S n r) : ¬Hidden parent S r := by
  rintro ⟨a, ha, hS⟩
  obtain h | ⟨rfl, h⟩ := h
  · exact h.last a ha hS
  · exact h a (atOrAbove_iff.mpr (.inr ha)) hS

end Representative

end Ancestry
