import Mathlib.Data.Set.Basic

/-! Equality tests that come with a hash. A hash table finds what is equal to a value if the test is
an equivalence and equal values have the same hash. -/

structure LawfulOn {T K : Type*} (eq : T → T → Bool) (hash : T → K) (S : Set T) : Prop where
  refl : ∀ a ∈ S, eq a a = true
  symm : ∀ a ∈ S, ∀ b ∈ S, eq a b = true → eq b a = true
  trans : ∀ a ∈ S, ∀ b ∈ S, ∀ c ∈ S, eq a b = true → eq b c = true → eq a c = true
  hash : ∀ a ∈ S, ∀ b ∈ S, eq a b = true → hash a = hash b

namespace LawfulOn
variable {T K X : Type*} {eq : T → T → Bool} {hash : T → K} {S : Set T}

theorem of_key (key : T → X) (heq : ∀ a ∈ S, ∀ b ∈ S, eq a b = true ↔ key a = key b)
    (hhash : ∀ a ∈ S, ∀ b ∈ S, key a = key b → hash a = hash b) : LawfulOn eq hash S where
  refl a ha := (heq a ha a ha).mpr rfl
  symm a ha b hb hab := (heq b hb a ha).mpr ((heq a ha b hb).mp hab).symm
  trans a ha b hb c hc hab hbc :=
    (heq a ha c hc).mpr (((heq a ha b hb).mp hab).trans ((heq b hb c hc).mp hbc))
  hash a ha b hb hab := hhash a ha b hb ((heq a ha b hb).mp hab)

theorem iff_of_key (key : T → X) (heq : ∀ a ∈ S, ∀ b ∈ S, eq a b = true ↔ key a = key b) :
    LawfulOn eq hash S ↔ ∀ a ∈ S, ∀ b ∈ S, key a = key b → hash a = hash b :=
  ⟨fun h a ha b hb hkey => h.hash a ha b hb ((heq a ha b hb).mpr hkey), of_key key heq⟩

end LawfulOn
