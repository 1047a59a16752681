import Mathlib.Algebra.GroupWithZero.Nat
import Mathlib.Data.Nat.Bits
import Mathlib.Algebra.BigOperators.Group.List.Basic

/-! Unsigned arithmetic of `w` bits in which an operation that leaves the range fails. -/

namespace Checked
open List Option Nat
variable {A : Type*} {w : ℕ}

def add (w a b : ℕ) : Option ℕ := if a + b < 2 ^ w then some (a + b) else none

def sub (a b : ℕ) : Option ℕ := if b ≤ a then some (a - b) else none

def mul (w a b : ℕ) : Option ℕ := if a * b < 2 ^ w then some (a * b) else none

/-- Bits that are shifted out are lost, but a shift by the whole width fails. -/
def shl (w a k : ℕ) : Option ℕ := if k < w then some (a * 2 ^ k % 2 ^ w) else none

def sum (w : ℕ) (value : A → Option ℕ) (l : List A) : Option ℕ :=
  l.foldlM (fun total a => (value a).bind (add w total)) 0

@[simp] theorem add_eq_some {a b n : ℕ} : add w a b = some n ↔ a + b < 2 ^ w ∧ a + b = n := by
  unfold add
  rw [ite_none_right_eq_some, some_inj]

@[simp] theorem mul_eq_some {a b n : ℕ} : mul w a b = some n ↔ a * b < 2 ^ w ∧ a * b = n := by
  unfold mul
  rw [ite_none_right_eq_some, some_inj]

theorem shl_sub_eq_some {a b n : ℕ} (ha : a < w) :
    (sub a b).bind (shl w 1) = some n ↔ b ≤ a ∧ 2 ^ (a - b) = n := by
  unfold sub shl
  by_cases hle : b ≤ a
  · have hlt : a - b < w := Nat.lt_of_le_of_lt (sub_le a b) ha
    rw [if_pos hle, bind_some, if_pos hlt, one_mul,
      mod_eq_of_lt (Nat.pow_lt_pow_right Nat.one_lt_two hlt), some_inj]
    simp [hle]
  · simp [hle]

theorem sum_eq_some {value : A → Option ℕ} {p : A → Prop} {f : A → ℕ}
    (hvalue : ∀ a n, value a = some n ↔ p a ∧ f a = n) {l : List A} {n : ℕ} :
    sum w value l = some n ↔ (∀ a ∈ l, p a) ∧ (l.map f).sum < 2 ^ w ∧ (l.map f).sum = n := by
  suffices key : ∀ (l : List A) (total : ℕ), total < 2 ^ w →
      (l.foldlM (fun total a => (value a).bind (add w total)) total = some n ↔
        (∀ a ∈ l, p a) ∧ total + (l.map f).sum < 2 ^ w ∧ total + (l.map f).sum = n) by
    have hall := key l 0 (Nat.two_pow_pos w)
    rw [Nat.zero_add] at hall
    exact hall
  intro l
  induction l with
  | nil =>
    intro total htotal
    simp [htotal]
  | cons a l ih =>
    intro total htotal
    rw [foldlM_cons, map_cons, sum_cons, forall_mem_cons, ← Nat.add_assoc]
    constructor
    · intro h
      obtain ⟨total', hstep, hrest⟩ := bind_eq_some_iff.mp h
      obtain ⟨m, hm, hadd⟩ := bind_eq_some_iff.mp hstep
      obtain ⟨hp, rfl⟩ := (hvalue a m).mp hm
      obtain ⟨hlt, rfl⟩ := add_eq_some.mp hadd
      obtain ⟨hall, hsum⟩ := (ih _ hlt).mp hrest
      exact ⟨⟨hp, hall⟩, hsum⟩
    · rintro ⟨⟨hp, hall⟩, hlt, hsum⟩
      have hadd : add w total (f a) = some (total + f a) :=
        add_eq_some.mpr ⟨Nat.lt_of_le_of_lt (Nat.le_add_right _ _) hlt, rfl⟩
      refine bind_eq_some_iff.mpr ⟨total + f a, ?_, ?_⟩
      · exact bind_eq_some_iff.mpr ⟨f a, (hvalue a _).mpr ⟨hp, rfl⟩, hadd⟩
      · exact (ih _ (add_eq_some.mp hadd).1).mpr ⟨hall, hlt, hsum⟩

end Checked
