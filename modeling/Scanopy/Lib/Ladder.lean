import Mathlib.Order.MinMax

/-! A value that candidates are offered to, of which one with a lower rank is turned down and one
with the same rank is taken. Two candidates of one rank displace each other in every pass. -/

namespace Ladder
variable {C ι : Type*} [LinearOrder ι] (rank : C → ι)

def offer (x c : C) : C := if rank c < rank x then x else c

/-- Without a candidate the value stays. -/
def offerOption (x : C) : Option C → C
  | some c => offer rank x c
  | none => x

/-- Two candidates, one after the other. -/
def pass (x : C) (a b : Option C) : C := offerOption rank (offerOption rank x a) b

variable {rank} {x c c' : C} {a b : Option C}

theorem rank_offer (rank : C → ι) (x c : C) : rank (offer rank x c) = max (rank x) (rank c) := by
  unfold offer
  split_ifs with h
  · exact (max_eq_left h.le).symm
  · exact (max_eq_right (not_lt.mp h)).symm

theorem rank_le_offerOption (x : C) (a : Option C) : rank x ≤ rank (offerOption rank x a) := by
  cases a with
  | none => exact le_rfl
  | some c =>
    rw [offerOption, rank_offer rank]
    exact le_max_left _ _

theorem rank_le_pass (x : C) (a b : Option C) : rank x ≤ rank (pass rank x a b) :=
  (rank_le_offerOption x a).trans (rank_le_offerOption _ b)

theorem offer_self (x c : C) : offer rank (offer rank x c) c = offer rank x c := by
  unfold offer
  split_ifs <;> rfl

theorem offerOption_self (x : C) (a : Option C) :
    offerOption rank (offerOption rank x a) a = offerOption rank x a := by
  cases a with
  | none => rfl
  | some c => exact offer_self x c

theorem offer_of_lt (h : rank c < rank x) : offer rank x c = x := if_pos h

theorem offer_of_le (h : rank x ≤ rank c) : offer rank x c = c := if_neg h.not_gt

/-- After a pass the first candidate displaces the second exactly if it has its rank and is another
one. -/
theorem offer_pass_ne_iff :
    offer rank (pass rank x (some c) (some c')) c ≠ pass rank x (some c) (some c') ↔
      rank x ≤ rank c' ∧ rank c = rank c' ∧ c ≠ c' := by
  show offer rank (offer rank (offer rank x c) c') c ≠ offer rank (offer rank x c) c' ↔ _
  by_cases hlast : max (rank x) (rank c) ≤ rank c'
  · obtain ⟨hx, hc⟩ := max_le_iff.mp hlast
    have htaken : offer rank (offer rank x c) c' = c' := by
      refine offer_of_le ?_
      rw [rank_offer rank]
      exact hlast
    rw [htaken, and_iff_right hx]
    rcases hc.lt_or_eq with hlt | heq
    · rw [offer_of_lt hlt]
      exact iff_of_false (fun h => h rfl) fun h => hlt.ne h.1
    · rw [offer_of_le heq.ge, and_iff_right heq]
  · have hkept : offer rank (offer rank x c) c' = offer rank x c := by
      refine offer_of_lt ?_
      rw [rank_offer rank]
      exact not_le.mp hlast
    rw [hkept, offer_self]
    refine iff_of_false (fun h => h rfl) fun ⟨hx, hc, _⟩ => hlast ?_
    exact max_le hx hc.le

theorem offerOption_pass_ne_iff :
    offerOption rank (pass rank x a b) a ≠ pass rank x a b ↔
      ∃ c c', a = some c ∧ b = some c' ∧ rank x ≤ rank c' ∧ rank c = rank c' ∧ c ≠ c' := by
  cases a with
  | none => simp [offerOption]
  | some c =>
    cases b with
    | none =>
      have hsame : offerOption rank (pass rank x (some c) none) (some c) =
          pass rank x (some c) none := offer_self x c
      simp [hsame]
    | some c' =>
      rw [offerOption, offer_pass_ne_iff]
      simp

theorem pass_pass (x : C) (a b : Option C) :
    pass rank (pass rank x a b) a b = pass rank x a b := by
  cases a with
  | none => exact offerOption_self x b
  | some c =>
    cases b with
    | none => exact offer_self x c
    | some c' =>
      by_cases hflip : rank x ≤ rank c' ∧ rank c = rank c' ∧ c ≠ c'
      · have hlast : pass rank x (some c) (some c') = c' := by
          refine offer_of_le ?_
          rw [offerOption, rank_offer rank]
          exact max_le hflip.1 hflip.2.1.le
        rw [hlast]
        refine offer_of_le ?_
        rw [offerOption, rank_offer rank, hflip.2.1, max_self]
      · have hsame := not_not.mp fun h => hflip (offer_pass_ne_iff.mp h)
        show offer rank (offer rank (pass rank x (some c) (some c')) c) c' = _
        rw [hsame]
        exact offer_self _ c'

/-- A pass in which a candidate is taken for another one can still end where it began: the second
candidate brings back what the first one has displaced. -/
theorem pass_eq_self_iff :
    pass rank x a b = x ∧ ¬(offerOption rank x a = x ∧
      offerOption rank (offerOption rank x a) b = offerOption rank x a) ↔
      ∃ c, a = some c ∧ b = some x ∧ rank c = rank x ∧ c ≠ x := by
  constructor
  · rintro ⟨hpass, hmoved⟩
    have hfirst : offerOption rank x a ≠ x := fun h => hmoved ⟨h, hpass.trans h.symm⟩
    cases a with
    | none => exact absurd rfl hfirst
    | some c =>
      have hle : rank x ≤ rank c := not_lt.mp fun h => hfirst (offer_of_lt h)
      have htaken : offerOption rank x (some c) = c := offer_of_le hle
      rw [pass, htaken] at hpass
      rw [htaken] at hfirst
      cases b with
      | none => exact absurd hpass hfirst
      | some c' =>
        have hle' : rank c ≤ rank c' := not_lt.mp fun h => hfirst ((offer_of_lt h).symm.trans hpass)
        have hback : c' = x := (offer_of_le hle').symm.trans hpass
        subst hback
        exact ⟨c, rfl, rfl, le_antisymm hle' hle, hfirst⟩
  · rintro ⟨c, rfl, rfl, hrank, hne⟩
    have htaken : offerOption rank x (some c) = c := offer_of_le hrank.ge
    refine ⟨?_, fun h => hne (htaken.symm.trans h.1)⟩
    rw [pass, htaken]
    exact offer_of_le hrank.le

end Ladder
