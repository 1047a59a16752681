import Mathlib.Data.List.Lex
import Mathlib.Data.List.Nodup
import Mathlib.Order.Lattice

/-! Loops whose turn either goes on from a new state or ends with a result, run with fuel; a measure
says how much is enough. Tables in the order of their keys, read from a key on. -/

namespace Loop
variable {S R : Type*} {turn : S → S ⊕ R}

/-- What the loop ends with, if it ends within `fuel` turns. -/
def run (turn : S → S ⊕ R) : (fuel : ℕ) → S → Option R
  | 0, _ => none
  | fuel + 1, s => match turn s with
    | .inl s' => run turn fuel s'
    | .inr r => some r

theorem run_of_goesOn {s s' : S} (h : turn s = .inl s') (fuel : ℕ) :
    run turn (fuel + 1) s = run turn fuel s' := by
  rw [run, h]

theorem run_of_ends {s : S} {r : R} (h : turn s = .inr r) (fuel : ℕ) :
    run turn (fuel + 1) s = some r := by
  rw [run, h]

theorem exists_run_of_measure {P : S → Prop} {measure : S → ℕ}
    (hP : ∀ s s', P s → turn s = .inl s' → P s' ∧ measure s' < measure s) {s : S} (hs : P s)
    {fuel : ℕ} (hfuel : measure s < fuel) : ∃ r, run turn fuel s = some r := by
  induction fuel generalizing s with
  | zero => exact absurd hfuel (Nat.not_lt_zero _)
  | succ fuel ih =>
    cases hturn : turn s with
    | inl s' =>
      obtain ⟨hs', hlt⟩ := hP s s' hs hturn
      rw [run_of_goesOn hturn]
      exact ih hs' (by omega)
    | inr r => exact ⟨r, run_of_ends hturn fuel⟩

theorem run_mono {fuel fuel' : ℕ} (hle : fuel ≤ fuel') {s : S} {r : R}
    (h : run turn fuel s = some r) : run turn fuel' s = some r := by
  induction fuel generalizing fuel' s with
  | zero => exact absurd h nofun
  | succ fuel ih =>
    obtain ⟨fuel', rfl⟩ := Nat.exists_eq_add_of_lt (Nat.lt_of_lt_of_le fuel.succ_pos hle)
    rw [Nat.zero_add] at hle ⊢
    cases hturn : turn s with
    | inl s' =>
      rw [run_of_goesOn hturn] at h ⊢
      exact ih (by omega) h
    | inr r' =>
      rw [run_of_ends hturn] at h ⊢
      exact h

theorem invariant_of_run {P : S → Prop} {Q : R → Prop}
    (hgoesOn : ∀ s s', P s → turn s = .inl s' → P s') (hends : ∀ s r, P s → turn s = .inr r → Q r)
    {fuel : ℕ} {s : S} {r : R} (hs : P s) (h : run turn fuel s = some r) : Q r := by
  induction fuel generalizing s with
  | zero => exact absurd h nofun
  | succ fuel ih =>
    cases hturn : turn s with
    | inl s' =>
      rw [run_of_goesOn hturn] at h
      exact ih (hgoesOn s s' hs hturn) h
    | inr r' =>
      rw [run_of_ends hturn] at h
      exact Option.some.inj h ▸ hends s r' hs hturn

/-- The states at the head of the turns of a loop from `s`. -/
inductive Reaches (turn : S → S ⊕ R) (s : S) : S → Prop
  | refl : Reaches turn s s
  | step {t t' : S} (ht : Reaches turn s t) (h : turn t = .inl t') : Reaches turn s t'

theorem Reaches.invariant {P : S → Prop} {s t : S} (h : Reaches turn s t) (hs : P s)
    (hturn : ∀ t t', Reaches turn s t → P t → turn t = .inl t' → P t') : P t := by
  induction h with
  | refl => exact hs
  | step ht hstep ih => exact hturn _ _ ht ih hstep

theorem exists_reaches_of_run {fuel : ℕ} {s : S} {r : R} (h : run turn fuel s = some r) :
    ∃ t, Reaches turn s t ∧ turn t = .inr r :=
  invariant_of_run (P := Reaches turn s) (Q := fun r => ∃ t, Reaches turn s t ∧ turn t = .inr r)
    (fun _ _ ht hturn => .step ht hturn) (fun t _ ht hturn => ⟨t, ht, hturn⟩) .refl h

theorem run_map {S' R' : Type*} {turn' : S' → S' ⊕ R'} {f : S → S'} {g : R → R'}
    (h : ∀ s, turn' (f s) = (turn s).map f g) (fuel : ℕ) (s : S) :
    run turn' fuel (f s) = (run turn fuel s).map g := by
  induction fuel generalizing s with
  | zero => rfl
  | succ fuel ih =>
    have hturn' := h s
    cases hturn : turn s with
    | inl t =>
      rw [hturn, Sum.map_inl] at hturn'
      rw [run_of_goesOn hturn, run_of_goesOn hturn']
      exact ih t
    | inr r =>
      rw [hturn, Sum.map_inr] at hturn'
      rw [run_of_ends hturn, run_of_ends hturn', Option.map_some]

end Loop

namespace Paging

section Above
variable {K V : Type*} [LinearOrder K] {rows rest : List (K × V)} {start : K} {row other : K × V}

def above (rows : List (K × V)) (start : K) : List (K × V) := rows.filter fun row => start < row.1

theorem mem_above : row ∈ above rows start ↔ row ∈ rows ∧ start < row.1 := by
  simp [above]

theorem above_of_above_eq_cons (hrows : rows.Pairwise fun a b => a.1 < b.1)
    (h : above rows start = row :: rest) : above rows row.1 = rest := by
  have hsorted : (row :: rest).Pairwise fun a b => a.1 < b.1 := h ▸ hrows.sublist List.filter_sublist
  have hrow : start < row.1 := (mem_above.mp (h ▸ List.mem_cons_self)).2
  have hnested : above rows row.1 = (above rows start).filter fun r => row.1 < r.1 := by
    rw [above, above, List.filter_filter]
    refine List.filter_congr fun r _ => ?_
    by_cases hr : row.1 < r.1
    · simp [hr, hrow.trans hr]
    · simp [hr]
  rw [hnested, h, List.filter_cons_of_neg (by simp)]
  exact List.filter_eq_self.mpr fun r hr => decide_eq_true (List.rel_of_pairwise_cons hsorted hr)

theorem le_of_above_eq_cons (hrows : rows.Pairwise fun a b => a.1 < b.1)
    (h : above rows start = row :: rest) (hother : other ∈ rows) (hlt : start < other.1) :
    row = other ∨ row.1 < other.1 := by
  have hsorted : (row :: rest).Pairwise fun a b => a.1 < b.1 := h ▸ hrows.sublist List.filter_sublist
  have hmem : other ∈ row :: rest := h ▸ mem_above.mpr ⟨hother, hlt⟩
  obtain rfl | hrest := List.mem_cons.mp hmem
  · exact .inl rfl
  · exact .inr (List.rel_of_pairwise_cons hsorted hrest)

theorem not_lt_of_above_eq_nil (h : above rows start = []) (hother : other ∈ rows) :
    ¬ start < other.1 := by
  intro hlt
  have hmem : other ∈ above rows start := mem_above.mpr ⟨hother, hlt⟩
  rw [h] at hmem
  exact List.not_mem_nil hmem

theorem eq_of_key_eq (hrows : rows.Pairwise fun a b => a.1 < b.1) (hrow : row ∈ rows)
    (hother : other ∈ rows) (h : row.1 = other.1) : row = other := by
  have hdistinct : (rows.map Prod.fst).Nodup := List.pairwise_map.mpr (hrows.imp ne_of_lt)
  exact List.inj_on_of_nodup_map hdistinct hrow hother h

end Above

section Paths
variable {α : Type*} [LinearOrder α] {base path : List α}

theorem lt_append (base : List α) {suffix : List α} (h : suffix ≠ []) : base < base ++ suffix := by
  induction base with
  | nil =>
    cases suffix with
    | nil => exact absurd rfl h
    | cons a suffix => exact List.nil_lt_cons a suffix
  | cons a base ih => exact List.cons_lt_cons_iff.mpr (.inr ⟨rfl, ih⟩)

theorem append_lt_of_not_isPrefix (hle : base ≤ path) (hpre : ¬ base <+: path) (suffix : List α) :
    base ++ suffix < path := by
  induction base generalizing path with
  | nil => exact absurd List.nil_prefix hpre
  | cons a base ih =>
    cases path with
    | nil => exact absurd hle (not_le.mpr (List.nil_lt_cons a base))
    | cons b path =>
      rw [List.cons_append, List.cons_lt_cons_iff]
      obtain hlt | rfl | hgt := lt_trichotomy a b
      · exact .inl hlt
      · have hle' : base ≤ path := by
          by_contra hlt
          exact absurd hle (not_le.mpr (List.cons_lt_cons_iff.mpr (.inr ⟨rfl, not_le.mp hlt⟩)))
        exact .inr ⟨rfl, ih hle' fun h => hpre (List.cons_prefix_cons.mpr ⟨rfl, h⟩)⟩
      · exact absurd hle (not_le.mpr (List.cons_lt_cons_iff.mpr (.inl hgt)))

end Paths

end Paging
