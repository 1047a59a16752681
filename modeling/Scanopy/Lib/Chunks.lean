import Mathlib.Algebra.Order.Floor.Div

/-! Lists in pieces of a fixed length, and the places of their elements when the pieces are laid out
one after another. -/

open Option Function Nat

namespace List
variable {α : Type*}

/-- The pieces of length `n`; the last one can be shorter. -/
def chunks (n : ℕ) (l : List α) : List (List α) :=
  (range ((l.length + n - 1) / n)).map fun k => (l.drop (k * n)).take n

variable {n : ℕ} {l : List α}

theorem lt_length_chunks_iff (hn : 0 < n) {k : ℕ} : k < (l.length + n - 1) / n ↔ k * n < l.length := by
  rw [lt_iff_add_one_le, Nat.le_div_iff_mul_le hn, Nat.add_mul]
  omega

theorem chunks_nil (hn : 0 < n) : chunks n ([] : List α) = [] := by
  have hzero : ([] : List α).length + n - 1 < n := by
    rw [length_nil]
    omega
  rw [chunks, div_eq_of_lt hzero, range_zero, map_nil]

theorem chunks_of_ne_nil (hn : 0 < n) (hl : l ≠ []) :
    chunks n l = l.take n :: chunks n (l.drop n) := by
  have hlength : 0 < l.length := length_pos_of_ne_nil hl
  have hcount : (l.length + n - 1) / n = ((l.drop n).length + n - 1) / n + 1 := by
    refine eq_of_forall_lt_iff fun k => ?_
    cases k with
    | zero => exact iff_of_true ((lt_length_chunks_iff hn).mpr (by omega)) (succ_pos _)
    | succ k =>
      rw [lt_length_chunks_iff hn, Nat.add_lt_add_iff_right, lt_length_chunks_iff hn, length_drop,
        Nat.add_mul]
      omega
  rw [chunks, hcount, range_succ_eq_map, map_cons, map_map, chunks, Nat.zero_mul, drop_zero]
  refine congrArg _ (map_congr_left fun k _ => ?_)
  rw [comp_apply, drop_drop, succ_mul, Nat.add_comm]

theorem chunks_map {β : Type*} (f : α → β) : chunks n (l.map f) = (chunks n l).map (map f) := by
  rw [chunks, chunks, map_map, length_map]
  refine map_congr_left fun k _ => ?_
  rw [← map_drop, ← map_take, comp_apply]

theorem length_le_of_mem_chunks {chunk : List α} (h : chunk ∈ chunks n l) : chunk.length ≤ n := by
  obtain ⟨k, -, rfl⟩ := mem_map.mp h
  exact length_take_le _ _

theorem ne_nil_of_mem_chunks (hn : 0 < n) {chunk : List α} (h : chunk ∈ chunks n l) :
    chunk ≠ [] := by
  obtain ⟨k, hk, rfl⟩ := mem_map.mp h
  have hlt : k * n < l.length := (lt_length_chunks_iff hn).mp (mem_range.mp hk)
  rw [← length_pos_iff, length_take, length_drop]
  omega

theorem flatten_chunks (hn : 0 < n) : (chunks n l).flatten = l := by
  induction hlength : l.length using Nat.strong_induction_on generalizing l with
  | _ length ih =>
    subst hlength
    by_cases hnil : l = []
    · rw [hnil, chunks_nil hn, flatten_nil]
    have hshorter : (l.drop n).length < l.length := by
      rw [length_drop]
      exact sub_lt (length_pos_of_ne_nil hnil) hn
    rw [chunks_of_ne_nil hn hnil, flatten_cons, ih _ hshorter rfl, take_append_drop]

theorem getElem?_flatten_of_length {ls : List (List α)} (h : ∀ l ∈ ls, l.length = n) (k : ℕ) {i : ℕ}
    (hi : i < n) : ls.flatten[k * n + i]? = (ls[k]?).bind (·[i]?) := by
  induction ls generalizing k with
  | nil => rfl
  | cons l ls ih =>
    have hl : l.length = n := h l mem_cons_self
    cases k with
    | zero =>
      rw [flatten_cons, Nat.zero_mul, Nat.zero_add, getElem?_append_left (hl ▸ hi)]
      rfl
    | succ k =>
      rw [flatten_cons, succ_mul, getElem?_append_right (by omega),
        show k * n + n + i - l.length = k * n + i by omega,
        ih (fun l hl => h l (mem_cons_of_mem _ hl)) k]
      rfl

variable {β : Type*} {f : α → Option β}

theorem mapM_cons_eq_some {a : α} {r : List β} :
    (a :: l).mapM f = some r ↔ ∃ b, f a = some b ∧ ∃ r', l.mapM f = some r' ∧ b :: r' = r := by
  rw [mapM_cons]
  constructor
  · intro h
    obtain ⟨b, hb, h⟩ := bind_eq_some_iff.mp h
    obtain ⟨r', hr', h⟩ := bind_eq_some_iff.mp h
    exact ⟨b, hb, r', hr', some.inj h⟩
  · rintro ⟨b, hb, r', hr', rfl⟩
    rw [hb, hr']
    rfl

theorem mapM_eq_some_iff {r : List β} : l.mapM f = some r ↔ Forall₂ (fun a b => f a = some b) l r := by
  induction l generalizing r with
  | nil =>
    rw [mapM_nil, forall₂_nil_left_iff]
    exact ⟨fun h => (some.inj h).symm, fun h => congrArg some h.symm⟩
  | cons a l ih =>
    rw [mapM_cons_eq_some, forall₂_cons_left_iff]
    simp only [ih]
    constructor
    · rintro ⟨b, hb, r', hr', rfl⟩
      exact ⟨b, r', hb, hr', rfl⟩
    · rintro ⟨b, r', hb, hr', rfl⟩
      exact ⟨b, hb, r', hr', rfl⟩

theorem exists_of_mem_mapM {r : List β} (h : l.mapM f = some r) {b : β} (hb : b ∈ r) :
    ∃ a ∈ l, f a = some b := by
  induction l generalizing r with
  | nil =>
    cases h
    exact absurd hb not_mem_nil
  | cons a l ih =>
    obtain ⟨b', hb', r', hr', rfl⟩ := mapM_cons_eq_some.mp h
    rcases mem_cons.mp hb with rfl | hb
    · exact ⟨a, mem_cons_self, hb'⟩
    · obtain ⟨a', ha', hf⟩ := ih hr' hb
      exact ⟨a', mem_cons_of_mem a ha', hf⟩

theorem mapM_append_eq_some {l' : List α} {r : List β} : (l ++ l').mapM f = some r ↔
    ∃ r₁, l.mapM f = some r₁ ∧ ∃ r₂, l'.mapM f = some r₂ ∧ r₁ ++ r₂ = r := by
  rw [mapM_append]
  constructor
  · intro h
    obtain ⟨r₁, hr₁, h⟩ := bind_eq_some_iff.mp h
    obtain ⟨r₂, hr₂, h⟩ := bind_eq_some_iff.mp h
    exact ⟨r₁, hr₁, r₂, hr₂, some.inj h⟩
  · rintro ⟨r₁, hr₁, r₂, hr₂, rfl⟩
    rw [hr₁, hr₂]
    rfl

theorem mapM_flatten_eq_some_iff {ls : List (List α)} {r : List β} :
    ls.flatten.mapM f = some r ↔ ∃ rs, ls.mapM (·.mapM f) = some rs ∧ rs.flatten = r := by
  induction ls generalizing r with
  | nil =>
    rw [flatten_nil, mapM_nil, mapM_nil]
    constructor
    · exact fun h => ⟨[], rfl, some.inj h⟩
    · rintro ⟨rs, hrs, rfl⟩
      cases hrs
      rfl
  | cons l ls ih =>
    rw [flatten_cons, mapM_append_eq_some]
    constructor
    · rintro ⟨head, hhead, tail, htail, rfl⟩
      obtain ⟨rs, hrs, rfl⟩ := ih.mp htail
      exact ⟨head :: rs, mapM_cons_eq_some.mpr ⟨head, hhead, rs, hrs, rfl⟩, rfl⟩
    · rintro ⟨_, hall, rfl⟩
      obtain ⟨head, hhead, rs, hrs, rfl⟩ := mapM_cons_eq_some.mp hall
      exact ⟨head, hhead, rs.flatten, ih.mpr ⟨rs, hrs, rfl⟩, rfl⟩

end List
