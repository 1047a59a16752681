import Mathlib.Data.List.TakeDrop
import Mathlib.Data.List.Nodup

/-! Records that are updated in place, each update at the first record with some key: that one is
updated by all the updates for its key, the others never. -/

namespace FirstMatch
open Option
variable {K A : Type*} [DecidableEq K] {key : A → K} {k : K} {f : A → A} {l : List A} {i : ℕ}

section Operations
variable (key : A → K)

def modify (k : K) (f : A → A) : List A → List A
  | [] => []
  | a :: l => if key a = k then f a :: l else a :: modify k f l

def modifyAll (updates : List (K × (A → A))) (l : List A) : List A :=
  updates.foldl (fun l u => modify key u.1 u.2 l) l

def updated (updates : List (K × (A → A))) (a : A) : A :=
  (updates.filter (·.1 = key a)).foldl (fun a u => u.2 a) a

end Operations

theorem map_key_modify (hf : ∀ a, key (f a) = key a) :
    (modify key k f l).map key = l.map key := by
  induction l with
  | nil => rfl
  | cons a l ih =>
    rw [modify]
    split_ifs
    · rw [List.map_cons, hf, List.map_cons]
    · rw [List.map_cons, ih, List.map_cons]

theorem getElem?_modify (k : K) (f : A → A) (l : List A) (i : ℕ) :
    (modify key k f l)[i]? = l[i]?.map fun a =>
      if key a = k ∧ k ∉ (l.take i).map key then f a else a := by
  induction l generalizing i with
  | nil => rfl
  | cons a l ih =>
    rw [modify]
    cases i with
    | zero =>
      rw [List.getElem?_cons_zero, List.take_zero, map_some]
      by_cases ha : key a = k
      · rw [if_pos ha, List.getElem?_cons_zero, if_pos ⟨ha, List.not_mem_nil⟩]
      · rw [if_neg ha, List.getElem?_cons_zero, if_neg fun h => ha h.1]
    | succ i =>
      rw [List.getElem?_cons_succ, List.take_succ_cons, List.map_cons]
      by_cases ha : key a = k
      · have hmem : k ∈ key a :: (l.take i).map key := by
          rw [ha]
          exact List.mem_cons_self
        simp only [if_pos ha, List.getElem?_cons_succ, hmem, not_true_eq_false, and_false,
          if_false, map_id']
      · have hmem : k ∈ key a :: (l.take i).map key ↔ k ∈ (l.take i).map key :=
          List.mem_cons.trans (or_iff_right (Ne.symm ha))
        rw [if_neg ha, List.getElem?_cons_succ, ih]
        simp only [hmem]

theorem updated_cons_of_eq {u : K × (A → A)} {updates : List (K × (A → A))} {a : A}
    (hkey : u.1 = key a) (hu : key (u.2 a) = key a) :
    updated key (u :: updates) a = updated key updates (u.2 a) := by
  unfold updated
  rw [hu, List.filter_cons]
  simp only [hkey, decide_true, if_true, List.foldl_cons]

theorem updated_cons_of_ne {u : K × (A → A)} {updates : List (K × (A → A))} {a : A}
    (hkey : u.1 ≠ key a) : updated key (u :: updates) a = updated key updates a := by
  unfold updated
  rw [List.filter_cons]
  simp only [hkey, decide_false, Bool.false_eq_true, if_false]

theorem key_updated (key : A → K) {updates : List (K × (A → A))}
    (hkeep : ∀ u ∈ updates, ∀ a, key (u.2 a) = key a) (a : A) :
    key (updated key updates a) = key a := by
  induction updates generalizing a with
  | nil => rfl
  | cons u updates ih =>
    obtain ⟨hu, hupdates⟩ := List.forall_mem_cons.mp hkeep
    by_cases ha : u.1 = key a
    · rw [updated_cons_of_eq ha (hu a), ih hupdates, hu]
    · rw [updated_cons_of_ne ha, ih hupdates]

theorem map_key_modifyAll {updates : List (K × (A → A))}
    (hkeep : ∀ u ∈ updates, ∀ a, key (u.2 a) = key a) :
    (modifyAll key updates l).map key = l.map key := by
  induction updates generalizing l with
  | nil => rfl
  | cons u updates ih =>
    obtain ⟨hu, hupdates⟩ := List.forall_mem_cons.mp hkeep
    have hrest := ih (l := modify key u.1 u.2 l) hupdates
    exact hrest.trans (map_key_modify hu)

/-- Updates that keep the keys act on the first elements of their keys, and on no other. -/
theorem getElem?_modifyAll {updates : List (K × (A → A))}
    (hkeep : ∀ u ∈ updates, ∀ a, key (u.2 a) = key a) (l : List A) (i : ℕ) :
    (modifyAll key updates l)[i]? = l[i]?.map fun a =>
      if key a ∈ (l.take i).map key then a else updated key updates a := by
  induction updates generalizing l with
  | nil =>
    have hid : (fun a => if key a ∈ (l.take i).map key then a else updated key [] a) = id := by
      funext a
      exact ite_self a
    rw [hid, map_id]
    rfl
  | cons u updates ih =>
    obtain ⟨hu, hupdates⟩ := List.forall_mem_cons.mp hkeep
    have hstep : modifyAll key (u :: updates) l = modifyAll key updates (modify key u.1 u.2 l) := rfl
    have hkeys : ((modify key u.1 u.2 l).take i).map key = (l.take i).map key := by
      rw [List.map_take, map_key_modify hu, List.map_take]
    rw [hstep, ih hupdates, hkeys, getElem?_modify, map_map]
    refine congrArg (l[i]?.map ·) ?_
    funext a
    rw [Function.comp_apply]
    by_cases ha : key a = u.1
    · rw [← ha]
      have hcons : updated key (u :: updates) a = updated key updates (u.2 a) :=
        updated_cons_of_eq ha.symm (hu a)
      by_cases hmem : key a ∈ (l.take i).map key
      · simp only [hmem, not_true_eq_false, and_false, if_false, if_true]
      · simp only [hmem, not_false_eq_true, and_self, if_true, hu, if_false, hcons]
    · simp only [ha, false_and, if_false, updated_cons_of_ne (Ne.symm ha)]

theorem modifyAll_append (updates updates' : List (K × (A → A))) (l : List A) :
    modifyAll key (updates ++ updates') l = modifyAll key updates' (modifyAll key updates l) :=
  List.foldl_append

theorem exists_first {l : List K} (h : k ∈ l) : ∃ i, l[i]? = some k ∧ k ∉ l.take i := by
  induction l with
  | nil => exact absurd h List.not_mem_nil
  | cons a l ih =>
    by_cases ha : a = k
    · exact ⟨0, congrArg some ha, List.not_mem_nil⟩
    · obtain ⟨i, hi, htake⟩ := ih ((List.mem_cons.mp h).resolve_left (Ne.symm ha))
      refine ⟨i + 1, hi, fun hmem => ?_⟩
      rcases List.mem_cons.mp hmem with heq | hmem
      · exact ha heq.symm
      · exact htake hmem

/-- A key that comes twice comes at a position that is not its first one. -/
theorem one_lt_count_iff {l : List K} : 1 < l.count k ↔ ∃ i, l[i]? = some k ∧ k ∈ l.take i := by
  induction l with
  | nil => simp
  | cons a l ih =>
    by_cases ha : a = k
    · subst ha
      rw [List.count_cons_self, Nat.lt_add_left_iff_pos, List.count_pos_iff]
      constructor
      · intro hmem
        obtain ⟨i, hi⟩ := List.mem_iff_getElem?.mp hmem
        exact ⟨i + 1, hi, List.mem_cons_self⟩
      · rintro ⟨i, hi, htake⟩
        cases i with
        | zero => exact absurd htake List.not_mem_nil
        | succ i => exact List.mem_iff_getElem?.mpr ⟨i, hi⟩
    · rw [List.count_cons_of_ne ha, ih]
      constructor
      · rintro ⟨i, hi, htake⟩
        exact ⟨i + 1, hi, List.mem_cons_of_mem a htake⟩
      · rintro ⟨i, hi, htake⟩
        cases i with
        | zero => exact absurd htake List.not_mem_nil
        | succ i =>
          have htake := (List.mem_cons.mp htake).resolve_left (Ne.symm ha)
          exact ⟨i, hi, htake⟩

theorem not_mem_take_of_nodup {l : List K} (h : l.Nodup) {i : ℕ} (hi : l[i]? = some k) :
    k ∉ l.take i := by
  intro hmem
  have hcount := one_lt_count_iff.mpr ⟨i, hi, hmem⟩
  exact absurd (List.nodup_iff_count_le_one.mp h k) (Nat.not_le_of_lt hcount)

end FirstMatch
