import Mathlib.Data.List.Dedup
import Mathlib.Data.List.Perm.Basic

/-! Maps as the list of the inserts that made them. Of several inserts under one key the last one
counts, so inserts that agree on a key can come in any order. -/

namespace Inserts
open List Option
variable {K V W : Type*} [DecidableEq K] {log log' : List (K × V)} {k : K} {v : V}

def get (log : List (K × V)) (k : K) : Option V := (log.reverse.find? fun e => e.1 = k).map Prod.snd

theorem get_append : get (log ++ log') k = (get log' k).or (get log k) := by
  rw [get, reverse_append, find?_append]
  cases h : log'.reverse.find? fun e => e.1 = k with
  | none => simp [get, h]
  | some e => simp [get, h]

theorem mem_of_get (h : get log k = some v) : (k, v) ∈ log := by
  obtain ⟨e, he, rfl⟩ := map_eq_some_iff.mp h
  have hk : e.1 = k := by simpa using find?_some he
  rw [← hk]
  exact mem_reverse.mp (mem_of_find?_eq_some he)

theorem get_eq_none : get log k = none ↔ ∀ v, (k, v) ∉ log := by
  rw [get, map_eq_none_iff, find?_eq_none]
  constructor
  · intro h v hv
    exact h (k, v) (mem_reverse.mpr hv) (by simp)
  · rintro h ⟨k', v⟩ hv hk
    have hk : k' = k := by simpa using hk
    subst hk
    exact h v (mem_reverse.mp hv)

theorem isSome_get : (get log k).isSome ↔ ∃ v, (k, v) ∈ log := by
  rw [← ne_none_iff_isSome, Ne, get_eq_none]
  push Not
  rfl

theorem get_of_agree (hmem : (k, v) ∈ log) (hagree : ∀ v', (k, v') ∈ log → v' = v) :
    get log k = some v := by
  cases h : get log k with
  | none => exact absurd hmem (get_eq_none.mp h v)
  | some v' => rw [hagree v' (mem_of_get h)]

theorem exists_get_of_get_flatMap {A : Type*} {l : List A} {f : A → List (K × V)}
    (h : get (l.flatMap f) k = some v) : ∃ a ∈ l, get (f a) k = some v := by
  induction l with
  | nil => exact absurd (mem_of_get h) not_mem_nil
  | cons a l ih =>
    rw [flatMap_cons, get_append] at h
    cases hrest : get (l.flatMap f) k with
    | none =>
      rw [hrest, none_or] at h
      exact ⟨a, mem_cons_self, h⟩
    | some v' =>
      rw [hrest, some_or] at h
      obtain ⟨b, hb, hget⟩ := ih (hrest.trans h)
      exact ⟨b, mem_cons_of_mem a hb, hget⟩

/-- The keys with their values. -/
def entries (log : List (K × V)) : List (K × V) :=
  (log.map Prod.fst).dedup.filterMap fun k => (get log k).map fun v => (k, v)

theorem mem_entries : (k, v) ∈ entries log ↔ get log k = some v := by
  constructor
  · intro h
    obtain ⟨k', -, h⟩ := mem_filterMap.mp h
    obtain ⟨v', hv', heq⟩ := map_eq_some_iff.mp h
    obtain ⟨rfl, rfl⟩ := Prod.mk.inj heq
    exact hv'
  · intro h
    refine mem_filterMap.mpr ⟨k, ?_, by rw [h, map_some]⟩
    exact mem_dedup.mpr (List.mem_map_of_mem (mem_of_get h))

theorem get_entries : get (entries log) k = get log k := by
  cases h : get log k with
  | none =>
    refine get_eq_none.mpr fun v hv => ?_
    rw [mem_entries, h] at hv
    exact nomatch hv
  | some v =>
    refine get_of_agree (mem_entries.mpr h) fun v' hv' => ?_
    rw [mem_entries, h] at hv'
    exact (some.inj hv').symm

theorem get_filterMap_entries {f : V → Option W} {g : K × V → Option (K × W)}
    (hg : ∀ k v, g (k, v) = (f v).map (k, ·)) :
    get ((entries log).filterMap g) k = (get log k).bind f := by
  have hmem : ∀ w, (k, w) ∈ (entries log).filterMap g ↔ (get log k).bind f = some w := by
    intro w
    constructor
    · intro h
      obtain ⟨⟨k', v⟩, hv, h⟩ := mem_filterMap.mp h
      rw [hg] at h
      obtain ⟨w', hw', heq⟩ := map_eq_some_iff.mp h
      obtain ⟨rfl, rfl⟩ := Prod.mk.inj heq
      exact bind_eq_some_iff.mpr ⟨v, mem_entries.mp hv, hw'⟩
    · intro h
      obtain ⟨v, hv, hw⟩ := bind_eq_some_iff.mp h
      exact mem_filterMap.mpr ⟨(k, v), mem_entries.mpr hv, by rw [hg, hw, map_some]⟩
  cases h : (get log k).bind f with
  | none =>
    refine get_eq_none.mpr fun w hw => ?_
    rw [hmem, h] at hw
    exact nomatch hw
  | some w =>
    refine get_of_agree ((hmem w).mpr h) fun w' hw' => ?_
    rw [hmem, h] at hw'
    exact (some.inj hw').symm

end Inserts
