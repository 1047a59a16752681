import Mathlib.Data.List.Destutter
import Mathlib.Data.List.Infix

/-! Neighbours in a list of which some elements are dropped first. What is left of two neighbours
need not be neighbours before; pairs that are all different tell the two apart. -/

namespace Pairing
variable {M N : Type*} {l : List N} {a b y : N}

def windows (l : List N) : List (N × N) := l.zip l.tail

@[simp] theorem windows_cons_cons : windows (a :: b :: l) = (a, b) :: windows (b :: l) := rfl

theorem mem_windows : (a, b) ∈ windows l ↔ [a, b] <:+: l := by
  induction l with
  | nil => simp [windows]
  | cons c l ih =>
    cases l with
    | nil => simp [windows, List.infix_cons_iff]
    | cons d l =>
      rw [windows_cons_cons, List.mem_cons, ih, @List.infix_cons_iff _ _ c (d :: l)]
      simp

section Spans
variable (f : M → Option N)

/-- The neighbours after an element that is kept, and whether they were neighbours before. -/
def spansFrom (last : N) (direct : Bool) : List M → List ((N × N) × Bool)
  | [] => []
  | m :: ms => match f m with
    | none => spansFrom last false ms
    | some x => ((last, x), direct) :: spansFrom x true ms

def spans : List M → List ((N × N) × Bool)
  | [] => []
  | m :: ms => match f m with
    | none => spans ms
    | some x => spansFrom f x true ms

def both (p : M × M) : Option (N × N) := (f p.1).bind fun x => (f p.2).map fun y => (x, y)

variable {f} {ms : List M} {p : N × N} {direct : Bool}

theorem map_fst_spansFrom (last : N) (direct : Bool) :
    (spansFrom f last direct ms).map Prod.fst = windows (last :: ms.filterMap f) := by
  induction ms generalizing last direct with
  | nil => rfl
  | cons m ms ih =>
    unfold spansFrom
    cases h : f m with
    | none => simpa [h] using ih last false
    | some x => simp [h, ih x true]

theorem map_fst_spans : (spans f ms).map Prod.fst = windows (ms.filterMap f) := by
  induction ms with
  | nil => rfl
  | cons m ms ih =>
    unfold spans
    cases h : f m with
    | none => simpa [h] using ih
    | some x => simpa [h] using map_fst_spansFrom x true

theorem filter_spansFrom (last : M) {x : N} (hlast : f last = some x) :
    ((spansFrom f x true ms).filter (·.2)).map Prod.fst =
      (windows (last :: ms)).filterMap (both f) ∧
    ((spansFrom f x false ms).filter (·.2)).map Prod.fst = (windows ms).filterMap (both f) := by
  induction ms generalizing last x with
  | nil => exact ⟨rfl, rfl⟩
  | cons m ms ih =>
    rw [windows_cons_cons, List.filterMap_cons, both, hlast]
    unfold spansFrom
    cases h : f m with
    | none =>
      have hskip : (windows (m :: ms)).filterMap (both f) = (windows ms).filterMap (both f) := by
        cases ms with
        | nil => rfl
        | cons m' ms => simp [both, h]
      simp only [Option.bind_some, Option.map_none, hskip]
      exact ⟨(ih last hlast).2, (ih last hlast).2⟩
    | some y =>
      have hnext := (ih m h).1
      constructor
      · simpa [h] using hnext
      · simpa [h] using hnext

theorem filter_spans :
    ((spans f ms).filter (·.2)).map Prod.fst = (windows ms).filterMap (both f) := by
  induction ms with
  | nil => rfl
  | cons m ms ih =>
    unfold spans
    cases h : f m with
    | none =>
      cases ms with
      | nil => rfl
      | cons m' ms =>
        rw [windows_cons_cons, List.filterMap_cons]
        simpa [both, h] using ih
    | some x => exact (filter_spansFrom m h).1

def Next (f : M → Option N) (ms : List M) (y : N) (xs : List M) : Prop :=
  ∃ b, xs ++ [b] <+: ms ∧ f b = some y ∧ ∀ c ∈ xs, f c = none

/-- Two elements that are kept, with nothing between them that is. -/
def Spans (f : M → Option N) (ms : List M) (p : N × N) (xs : List M) : Prop :=
  ∃ a b, a :: (xs ++ [b]) <:+: ms ∧ f a = some p.1 ∧ f b = some p.2 ∧ ∀ c ∈ xs, f c = none

variable {m : M} {xs : List M}

theorem next_cons_of_none (hm : f m = none) :
    Next f (m :: ms) y xs ↔ ∃ zs, xs = m :: zs ∧ Next f ms y zs := by
  constructor
  · rintro ⟨b, hpre, hb, hxs⟩
    cases xs with
    | nil =>
      obtain ⟨rfl, -⟩ := List.cons_prefix_cons.mp hpre
      simp [hm] at hb
    | cons c zs =>
      obtain ⟨rfl, hpre'⟩ := List.cons_prefix_cons.mp hpre
      exact ⟨zs, rfl, b, hpre', hb, fun c hc => hxs c (List.mem_cons_of_mem _ hc)⟩
  · rintro ⟨zs, rfl, b, hpre, hb, hzs⟩
    exact ⟨b, List.cons_prefix_cons.mpr ⟨rfl, hpre⟩, hb, List.forall_mem_cons.mpr ⟨hm, hzs⟩⟩

theorem next_cons_of_some {x : N} (hm : f m = some x) :
    Next f (m :: ms) y xs ↔ xs = [] ∧ x = y := by
  constructor
  · rintro ⟨b, hpre, hb, hxs⟩
    cases xs with
    | nil =>
      obtain ⟨rfl, -⟩ := List.cons_prefix_cons.mp hpre
      exact ⟨rfl, Option.some.inj (hm.symm.trans hb)⟩
    | cons c zs =>
      obtain ⟨rfl, -⟩ := List.cons_prefix_cons.mp hpre
      simp [hxs c List.mem_cons_self] at hm
  · rintro ⟨rfl, rfl⟩
    exact ⟨m, List.prefix_append [m] ms, hm, by simp⟩

theorem spans_cons : Spans f (m :: ms) p xs ↔
    f m = some p.1 ∧ Next f ms p.2 xs ∨ Spans f ms p xs := by
  constructor
  · rintro ⟨a, b, hinf, ha, hb, hxs⟩
    rcases List.infix_cons_iff.mp hinf with hpre | hinf
    · obtain ⟨rfl, hpre'⟩ := List.cons_prefix_cons.mp hpre
      exact .inl ⟨ha, b, hpre', hb, hxs⟩
    · exact .inr ⟨a, b, hinf, ha, hb, hxs⟩
  · rintro (⟨ha, b, hpre, hb, hxs⟩ | ⟨a, b, hinf, h⟩)
    · have hpre : m :: (xs ++ [b]) <+: m :: ms := List.cons_prefix_cons.mpr ⟨rfl, hpre⟩
      exact ⟨m, b, hpre.isInfix, ha, hb, hxs⟩
    · exact ⟨a, b, List.infix_cons_iff.mpr (.inr hinf), h⟩

theorem mem_spansFrom {last : N} {d : Bool} : (p, direct) ∈ spansFrom f last d ms ↔
    (last = p.1 ∧ ∃ xs, Next f ms p.2 xs ∧ direct = (d && xs.isEmpty)) ∨
      ∃ xs, Spans f ms p xs ∧ direct = xs.isEmpty := by
  induction ms generalizing last d with
  | nil => simp [spansFrom, Next, Spans]
  | cons m ms ih =>
    unfold spansFrom
    cases hm : f m with
    | none =>
      simp only [ih, spans_cons, next_cons_of_none hm, hm]
      simp
    | some x =>
      simp only [List.mem_cons, ih, spans_cons, next_cons_of_some hm, hm]
      obtain ⟨p₁, p₂⟩ := p
      simp only [Prod.mk.injEq, Option.some.injEq, Bool.true_and]
      constructor
      · rintro (⟨⟨rfl, rfl⟩, rfl⟩ | ⟨rfl, xs, hnext, hd⟩ | ⟨xs, hspans, hd⟩)
        · exact .inl ⟨rfl, [], ⟨rfl, rfl⟩, by simp⟩
        · exact .inr ⟨xs, .inl ⟨rfl, hnext⟩, hd⟩
        · exact .inr ⟨xs, .inr hspans, hd⟩
      · rintro (⟨rfl, xs, ⟨rfl, rfl⟩, hd⟩ | ⟨xs, ⟨rfl, hnext⟩ | hspans, hd⟩)
        · exact .inl ⟨⟨rfl, rfl⟩, by simpa using hd⟩
        · exact .inr (.inl ⟨rfl, xs, hnext, hd⟩)
        · exact .inr (.inr ⟨xs, hspans, hd⟩)

theorem mem_spans : (p, direct) ∈ spans f ms ↔ ∃ xs, Spans f ms p xs ∧ direct = xs.isEmpty := by
  induction ms with
  | nil => simp [spans, Spans]
  | cons m ms ih =>
    unfold spans
    cases hm : f m with
    | none => simp [ih, spans_cons, hm]
    | some x =>
      simp only [mem_spansFrom, spans_cons, hm, Option.some.injEq, Bool.true_and]
      constructor
      · rintro (⟨rfl, xs, hnext, hd⟩ | ⟨xs, hspans, hd⟩)
        · exact ⟨xs, .inl ⟨rfl, hnext⟩, hd⟩
        · exact ⟨xs, .inr hspans, hd⟩
      · rintro ⟨xs, ⟨rfl, hnext⟩ | hspans, hd⟩
        · exact .inl ⟨rfl, xs, hnext, hd⟩
        · exact .inr ⟨xs, hspans, hd⟩

theorem mem_windows_filterMap : p ∈ windows (ms.filterMap f) ↔ ∃ xs, Spans f ms p xs := by
  rw [← map_fst_spans, List.mem_map]
  constructor
  · rintro ⟨s, hs, rfl⟩
    obtain ⟨xs, hspans, -⟩ := mem_spans.mp hs
    exact ⟨xs, hspans⟩
  · rintro ⟨xs, hspans⟩
    exact ⟨(p, xs.isEmpty), mem_spans.mpr ⟨xs, hspans, rfl⟩, rfl⟩

/-- Pairs that are all different come from neighbours if and only if there is no gap under them. -/
theorem direct_nodup_iff (q : N × N → Bool) :
    (∀ p ∈ (windows (ms.filterMap f)).filter q, Spans f ms p []) ∧
        ((windows (ms.filterMap f)).filter q).Nodup ↔
      (∀ p xs, Spans f ms p xs → q p → xs = []) ∧
        (((windows ms).filterMap (both f)).filter q).Nodup := by
  have hfst : (windows (ms.filterMap f)).filter q =
      ((spans f ms).filter fun s => q s.1).map Prod.fst := by
    rw [← map_fst_spans, List.filter_map]
    rfl
  have hdirect : ((windows ms).filterMap (both f)).filter q =
      (((spans f ms).filter fun s => q s.1).filter (·.2)).map Prod.fst := by
    rw [← filter_spans, List.filter_map, List.filter_comm]
    rfl
  have hsame (h : ∀ p xs, Spans f ms p xs → q p → xs = []) :
      ((windows ms).filterMap (both f)).filter q = (windows (ms.filterMap f)).filter q := by
    rw [hdirect, hfst]
    refine congrArg _ (List.filter_eq_self.mpr fun s hs => ?_)
    obtain ⟨hs, hq⟩ := List.mem_filter.mp hs
    obtain ⟨xs, hspans, hd⟩ := mem_spans.mp hs
    simpa [h s.1 xs hspans hq] using hd
  constructor
  · rintro ⟨hfrom, hnodup⟩
    have hgap (p : N × N) (xs : List M) (hspans : Spans f ms p xs) (hq : q p) : xs = [] := by
      have hmem : (p, xs.isEmpty) ∈ (spans f ms).filter fun s => q s.1 :=
        List.mem_filter.mpr ⟨mem_spans.mpr ⟨xs, hspans, rfl⟩, hq⟩
      have hp : p ∈ (windows (ms.filterMap f)).filter q := by
        rw [hfst]
        exact List.mem_map_of_mem hmem
      have hmem' : (p, true) ∈ (spans f ms).filter fun s => q s.1 :=
        List.mem_filter.mpr ⟨mem_spans.mpr ⟨[], hfrom p hp, rfl⟩, hq⟩
      rw [hfst] at hnodup
      have heq := List.inj_on_of_nodup_map hnodup hmem hmem' rfl
      simpa using congrArg Prod.snd heq
    exact ⟨hgap, hsame hgap ▸ hnodup⟩
  · rintro ⟨hgap, hnodup⟩
    rw [hsame hgap] at hnodup
    refine ⟨fun p hp => ?_, hnodup⟩
    rw [hfst] at hp
    obtain ⟨s, hs, rfl⟩ := List.mem_map.mp hp
    obtain ⟨hs, hq⟩ := List.mem_filter.mp hs
    obtain ⟨xs, hspans, -⟩ := mem_spans.mp hs
    exact hgap s.1 xs hspans hq ▸ hspans

end Spans

section Destutter
variable [DecidableEq N]

theorem destutter'_eq_cons (a : N) (l : List N) : ∃ t, l.destutter' (· ≠ ·) a = a :: t := by
  induction l generalizing a with
  | nil => exact ⟨[], rfl⟩
  | cons b l ih =>
    by_cases h : a ≠ b
    · exact ⟨_, List.destutter'_cons_pos l h⟩
    · rw [List.destutter'_cons_neg l h]
      exact ih a

theorem windows_destutter' (a : N) (l : List N) :
    windows (l.destutter' (· ≠ ·) a) = (windows (a :: l)).filter fun p => p.1 ≠ p.2 := by
  induction l generalizing a with
  | nil => rfl
  | cons b l ih =>
    rw [windows_cons_cons]
    by_cases h : a ≠ b
    · obtain ⟨t, ht⟩ := destutter'_eq_cons b l
      have hb := ih b
      rw [ht] at hb
      rw [List.destutter'_cons_pos l h, ht, windows_cons_cons, hb, List.filter_cons_of_pos (by simpa)]
    · obtain rfl := not_not.mp h
      rw [List.destutter'_cons_neg l h, ih, List.filter_cons_of_neg (by simp)]

theorem windows_destutter :
    windows (l.destutter (· ≠ ·)) = (windows l).filter fun p => p.1 ≠ p.2 := by
  cases l with
  | nil => rfl
  | cons a l => exact windows_destutter' a l

theorem mem_destutter' : b ∈ l.destutter' (· ≠ ·) a ↔ b ∈ a :: l := by
  induction l generalizing a with
  | nil => simp
  | cons c l ih =>
    by_cases h : a ≠ c
    · rw [List.destutter'_cons_pos l h, List.mem_cons, ih, List.mem_cons (b := a)]
    · obtain rfl := not_not.mp h
      rw [List.destutter'_cons_neg l h, ih]
      simp

theorem mem_destutter : b ∈ l.destutter (· ≠ ·) ↔ b ∈ l := by
  cases l with
  | nil => rfl
  | cons a l => exact mem_destutter'

open List in
theorem twice_destutter' : [b, b] <+ l.destutter' (· ≠ ·) a ↔ ∃ c, c ≠ b ∧ [b, c, b] <+ a :: l := by
  induction l generalizing a with
  | nil => simp
  | cons d l ih =>
    by_cases h : a ≠ d
    · rw [destutter'_cons_pos l h, cons_sublist_cons', singleton_sublist, mem_destutter', ih]
      constructor
      · rintro (⟨c, hc, hsub⟩ | ⟨rfl, hmem⟩)
        · exact ⟨c, hc, hsub.cons _⟩
        · have hmem : b ∈ l := by simpa [h] using hmem
          exact ⟨d, h.symm, by simpa using hmem⟩
      · rintro ⟨c, hc, hsub⟩
        rcases cons_sublist_cons'.mp hsub with hsub | ⟨rfl, htail⟩
        · exact .inl ⟨c, hc, hsub⟩
        · have hmem : b ∈ [c, b] := by simp
          exact .inr ⟨rfl, htail.subset hmem⟩
    · obtain rfl := not_not.mp h
      rw [destutter'_cons_neg l h, ih]
      refine exists_congr fun c => and_congr_right fun hc => ?_
      constructor
      · intro hsub
        exact hsub.cons _
      · intro hsub
        rcases cons_sublist_cons'.mp hsub with hsub | ⟨rfl, hsub⟩
        · exact hsub
        · rcases cons_sublist_cons'.mp hsub with hsub | ⟨heq, -⟩
          · exact hsub.cons_cons b
          · exact absurd heq hc

theorem twice_destutter : List.Sublist [b, b] (l.destutter (· ≠ ·)) ↔
    ∃ c, c ≠ b ∧ List.Sublist [b, c, b] l := by
  cases l with
  | nil => simp
  | cons a l => exact twice_destutter'

end Destutter

end Pairing
