import Mathlib.Data.Set.Basic

/-! Labelled transition systems whose labels carry every choice of the environment, so that a step
is a partial function. An assumption on the environment is a condition on a label in the state
before its step. -/

structure Lts (S L : Type*) where
  init : S
  step : S → L → Option S

namespace Lts
open List Option
variable {S L : Type*} (T : Lts S L)

/-- The states reached by steps that all satisfy `ok` in the state before them. -/
inductive ReachableVia (ok : S → L → Prop) : S → Prop
  | init : ReachableVia ok T.init
  | step {s s' : S} {l : L} (hs : ReachableVia ok s) (hok : ok s l)
      (h : T.step s l = some s') : ReachableVia ok s'

def Reachable : S → Prop := T.ReachableVia fun _ _ => True

def run : S → List L → Option S
  | s, [] => some s
  | s, l :: ls => (T.step s l).bind fun s' => run s' ls

/-- `P` holds in every state that the run of `ls` from `s` visits. -/
def Always (P : S → Prop) : S → List L → Prop
  | s, [] => P s
  | s, l :: ls => P s ∧ ∀ s', T.step s l = some s' → Always P s' ls

/-- Every step of the run of `ls` from `s` satisfies `ok` in the state before it. -/
def Guarded (ok : S → L → Prop) : S → List L → Prop
  | _, [] => True
  | s, l :: ls => ok s l ∧ ∀ s', T.step s l = some s' → Guarded ok s' ls

/-- The steps of the run of `ls` from `s`, each with the state before it, up to the first label
that cannot be done. -/
def steps : S → List L → List (S × L)
  | _, [] => []
  | s, l :: ls => match T.step s l with
    | some s' => (s, l) :: steps s' ls
    | none => []

/-- `T` with a history variable: `record` says what a step adds to it. -/
def withHistory {H : Type*} (h₀ : H) (record : S → L → S → H → H) : Lts (S × H) L where
  init := (T.init, h₀)
  step t l := (T.step t.1 l).map fun s' => (s', record t.1 l s' t.2)

variable {T} {ok : S → L → Prop}

theorem step_withHistory {H : Type*} {h₀ : H} {record : S → L → S → H → H} {t t' : S × H} {l : L}
    (h : (T.withHistory h₀ record).step t l = some t') :
    T.step t.1 l = some t'.1 ∧ t'.2 = record t.1 l t'.1 t.2 := by
  obtain ⟨s', hs', rfl⟩ := map_eq_some_iff.mp h
  exact ⟨hs', rfl⟩

theorem steps_of_some {s s' : S} {l : L} (h : T.step s l = some s') (ls : List L) :
    T.steps s (l :: ls) = (s, l) :: T.steps s' ls := by
  rw [steps, h]

theorem steps_of_none {s : S} {l : L} (h : T.step s l = none) (ls : List L) :
    T.steps s (l :: ls) = [] := by
  rw [steps, h]

theorem ReachableVia.mono {ok' : S → L → Prop} (h : ∀ s l, ok s l → ok' s l) {s : S}
    (hs : T.ReachableVia ok s) : T.ReachableVia ok' s := by
  induction hs with
  | init => exact .init
  | step _ hok hstep ih => exact .step ih (h _ _ hok) hstep

theorem ReachableVia.invariant {P : S → Prop} (hinit : P T.init)
    (hstep : ∀ s l s', T.ReachableVia ok s → P s → ok s l → T.step s l = some s' → P s')
    {s : S} (hs : T.ReachableVia ok s) : P s := by
  induction hs with
  | init => exact hinit
  | step hs hok h ih => exact hstep _ _ _ hs ih hok h

theorem guarded_true (s : S) (ls : List L) : T.Guarded (fun _ _ => True) s ls := by
  induction ls generalizing s with
  | nil => trivial
  | cons l ls ih => exact ⟨trivial, fun s' _ => ih s'⟩

theorem invariant_of_guarded {P : S → Prop} {ls : List L} {s s' : S} (hs : P s)
    (hstep : ∀ l ∈ ls, ∀ s s', P s → ok s l → T.step s l = some s' → P s')
    (hg : T.Guarded ok s ls) (h : ls.foldlM T.step s = some s') : P s' := by
  induction ls generalizing s with
  | nil =>
    cases h
    exact hs
  | cons l ls ih =>
    rw [foldlM_cons] at h
    obtain ⟨t, ht, hrun⟩ := bind_eq_some_iff.mp h
    have hrest := fun l' hl' => hstep l' (mem_cons_of_mem l hl')
    exact ih (hstep l mem_cons_self s t hs hg.1 ht) hrest (hg.2 t ht) hrun

theorem invariant_of_foldlM {f : S → L → Option S} {P : S → Prop} {ls : List L} {s s' : S}
    (hs : P s) (hstep : ∀ l ∈ ls, ∀ s s', P s → f s l = some s' → P s')
    (h : ls.foldlM f s = some s') : P s' :=
  invariant_of_guarded (T := ⟨s, f⟩) hs (fun l hl u u' hu _ => hstep l hl u u' hu)
    (guarded_true s ls) h

/-- A loop whose turns can fail, with all that the turns before the failing one have done, and
whether it came to its end. -/
def foldUntil (f : S → L → Option S) : S → List L → S × Bool
  | s, [] => (s, true)
  | s, l :: ls => match f s l with
    | some s' => foldUntil f s' ls
    | none => (s, false)

theorem invariant_of_foldUntil {f : S → L → Option S} {P : S → Prop} {ls : List L} {s : S}
    (hs : P s) (hstep : ∀ l ∈ ls, ∀ s s', P s → f s l = some s' → P s') :
    P (foldUntil f s ls).1 := by
  induction ls generalizing s with
  | nil => exact hs
  | cons l ls ih =>
    have hrest := fun l' hl' => hstep l' (mem_cons_of_mem l hl')
    rw [foldUntil]
    cases hturn : f s l with
    | none => exact hs
    | some s' => exact ih (hstep l mem_cons_self s s' hs hturn) hrest

theorem foldUntil_of_guarded {s : S} {ls : List L}
    (h : T.Guarded (fun s l => T.step s l ≠ none) s ls) : (foldUntil T.step s ls).2 = true := by
  induction ls generalizing s with
  | nil => rfl
  | cons l ls ih =>
    obtain ⟨hturn, hrest⟩ := h
    rw [foldUntil]
    cases hstep : T.step s l with
    | none => exact absurd hstep hturn
    | some s' => exact ih (hrest s' hstep)

theorem reachableVia_of_run {s s' : S} {ls : List L} (hs : T.ReachableVia ok s)
    (hg : T.Guarded ok s ls) (h : T.run s ls = some s') : T.ReachableVia ok s' := by
  induction ls generalizing s with
  | nil =>
    cases h
    exact hs
  | cons l ls ih =>
    obtain ⟨t, ht, hrun⟩ := bind_eq_some_iff.mp h
    exact ih (.step hs hg.1 ht) (hg.2 t ht) hrun

instance decidableGuarded [∀ s l, Decidable (ok s l)] :
    (s : S) → (ls : List L) → Decidable (T.Guarded ok s ls)
  | _, [] => isTrue trivial
  | s, l :: ls =>
    match h : T.step s l with
    | none => decidable_of_iff (ok s l) ⟨fun hok => ⟨hok, fun _ hs' => nomatch h.symm.trans hs'⟩,
        And.left⟩
    | some s' =>
      have := decidableGuarded s' ls
      decidable_of_iff (ok s l ∧ T.Guarded ok s' ls)
        ⟨fun hg => ⟨hg.1, fun _ hs' => Option.some.inj (h.symm.trans hs') ▸ hg.2⟩,
          fun hg => ⟨hg.1, hg.2 s' h⟩⟩

theorem guarded_congr {ok' : S → L → Prop} (h : ∀ s l, ok s l ↔ ok' s l) (s : S) (ls : List L) :
    T.Guarded ok s ls ↔ T.Guarded ok' s ls := by
  induction ls generalizing s with
  | nil => exact Iff.rfl
  | cons l ls ih => exact and_congr (h s l) (forall₂_congr fun s' _ => ih s')

theorem guarded_of_append {s s' : S} {ls ls' : List L} (hg : T.Guarded ok s (ls ++ ls'))
    (h : T.run s ls = some s') : T.Guarded ok s' ls' := by
  induction ls generalizing s with
  | nil =>
    cases h
    exact hg
  | cons l ls ih =>
    obtain ⟨t, ht, hrun⟩ := bind_eq_some_iff.mp h
    exact ih (hg.2 t ht) hrun

theorem exists_step_of_run {P : S → Prop} {Q : L → Prop}
    (hstep : ∀ s l s', ok s l → T.step s l = some s' → P s → ¬P s' → Q l)
    {s s' : S} {ls : List L} (hg : T.Guarded ok s ls) (h : T.run s ls = some s') (hs : P s)
    (hs' : ¬P s') : ∃ l ∈ ls, Q l := by
  induction ls generalizing s with
  | nil =>
    cases h
    exact absurd hs hs'
  | cons l ls ih =>
    obtain ⟨t, ht, hrun⟩ := bind_eq_some_iff.mp h
    by_cases hPt : P t
    · obtain ⟨l', hl', hQ⟩ := ih (hg.2 t ht) hrun hPt
      exact ⟨l', mem_cons_of_mem l hl', hQ⟩
    · exact ⟨l, mem_cons_self, hstep s l t hg.1 ht hs hPt⟩

theorem reachable_of_run {s : S} {ls : List L} (h : T.run T.init ls = some s) : T.Reachable s :=
  reachableVia_of_run .init (guarded_true _ _) h

theorem Always.head {P : S → Prop} {s : S} {ls : List L} (h : T.Always P s ls) : P s := by
  cases ls with
  | nil => exact h
  | cons => exact h.1

theorem always_congr {P Q : S → Prop} (h : ∀ s, P s ↔ Q s) (s : S) (ls : List L) :
    T.Always P s ls ↔ T.Always Q s ls := by
  induction ls generalizing s with
  | nil => exact h s
  | cons l ls ih => exact and_congr (h s) (forall₂_congr fun s' _ => ih s')

/-- When a step from a good state reaches a good state exactly if it satisfies `ok`, the runs
that visit only good states are exactly the runs whose steps all satisfy `ok`. -/
theorem always_iff_guarded {P : S → Prop} (hinit : P T.init)
    (hstep : ∀ s l s', T.Reachable s → P s → T.step s l = some s' → (P s' ↔ ok s l))
    {ls : List L} {s' : S} (h : T.run T.init ls = some s') :
    T.Always P T.init ls ↔ T.Guarded ok T.init ls := by
  suffices key : ∀ s, T.Reachable s → P s → T.run s ls = some s' →
      (T.Always P s ls ↔ T.Guarded ok s ls) from key _ .init hinit h
  clear h
  induction ls with
  | nil => exact fun s _ hP _ => iff_of_true hP trivial
  | cons l ls ih =>
    intro s hs hP hrun
    obtain ⟨t, ht, hrun⟩ := bind_eq_some_iff.mp hrun
    have hreach : T.Reachable t := .step hs trivial ht
    have hiff := hstep s l t hs hP ht
    constructor
    · rintro ⟨-, hall⟩
      have hPt := (hall t ht).head
      refine ⟨hiff.mp hPt, fun u hu => ?_⟩
      cases ht.symm.trans hu
      exact (ih t hreach hPt hrun).mp (hall t ht)
    · rintro ⟨hok, hall⟩
      have hPt := hiff.mpr hok
      refine ⟨hP, fun u hu => ?_⟩
      cases ht.symm.trans hu
      exact (ih t hreach hPt hrun).mpr (hall t ht)

/-- As `always_iff_guarded`, for an invariant `I` that is stronger than `P`: it is kept by the
steps that satisfy `ok`, and a step that does not leads out of `P`. Only runs of labels that
satisfy `good` are considered. -/
theorem always_iff_guarded_of_invariant {I P : S → Prop} {good : L → Prop} (hinit : I T.init)
    (hIP : ∀ s, I s → P s)
    (hkeep : ∀ s l s', I s → good l → T.step s l = some s' → ok s l → I s')
    (hleave : ∀ s l s', I s → good l → T.step s l = some s' → P s' → ok s l)
    {ls : List L} (hgood : ∀ l ∈ ls, good l) {s' : S} (h : T.run T.init ls = some s') :
    T.Always P T.init ls ↔ T.Guarded ok T.init ls := by
  suffices key : ∀ s, I s → T.run s ls = some s' → (T.Always P s ls ↔ T.Guarded ok s ls) from
    key _ hinit h
  clear h
  induction ls with
  | nil => exact fun s hI _ => iff_of_true (hIP s hI) trivial
  | cons l ls ih =>
    intro s hI hrun
    obtain ⟨t, ht, hrun⟩ := bind_eq_some_iff.mp hrun
    have hl : good l := hgood l mem_cons_self
    have hls : ∀ l ∈ ls, good l := fun l hl => hgood l (mem_cons_of_mem _ hl)
    constructor
    · rintro ⟨-, hall⟩
      have hok : ok s l := hleave s l t hI hl ht (hall t ht).head
      refine ⟨hok, fun u hu => ?_⟩
      cases ht.symm.trans hu
      exact (ih hls t (hkeep s l t hI hl ht hok) hrun).mp (hall t ht)
    · rintro ⟨hok, hall⟩
      refine ⟨hIP s hI, fun u hu => ?_⟩
      cases ht.symm.trans hu
      exact (ih hls t (hkeep s l t hI hl ht hok) hrun).mpr (hall t ht)

end Lts
