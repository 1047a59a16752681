import Mathlib.Data.List.Nodup

/-! Greedy selection in the order of a list. An item is selected when its class is open and no item
that was selected before it occupies the class. The main result says for which orders an item given
beforehand is selected. -/

namespace Greedy
open List Option
variable {α δ : Type*} [DecidableEq δ]
variable {key : α → δ} {opened : δ → Prop} {occupies : δ → α → Prop} {l : List α} {M : α → Prop}

/-- `M` is what the visits of `l` select. -/
def Selects (key : α → δ) (opened : δ → Prop) (occupies : δ → α → Prop) (l : List α)
    (M : α → Prop) : Prop :=
  ∀ l₁ x l₂, l = l₁ ++ x :: l₂ →
    (M x ↔ opened (key x) ∧ ∀ y ∈ l₁, M y → ¬ occupies (key x) y)

def first (key : α → δ) (l : List α) (d : δ) : Option α := l.find? fun x => decide (key x = d)

theorem exists_first {d : δ} (h : ∃ x ∈ l, key x = d) : ∃ x, first key l d = some x := by
  obtain ⟨x, hx, hd⟩ := h
  exact isSome_iff_exists.mp (find?_isSome.mpr ⟨x, hx, decide_eq_true hd⟩)

theorem key_of_first {d : δ} {x : α} (h : first key l d = some x) : key x = d := by
  have hx := find?_some (p := fun x => decide (key x = d)) h
  exact of_decide_eq_true hx

theorem mem_of_first {d : δ} {x : α} (h : first key l d = some x) : x ∈ l :=
  mem_of_find?_eq_some h

theorem split_first {d : δ} {x : α} (h : first key l d = some x) :
    ∃ l₁ l₂, l = l₁ ++ x :: l₂ ∧ ∀ y ∈ l₁, key y ≠ d := by
  obtain ⟨-, l₁, l₂, hl, hnot⟩ := find?_eq_some_iff_append.mp h
  refine ⟨l₁, l₂, hl, fun y hy hd => ?_⟩
  simpa [hd] using hnot y hy

section Index
variable [DecidableEq α]

theorem mem_iff_idxOf_lt {l₁ l₂ : List α} {x y : α} (hnd : l.Nodup) (hl : l = l₁ ++ x :: l₂) :
    y ∈ l₁ ↔ l.idxOf y < l.idxOf x := by
  subst hl
  have hx : x ∉ l₁ := fun hx => disjoint_of_nodup_append hnd hx mem_cons_self
  have hidx : (l₁ ++ x :: l₂).idxOf x = l₁.length := by
    rw [idxOf_append_of_notMem hx, idxOf_cons_self, Nat.add_zero]
  rw [hidx]
  constructor
  · intro hmem
    rw [idxOf_append_of_mem hmem]
    exact idxOf_lt_length_of_mem hmem
  · intro hlt
    by_contra hnot
    rw [idxOf_append_of_notMem hnot] at hlt
    omega

theorem idxOf_first_le {d : δ} {x y : α} (hnd : l.Nodup) (h : first key l d = some x)
    (hy : key y = d) : l.idxOf x ≤ l.idxOf y := by
  obtain ⟨l₁, l₂, hl, hnot⟩ := split_first h
  by_contra hlt
  have hmem := (mem_iff_idxOf_lt hnd hl).mpr (Nat.lt_of_not_le hlt)
  exact hnot y hmem hy

theorem eq_of_idxOf_eq {x y : α} (hx : x ∈ l) (h : l.idxOf x = l.idxOf y) : x = y :=
  (idxOf_inj hx).mp h

end Index

theorem Selects.first_of_exists (hM : Selects key opened occupies l M) {d : δ} {x : α}
    (hd : opened d) (hx : first key l d = some x) (hex : ∃ z ∈ l, key z = d ∧ M z) : M x := by
  obtain ⟨l₁, l₂, rfl, hnot⟩ := split_first hx
  have hkey := key_of_first hx
  obtain ⟨z, hz, hzd, hMz⟩ := hex
  rcases mem_append.mp hz with hz | hz
  · exact absurd hzd (hnot z hz)
  rcases mem_cons.mp hz with rfl | hz
  · exact hMz
  -- what is in the way of the first item is in the way of the later ones
  obtain ⟨m₁, m₂, rfl⟩ := mem_iff_append.mp hz
  refine (hM l₁ x _ rfl).mpr ⟨hkey ▸ hd, fun y hy hMy => ?_⟩
  have hsplit : l₁ ++ x :: (m₁ ++ z :: m₂) = (l₁ ++ x :: m₁) ++ z :: m₂ := by simp
  have hfree := ((hM _ z m₂ hsplit).mp hMz).2 y (mem_append_left _ hy) hMy
  rwa [hzd, ← hkey] at hfree

section Follows
variable [DecidableEq α]

/-- The orders of the visits that select, in every open class, the item `q`: the first item of the
class is `q`, and no first item of another class that occupies this one comes before it. -/
def Follows (key : α → δ) (opened : δ → Prop) (occupies : δ → α → Prop) (l : List α)
    (q : δ → Option α) : Prop :=
  ∀ d, opened d → ∀ x, first key l d = some x → q d = some x ∧
    ∀ d', d' ≠ d → opened d' → ∀ y, first key l d' = some y → occupies d y →
      l.idxOf x < l.idxOf y

theorem Selects.follows (hM : Selects key opened occupies l M) (hnd : l.Nodup)
    {q : δ → Option α} (hsel : ∀ x ∈ l, M x → q (key x) = some x)
    (hex : ∀ d, opened d → (∃ x ∈ l, key x = d) → ∃ x ∈ l, key x = d ∧ M x) :
    Follows key opened occupies l q := by
  have hfirst : ∀ d x, opened d → first key l d = some x → M x := fun d x hd hx =>
    hM.first_of_exists hd hx (hex d hd ⟨x, mem_of_first hx, key_of_first hx⟩)
  intro d hd x hx
  have hMx := hfirst d x hd hx
  have hkey := key_of_first hx
  refine ⟨hkey ▸ hsel x (mem_of_first hx) hMx, fun d' hne hd' y hy hocc => ?_⟩
  have hMy := hfirst d' y hd' hy
  obtain ⟨l₁, l₂, hl, -⟩ := split_first hx
  have hnot : y ∉ l₁ := fun hmem => ((hM l₁ x l₂ hl).mp hMx).2 y hmem hMy (hkey ▸ hocc)
  rw [mem_iff_idxOf_lt hnd hl] at hnot
  have hidx : l.idxOf x ≠ l.idxOf y := by
    intro hidx
    have hxy := eq_of_idxOf_eq (mem_of_first hx) hidx
    rw [hxy] at hkey
    exact hne ((key_of_first hy).symm.trans hkey)
  omega

/-- Under such an order the selected items are the first ones of the open classes. -/
theorem Follows.selected_iff {q : δ → Option α} (h : Follows key opened occupies l q)
    (hM : Selects key opened occupies l M) (hnd : l.Nodup)
    (hq : ∀ d x, q d = some x → occupies d x) {x : α} (hx : x ∈ l) :
    M x ↔ opened (key x) ∧ first key l (key x) = some x := by
  induction hn : l.idxOf x using Nat.strongRecOn generalizing x with
  | ind n ih =>
    obtain ⟨l₁, l₂, hl⟩ := mem_iff_append.mp hx
    have hbefore : ∀ y, y ∈ l₁ ↔ l.idxOf y < n := fun y => hn ▸ mem_iff_idxOf_lt hnd hl
    have ihy : ∀ y ∈ l₁, M y ↔ opened (key y) ∧ first key l (key y) = some y := by
      intro y hy
      have hyl : y ∈ l := by
        rw [hl]
        exact mem_append_left _ hy
      exact ih (l.idxOf y) ((hbefore y).mp hy) hyl rfl
    rw [hM l₁ x l₂ hl]
    refine and_congr_right fun hd => ?_
    have hclass : ∃ y ∈ l, key y = key x := ⟨x, hx, rfl⟩
    obtain ⟨f, hf⟩ := exists_first hclass
    obtain ⟨hqf, hother⟩ := h (key x) hd f hf
    constructor
    · intro hfree
      by_contra hne
      -- the first item of the class is another one, and it is selected before `x`
      have hfx : l.idxOf f ≠ n := by
        intro hidx
        have hxf := eq_of_idxOf_eq (mem_of_first hf) (hidx.trans hn.symm)
        exact hne (hxf ▸ hf)
      have hle := idxOf_first_le hnd hf rfl
      have hf₁ : f ∈ l₁ := (hbefore f).mpr (by omega)
      have hkey := key_of_first hf
      have hMf : M f := (ihy f hf₁).mpr ⟨hkey.symm ▸ hd, hkey.symm ▸ hf⟩
      exact hfree f hf₁ hMf (hq _ f hqf)
    · intro hfirst y hy hMy hocc
      obtain rfl : f = x := some.inj (hf.symm.trans hfirst)
      obtain ⟨hdy, hfy⟩ := (ihy y hy).mp hMy
      have hlt := (hbefore y).mp hy
      have hne : key y ≠ key f := by
        intro hkey
        rw [hkey] at hfy
        obtain rfl : f = y := some.inj (hf.symm.trans hfy)
        omega
      have hafter := hother (key y) hne hdy y hfy hocc
      omega

theorem Selects.iff_follows (hM : Selects key opened occupies l M) (hnd : l.Nodup)
    {q : δ → Option α} (hq : ∀ d x, q d = some x → occupies d x) :
    ((∀ x ∈ l, M x → q (key x) = some x) ∧
      ∀ d, opened d → (∃ x ∈ l, key x = d) → ∃ x ∈ l, key x = d ∧ M x) ↔
      Follows key opened occupies l q := by
  constructor
  · rintro ⟨hsel, hex⟩
    exact hM.follows hnd hsel hex
  · intro h
    refine ⟨fun x hx hMx => ?_, fun d hd hex => ?_⟩
    · obtain ⟨hd, hfirst⟩ := (h.selected_iff hM hnd hq hx).mp hMx
      exact (h (key x) hd x hfirst).1
    · obtain ⟨x, hx⟩ := exists_first hex
      have hkey := key_of_first hx
      refine ⟨x, mem_of_first hx, hkey, ?_⟩
      exact (h.selected_iff hM hnd hq (mem_of_first hx)).mpr ⟨hkey ▸ hd, hkey.symm ▸ hx⟩

end Follows

end Greedy
