import Scanopy.Lib.Table

/-! Tables whose rows belong to owners, with a column that refers to rows of the table and is
cleared when its row is deleted. A writer that keeps to one owner changes nothing else in the rows
of the others. -/

namespace Ownership
open Table
variable {R K O : Type*} {key : R → K} {owner : R → O}

/-- A nullable column with `ON DELETE SET NULL`. -/
structure Reference (key : R → K) (owner : R → O) where
  ref : R → Option K
  clear : R → R
  key_clear : ∀ r, key (clear r) = key r
  owner_clear : ∀ r, owner (clear r) = owner r
  ref_clear : ∀ r, ref (clear r) = none

def BelongsTo (t : Table key) (owner : R → O) (o : O) (k : K) : Prop :=
  ∀ r ∈ t, key r = k → owner r = o

/-- The rows of all owners but `o` are as they were, except that the column is cleared where it
named no row of those owners. -/
structure Kept (c : Reference key owner) (o : O) (before after : Table key) : Prop where
  rows : ∀ r ∈ before, owner r ≠ o → r ∈ after ∨
    ∃ k, c.ref r = some k ∧ BelongsTo before owner o k ∧ c.clear r ∈ after
  back : ∀ r ∈ after, owner r ≠ o → ∃ r₀ ∈ before, key r₀ = key r ∧ owner r₀ = owner r

variable {c : Reference key owner} {o : O} {t before mid after : Table key} {row : R} {k : K}

theorem Kept.refl (c : Reference key owner) (o : O) (t : Table key) : Kept c o t t :=
  ⟨fun _ hr _ => .inl hr, fun r hr _ => ⟨r, hr, rfl, rfl⟩⟩

theorem BelongsTo.mono (h : BelongsTo before owner o k) (hkept : Kept c o before after) :
    BelongsTo after owner o k := by
  intro r hr hkey
  by_contra hother
  obtain ⟨r₀, hr₀, hkey₀, howner₀⟩ := hkept.back r hr hother
  exact hother (howner₀.symm.trans (h r₀ hr₀ (hkey₀.trans hkey)))

theorem BelongsTo.of_kept (h : BelongsTo after owner o k) (hkept : Kept c o before after) :
    BelongsTo before owner o k := by
  intro r hr hkey
  by_contra hother
  rcases hkept.rows r hr hother with hr | ⟨-, -, -, hr⟩
  · exact hother (h r hr hkey)
  · rw [← c.owner_clear] at hother
    rw [← c.key_clear] at hkey
    exact hother (h _ hr hkey)

theorem Kept.trans (h : Kept c o before mid) (h' : Kept c o mid after) :
    Kept c o before after := by
  constructor
  · intro r hr hother
    rcases h.rows r hr hother with hr | ⟨k, href, hk, hr⟩
    · rcases h'.rows r hr hother with hr | ⟨k, href, hk, hr⟩
      · exact .inl hr
      · exact .inr ⟨k, href, hk.of_kept h, hr⟩
    · have hother' : owner (c.clear r) ≠ o := by rwa [c.owner_clear]
      rcases h'.rows _ hr hother' with hr | ⟨_, href', _⟩
      · exact .inr ⟨k, href, hk, hr⟩
      -- a column that has been cleared names nothing
      · rw [c.ref_clear] at href'
        cases href'
  · intro r hr hother
    obtain ⟨r₁, hr₁, hkey₁, howner₁⟩ := h'.back r hr hother
    rw [← howner₁] at hother
    obtain ⟨r₀, hr₀, hkey₀, howner₀⟩ := h.back r₁ hr₁ hother
    exact ⟨r₀, hr₀, hkey₀.trans hkey₁, howner₀.trans howner₁⟩

theorem kept_insert (howner : owner row = o) (hmem : ∀ r, r ∈ after ↔ r ∈ t ∨ r = row) :
    Kept c o t after := by
  constructor
  · intro r hr _
    exact .inl ((hmem r).mpr (.inl hr))
  · intro r hr hother
    rcases (hmem r).mp hr with hr | rfl
    · exact ⟨r, hr, rfl, rfl⟩
    · exact absurd howner hother

theorem kept_modify {f : R → R} {hf : ∀ r, key (f r) = key r}
    (hothers : ∀ r ∈ t, owner r ≠ o → f r = r) (hown : ∀ r ∈ t, owner r = o → owner (f r) = o) :
    Kept c o t (t.modify f hf) := by
  constructor
  · intro r hr hother
    have hmem : f r ∈ t.modify f hf := List.mem_map_of_mem hr
    rw [hothers r hr hother] at hmem
    exact .inl hmem
  · intro r hr hother
    obtain ⟨r₀, hr₀, rfl⟩ := List.mem_map.mp hr
    have hother₀ : owner r₀ ≠ o := fun howner => hother (hown r₀ hr₀ howner)
    exact ⟨r₀, hr₀, (hf r₀).symm, by rw [hothers r₀ hr₀ hother₀]⟩

section DecidableEq
variable [DecidableEq K]

theorem kept_set (howner : owner row = o) (hbelongs : BelongsTo t owner o (key row)) :
    Kept c o t (t.set row) := by
  refine kept_modify (fun r hr hother => ?_) (fun r hr hr' => ?_)
  · have hne : key r ≠ key row := fun hkey => hother (hbelongs r hr hkey)
    exact if_neg hne
  · split_ifs
    · exact howner
    · exact hr'

def Reference.release (c : Reference key owner) (k : K) (r : R) : R :=
  if c.ref r = some k then c.clear r else r

theorem Reference.key_release (c : Reference key owner) (k : K) (r : R) :
    key (c.release k r) = key r := by
  unfold release
  split_ifs
  · exact c.key_clear r
  · rfl

theorem Reference.owner_release (c : Reference key owner) (k : K) (r : R) :
    owner (c.release k r) = owner r := by
  unfold release
  split_ifs
  · exact c.owner_clear r
  · rfl

/-- `DELETE` of the row with the key, with `ON DELETE SET NULL` for the column. -/
def Reference.deleteSetNull (c : Reference key owner) (t : Table key) (k : K) : Table key :=
  (t.delete fun r => key r = k).modify (c.release k) (c.key_release k)

theorem kept_deleteSetNull (hbelongs : BelongsTo t owner o k) :
    Kept c o t (c.deleteSetNull t k) := by
  constructor
  · intro r hr hother
    have hne : key r ≠ k := fun hkey => hother (hbelongs r hr hkey)
    have hmem : c.release k r ∈ c.deleteSetNull t k :=
      List.mem_map_of_mem (mem_delete.mpr ⟨hr, decide_eq_false hne⟩)
    unfold Reference.release at hmem
    split_ifs at hmem with href
    · exact .inr ⟨k, href, hbelongs, hmem⟩
    · exact .inl hmem
  · intro r hr _
    obtain ⟨r₀, hr₀, rfl⟩ := List.mem_map.mp hr
    exact ⟨r₀, (mem_delete.mp hr₀).1, (c.key_release k r₀).symm, (c.owner_release k r₀).symm⟩

variable (owner) in
theorem mem_updateMany_of_other {U : Type*} {ukey : U → K} {merge : U → R → R}
    {hmerge : ∀ u r, ukey u = key r → key (merge u r) = key r} {updates : List U} {named : List K}
    (hupdates : ∀ u ∈ updates, ukey u ∈ named ∨ ∃ e ∈ t, key e = ukey u ∧ owner e = o)
    (hrow : row ∈ t) (hother : owner row ≠ o) (hnamed : key row ∉ named) :
    row ∈ t.updateMany updates ukey merge hmerge := by
  refine mem_updateMany_of_forall_ne hrow fun u hu hkey => ?_
  rcases hupdates u hu with hmem | ⟨e, he, hekey, howner⟩
  · rw [hkey] at hmem
    exact hnamed hmem
  · rw [t.eq_of_key he hrow (hekey.trans hkey)] at howner
    exact hother howner

end DecidableEq
end Ownership
