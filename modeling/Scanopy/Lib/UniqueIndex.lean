import Scanopy.Lib.Lts
import Scanopy.Lib.Table

/-! Partial unique indexes. An index covers some rows of a table and refuses a write after which two
of them would agree on its columns. -/

structure UniqueIndex (R N : Type*) where
  covers : R → Bool
  columns : R → N

namespace UniqueIndex
open List
variable {R K N : Type*} {key : R → K} (ix : UniqueIndex R N)

def Holds (t : Table key) : Prop :=
  ∀ r ∈ t, ∀ r' ∈ t, ix.covers r = true → ix.covers r' = true → ix.columns r = ix.columns r' →
    r = r'

variable [DecidableEq K] [DecidableEq N]

/-- Another row has the place of `r`. -/
def taken (t : Table key) (r : R) : Bool :=
  ix.covers r && t.rows.any fun r' =>
    decide (key r' ≠ key r) && ix.covers r' && decide (ix.columns r' = ix.columns r)

/-- `INSERT` of a row, refused by the primary key or by the index. -/
def insert (t : Table key) (r : R) : Option (Table key) :=
  if ix.taken t r then none else t.insertMany [r]

/-- `UPDATE` of the row with the key of `r`, refused by the index. -/
def set (t : Table key) (r : R) : Option (Table key) :=
  if ix.taken t r then none else some (t.set r)

variable {ix} {t t' : Table key} {r : R}

theorem taken_eq_false : ix.taken t r = false ↔ ix.covers r = true → ∀ r' ∈ t,
    ix.covers r' = true → ix.columns r' = ix.columns r → key r' = key r := by
  unfold taken
  rw [Bool.and_eq_false_imp]
  refine imp_congr_right fun _ => ?_
  rw [List.any_eq_false]
  refine forall₂_congr fun r' _ => ?_
  simp only [Bool.and_eq_true, decide_eq_true_eq, not_and]
  constructor
  · intro h hcovers hcolumns
    by_contra hne
    exact h ⟨hne, hcovers⟩ hcolumns
  · rintro h ⟨hne, hcovers⟩ hcolumns
    exact hne (h hcovers hcolumns)

theorem insert_eq_some (h : ix.insert t r = some t') :
    ix.taken t r = false ∧ t.insertMany [r] = some t' := by
  unfold insert at h
  split_ifs at h with htaken
  exact ⟨Bool.eq_false_iff.mpr htaken, h⟩

theorem set_eq_some (h : ix.set t r = some t') : ix.taken t r = false ∧ t' = t.set r := by
  unfold set at h
  split_ifs at h with htaken
  cases h
  exact ⟨Bool.eq_false_iff.mpr htaken, rfl⟩

omit [DecidableEq K] [DecidableEq N] in
theorem Holds.mono (hold : ix.Holds t)
    (h : ∀ r' ∈ t', ix.covers r' = true →
      ∃ r ∈ t, ix.covers r = true ∧ key r = key r' ∧ ix.columns r = ix.columns r') :
    ix.Holds t' := by
  intro r₁ hr₁ r₂ hr₂ hcovers₁ hcovers₂ hcolumns
  obtain ⟨s₁, hs₁, hc₁, hkey₁, hcol₁⟩ := h r₁ hr₁ hcovers₁
  obtain ⟨s₂, hs₂, hc₂, hkey₂, hcol₂⟩ := h r₂ hr₂ hcovers₂
  have hsame : s₁ = s₂ := hold s₁ hs₁ s₂ hs₂ hc₁ hc₂ (by rw [hcol₁, hcol₂, hcolumns])
  exact t'.eq_of_key hr₁ hr₂ (by rw [← hkey₁, ← hkey₂, hsame])

theorem Holds.insert (hold : ix.Holds t) (h : ix.insert t r = some t') : ix.Holds t' := by
  obtain ⟨htaken, hinsert⟩ := insert_eq_some h
  rw [taken_eq_false] at htaken
  have hfresh := (Table.insertMany_eq_some hinsert).2.2
  intro r₁ hr₁ r₂ hr₂ hcovers₁ hcovers₂ hcolumns
  rw [Table.mem_insertMany hinsert, mem_singleton] at hr₁ hr₂
  rcases hr₁ with hr₁ | rfl <;> rcases hr₂ with hr₂ | rfl
  · exact hold r₁ hr₁ r₂ hr₂ hcovers₁ hcovers₂ hcolumns
  · have hkey := htaken hcovers₂ r₁ hr₁ hcovers₁ hcolumns
    exact absurd hkey (hfresh r₁ hr₁ r₂ (mem_singleton_self _))
  · have hkey := htaken hcovers₁ r₂ hr₂ hcovers₂ hcolumns.symm
    exact absurd hkey (hfresh r₂ hr₂ r₁ (mem_singleton_self _))
  · rfl

theorem Holds.set (hold : ix.Holds t) (h : ix.set t r = some t') : ix.Holds t' := by
  obtain ⟨htaken, rfl⟩ := set_eq_some h
  rw [taken_eq_false] at htaken
  have hcases : ∀ r' ∈ t.set r, r' = r ∨ (r' ∈ t ∧ key r' ≠ key r) := by
    intro r' hr'
    by_cases hkey : key r' = key r
    · exact .inl (Table.eq_of_mem_set hr' hkey)
    · exact .inr ⟨(Table.mem_set_of_ne hkey).mp hr', hkey⟩
  intro r₁ hr₁ r₂ hr₂ hcovers₁ hcovers₂ hcolumns
  rcases hcases r₁ hr₁ with rfl | ⟨hmem₁, hne₁⟩ <;> rcases hcases r₂ hr₂ with rfl | ⟨hmem₂, hne₂⟩
  · rfl
  · exact absurd (htaken hcovers₁ r₂ hmem₂ hcovers₂ hcolumns.symm) hne₂
  · exact absurd (htaken hcovers₂ r₁ hmem₁ hcovers₁ hcolumns) hne₁
  · exact hold r₁ hmem₁ r₂ hmem₂ hcovers₁ hcovers₂ hcolumns

/-- What the inserts of covered rows, one after the other, have done: the rows stand at the end, and
no two of them agree on the columns of the index. -/
theorem insertEach_eq_some {new : List R} (hcovers : ∀ r ∈ new, ix.covers r = true)
    (h : new.foldlM ix.insert t = some t') :
    t'.rows = t.rows ++ new ∧ (new.map ix.columns).Nodup := by
  induction new generalizing t with
  | nil =>
    cases h
    exact ⟨(append_nil _).symm, nodup_nil⟩
  | cons r new ih =>
    rw [foldlM_cons] at h
    obtain ⟨u, hu, hrest⟩ := Option.bind_eq_some_iff.mp h
    obtain ⟨hcovered, hcovers⟩ := forall_mem_cons.mp hcovers
    have hrows := (Table.insertMany_eq_some (insert_eq_some hu).2).1
    obtain ⟨hrows', hnodup⟩ := ih hcovers hrest
    refine ⟨by rw [hrows', hrows, append_assoc, singleton_append], ?_⟩
    refine nodup_cons.mpr ⟨fun hmem => ?_, hnodup⟩
    -- a later row with the columns of `r` would have been refused
    obtain ⟨r', hr', hcolumns⟩ := mem_map.mp hmem
    obtain ⟨before, after, rfl⟩ := append_of_mem hr'
    rw [foldlM_append] at hrest
    obtain ⟨v, hv, hrest⟩ := Option.bind_eq_some_iff.mp hrest
    rw [foldlM_cons] at hrest
    obtain ⟨w, hw, -⟩ := Option.bind_eq_some_iff.mp hrest
    obtain ⟨htaken, hinsert⟩ := insert_eq_some hw
    have hr : r ∈ v := by
      refine Lts.invariant_of_foldlM (P := fun v : Table key => r ∈ v) ?_ ?_ hv
      · exact (Table.mem_insertMany (insert_eq_some hu).2).mpr (.inr (mem_singleton_self _))
      · intro r₀ _ x y hx hy
        exact (Table.mem_insertMany (insert_eq_some hy).2).mpr (.inl hx)
    have hsame := taken_eq_false.mp htaken (hcovers r' hr') r hr hcovered hcolumns.symm
    exact (Table.insertMany_eq_some hinsert).2.2 r hr r' (mem_singleton_self _) hsame

theorem exists_insertEach {new : List R} (hkeys : (new.map key).Nodup)
    (hfresh : ∀ r ∈ t, ∀ r' ∈ new, key r ≠ key r') (hcolumns : (new.map ix.columns).Nodup)
    (hfree : ∀ r ∈ t, ix.covers r = true → ∀ r' ∈ new, ix.columns r ≠ ix.columns r') :
    ∃ t', new.foldlM ix.insert t = some t' := by
  induction new generalizing t with
  | nil => exact ⟨t, rfl⟩
  | cons r new ih =>
    rw [map_cons, nodup_cons] at hkeys hcolumns
    have htaken : ix.taken t r = false := by
      refine taken_eq_false.mpr fun _ r' hr' hcovers hsame => ?_
      exact absurd hsame (hfree r' hr' hcovers r mem_cons_self)
    have hfresh' : ∀ r' ∈ t.rows, ∀ r'' ∈ [r], key r' ≠ key r'' := fun r' hr' r'' hr'' => by
      rw [mem_singleton.mp hr'']
      exact hfresh r' hr' r mem_cons_self
    have hnodup : ([r].map key).Nodup := nodup_singleton _
    obtain ⟨u, hu⟩ := Table.exists_insertMany hnodup hfresh'
    have hmem := fun r' => Table.mem_insertMany hu (r := r')
    obtain ⟨t', ht'⟩ : ∃ t', new.foldlM ix.insert u = some t' := by
      refine ih hkeys.2 (fun r₀ hr₀ r' hr' => ?_) hcolumns.2 fun r₀ hr₀ hcovers r' hr' => ?_
      · rcases (hmem r₀).mp hr₀ with hr₀ | hr₀
        · exact hfresh r₀ hr₀ r' (mem_cons_of_mem _ hr')
        · rw [mem_singleton.mp hr₀]
          exact fun hsame => hkeys.1 (hsame ▸ mem_map_of_mem hr')
      · rcases (hmem r₀).mp hr₀ with hr₀ | hr₀
        · exact hfree r₀ hr₀ hcovers r' (mem_cons_of_mem _ hr')
        · rw [mem_singleton.mp hr₀]
          exact fun hsame => hcolumns.1 (hsame ▸ mem_map_of_mem hr')
    refine ⟨t', ?_⟩
    rw [foldlM_cons, insert, htaken, if_neg Bool.false_ne_true, hu]
    exact ht'

omit [DecidableEq K] [DecidableEq N] in
theorem Holds.delete (hold : ix.Holds t) (p : R → Bool) : ix.Holds (t.delete p) :=
  hold.mono fun r' hr' hcovers => ⟨r', (Table.mem_delete.mp hr').1, hcovers, rfl, rfl⟩

end UniqueIndex
