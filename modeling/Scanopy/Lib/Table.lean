import Mathlib.Data.List.Nodup

/-! Tables with a primary key. A table holds its rows in some order that no statement relies on;
an insert that would repeat a key is refused, and an update keeps the keys. -/

structure Table {R K : Type*} (key : R → K) where
  rows : List R
  nodup : (rows.map key).Nodup

namespace Table
open List
variable {R K : Type*} {key : R → K}

abbrev empty : Table key := ⟨[], List.nodup_nil⟩

instance : Membership R (Table key) := ⟨fun t r => r ∈ t.rows⟩

instance [DecidableEq R] (r : R) (t : Table key) : Decidable (r ∈ t) :=
  inferInstanceAs (Decidable (r ∈ t.rows))

theorem eq_of_key {t : Table key} {r r' : R} (hr : r ∈ t) (hr' : r' ∈ t) (h : key r = key r') :
    r = r' := inj_on_of_nodup_map t.nodup hr hr' h

theorem ext_rows {t t' : Table key} (h : t.rows = t'.rows) : t = t' := by
  cases t
  cases t'
  cases h
  rfl

/-- `INSERT` of several rows, refused if a key would stand twice. -/
def insertMany [DecidableEq K] (t : Table key) (new : List R) : Option (Table key) :=
  if h : ((t.rows ++ new).map key).Nodup then some ⟨t.rows ++ new, h⟩ else none

/-- `UPDATE` by a function that keeps the keys. -/
def modify (t : Table key) (f : R → R) (hf : ∀ r, key (f r) = key r) : Table key where
  rows := t.rows.map f
  nodup := by
    rw [List.map_map]
    have hcomp : key ∘ f = key := funext hf
    rw [hcomp]
    exact t.nodup

@[simp] theorem rows_modify (t : Table key) (f : R → R) (hf : ∀ r, key (f r) = key r) :
    (t.modify f hf).rows = t.rows.map f := rfl

def reorder (t : Table key) (rows : List R) (hperm : t.rows.Perm rows) : Table key where
  rows := rows
  nodup := (hperm.map key).nodup_iff.mp t.nodup

/-- `DELETE` of the rows that satisfy `p`. -/
def delete (t : Table key) (p : R → Bool) : Table key where
  rows := t.rows.filter fun r => !p r
  nodup := t.nodup.sublist (List.filter_sublist.map key)

theorem mem_delete {t : Table key} {p : R → Bool} {r : R} : r ∈ t.delete p ↔ r ∈ t ∧ p r = false := by
  refine mem_filter.trans ?_
  rw [Bool.not_eq_true']
  rfl

section DecidableEq
variable [DecidableEq K] {t t' : Table key} {new : List R}

theorem insertMany_eq_some (h : t.insertMany new = some t') :
    t'.rows = t.rows ++ new ∧ (new.map key).Nodup ∧ ∀ r ∈ t, ∀ r' ∈ new, key r ≠ key r' := by
  rw [insertMany] at h
  split_ifs at h with hnodup
  cases h
  rw [map_append, nodup_append] at hnodup
  refine ⟨rfl, hnodup.2.1, fun r hr r' hr' => ?_⟩
  exact hnodup.2.2 (key r) (mem_map_of_mem hr) (key r') (mem_map_of_mem hr')

theorem exists_insertMany (hnew : (new.map key).Nodup)
    (hfresh : ∀ r ∈ t, ∀ r' ∈ new, key r ≠ key r') : ∃ t', t.insertMany new = some t' := by
  have hnodup : ((t.rows ++ new).map key).Nodup := by
    rw [map_append, nodup_append]
    refine ⟨t.nodup, hnew, fun k hk k' hk' => ?_⟩
    obtain ⟨r, hr, rfl⟩ := mem_map.mp hk
    obtain ⟨r', hr', rfl⟩ := mem_map.mp hk'
    exact hfresh r hr r' hr'
  exact ⟨⟨t.rows ++ new, hnodup⟩, dif_pos hnodup⟩

theorem insertMany_nil (t : Table key) : t.insertMany [] = some t := by
  have hnodup : ((t.rows ++ []).map key).Nodup := by
    rw [append_nil]
    exact t.nodup
  exact (dif_pos hnodup).trans (congrArg some (ext_rows (append_nil _)))

theorem insertMany_append (t : Table key) (new new' : List R) :
    t.insertMany (new ++ new') = (t.insertMany new).bind (·.insertMany new') := by
  rw [insertMany, insertMany]
  by_cases h : ((t.rows ++ new).map key).Nodup
  · rw [dif_pos h, Option.bind_some, insertMany]
    simp only [append_assoc]
  · rw [dif_neg h, Option.bind_none]
    refine dif_neg fun hall => h ?_
    rw [← append_assoc, map_append] at hall
    exact hall.of_append_left

theorem mem_insertMany (h : t.insertMany new = some t') {r : R} : r ∈ t' ↔ r ∈ t ∨ r ∈ new := by
  show r ∈ t'.rows ↔ _
  rw [(insertMany_eq_some h).1, mem_append]
  rfl

/-- Delete the rows that satisfy `p` and insert `new`, in one transaction. -/
def replaceWhere (t : Table key) (p : R → Bool) (new : List R) : Option (Table key) :=
  (t.delete p).insertMany new

theorem mem_replaceWhere {p : R → Bool} (h : t.replaceWhere p new = some t') {r : R} :
    r ∈ t' ↔ (r ∈ t ∧ p r = false) ∨ r ∈ new := by
  rw [mem_insertMany h, mem_delete]

/-- `SELECT` by primary key. -/
def find (t : Table key) (k : K) : Option R := t.rows.find? fun r => key r = k

theorem find_eq_some {k : K} {r : R} : t.find k = some r ↔ r ∈ t ∧ key r = k := by
  constructor
  · intro h
    exact ⟨mem_of_find?_eq_some h, by simpa using find?_some h⟩
  · rintro ⟨hr, rfl⟩
    cases hfound : t.find (key r) with
    | none => simpa using find?_eq_none.mp hfound r hr
    | some r' =>
      have hkey : key r' = key r := by simpa using find?_some hfound
      rw [t.eq_of_key (mem_of_find?_eq_some hfound) hr hkey]

/-- `INSERT` of a row in place of the one that has its key, if there is one. -/
def put (t : Table key) (r : R) : Table key where
  rows := (t.rows.filter fun r' => key r' ≠ key r) ++ [r]
  nodup := by
    rw [List.map_append, List.nodup_append]
    refine ⟨t.nodup.sublist (List.filter_sublist.map key), List.nodup_singleton _, ?_⟩
    intro k hk k' hk'
    obtain ⟨r', hr', rfl⟩ := List.mem_map.mp hk
    rw [List.map_singleton, List.mem_singleton] at hk'
    rw [hk']
    simpa using (List.mem_filter.mp hr').2

theorem mem_put {r r' : R} : r' ∈ t.put r ↔ (r' ∈ t ∧ key r' ≠ key r) ∨ r' = r := by
  show r' ∈ (t.rows.filter fun r' => key r' ≠ key r) ++ [r] ↔ _
  rw [mem_append, mem_filter, mem_singleton, decide_eq_true_iff]
  rfl

/-- `UPDATE` of the row that has the key of `r`, which is no row if the key is free. -/
def set (t : Table key) (r : R) : Table key :=
  t.modify (fun r' => if key r' = key r then r else r') (by
    intro r'
    show key (if key r' = key r then r else r') = key r'
    split_ifs with h
    · exact h.symm
    · rfl)

theorem mem_set_of_ne {r r' : R} (hne : key r' ≠ key r) : r' ∈ t.set r ↔ r' ∈ t := by
  show r' ∈ t.rows.map (fun r' => if key r' = key r then r else r') ↔ r' ∈ t.rows
  rw [mem_map]
  constructor
  · rintro ⟨r₀, hr₀, rfl⟩
    split_ifs at hne ⊢ with h
    · exact absurd rfl hne
    · exact hr₀
  · intro hr'
    exact ⟨r', hr', if_neg hne⟩

theorem mem_set_self {r r₀ : R} (hr₀ : r₀ ∈ t) (hkey : key r₀ = key r) : r ∈ t.set r :=
  mem_map.mpr ⟨r₀, hr₀, if_pos hkey⟩

theorem exists_key_of_mem_set {r r' : R} (h : r' ∈ t.set r) : ∃ r₀ ∈ t, key r₀ = key r' := by
  obtain ⟨r₀, hr₀, rfl⟩ := mem_map.mp h
  refine ⟨r₀, hr₀, ?_⟩
  split_ifs with hkey
  · exact hkey
  · rfl

theorem eq_of_mem_set {r r' : R} (h : r' ∈ t.set r) (hkey : key r' = key r) : r' = r := by
  obtain ⟨r₀, -, rfl⟩ := mem_map.mp h
  split_ifs at hkey ⊢ with hr₀
  · rfl
  · exact absurd hkey hr₀

theorem find_set_of_ne {r : R} {k : K} (hne : k ≠ key r) : (t.set r).find k = t.find k := by
  refine Option.ext fun r' => ?_
  rw [find_eq_some, find_eq_some]
  refine and_congr_left fun hkey => mem_set_of_ne ?_
  rw [hkey]
  exact hne

/-- One `UPDATE` for each of `updates`: the row with the key of `u` becomes `merge u` of it. -/
def updateMany {U : Type*} (t : Table key) (updates : List U) (ukey : U → K)
    (merge : U → R → R) (hmerge : ∀ u r, ukey u = key r → key (merge u r) = key r) : Table key :=
  updates.foldl (fun t u => t.modify (fun r => if ukey u = key r then merge u r else r) (by
    intro r
    show key (if ukey u = key r then merge u r else r) = key r
    split_ifs with h
    · exact hmerge u r h
    · rfl)) t

section UpdateMany
variable {U : Type*} {ukey : U → K} {merge : U → R → R}
  {hmerge : ∀ u r, ukey u = key r → key (merge u r) = key r}

def updateRow (key : R → K) (ukey : U → K) (merge : U → R → R) (updates : List U) (r : R) : R :=
  updates.foldl (fun r u => if ukey u = key r then merge u r else r) r

theorem rows_updateMany_eq_map (t : Table key) (updates : List U) :
    (t.updateMany updates ukey merge hmerge).rows =
      t.rows.map (updateRow key ukey merge updates) := by
  induction updates generalizing t with
  | nil => exact (map_id' t.rows).symm
  | cons u updates ih =>
    refine (ih _).trans ?_
    rw [rows_modify, map_map]
    rfl

theorem updateRow_of_forall_ne (merge : U → R → R) {updates : List U} {r : R}
    (h : ∀ u ∈ updates, ukey u ≠ key r) : updateRow key ukey merge updates r = r := by
  induction updates with
  | nil => rfl
  | cons u updates ih =>
    rw [updateRow, foldl_cons, if_neg (h u mem_cons_self)]
    exact ih fun u' hu' => h u' (mem_cons_of_mem u hu')

theorem mem_updateMany_of_forall_ne {updates : List U} {r : R} (hr : r ∈ t)
    (h : ∀ u ∈ updates, ukey u ≠ key r) : r ∈ t.updateMany updates ukey merge hmerge := by
  show r ∈ (t.updateMany updates ukey merge hmerge).rows
  rw [rows_updateMany_eq_map, mem_map]
  exact ⟨r, hr, updateRow_of_forall_ne merge h⟩

theorem updateRow_induction {P : R → Prop} {updates : List U} {r : R} (hr : P r)
    (hstep : ∀ u ∈ updates, ∀ r, P r → ukey u = key r → P (merge u r)) :
    P (updateRow key ukey merge updates r) := by
  induction updates generalizing r with
  | nil => exact hr
  | cons u updates ih =>
    have hrest := fun u' hu' => hstep u' (mem_cons_of_mem u hu')
    rw [updateRow, foldl_cons]
    split_ifs with hu
    · exact ih (hstep u mem_cons_self r hr hu) hrest
    · exact ih hr hrest

theorem updateRow_append (hmerge : ∀ u r, ukey u = key r → key (merge u r) = key r)
    {before after : List U} {u : U} {r : R} (hu : ukey u = key r)
    (hbefore : ∀ u' ∈ before, ukey u' ≠ key r) (hafter : ∀ u' ∈ after, ukey u' ≠ key r) :
    updateRow key ukey merge (before ++ u :: after) r = merge u r := by
  have hsame := updateRow_of_forall_ne merge hbefore
  have hkey := hmerge u r hu
  rw [updateRow] at hsame ⊢
  rw [foldl_append, hsame, foldl_cons, if_pos hu]
  refine updateRow_of_forall_ne merge fun u' hu' => ?_
  rw [hkey]
  exact hafter u' hu'

/-- Updates that are computed from the rows they update, one for each row that satisfies `p`. -/
theorem rows_updateMany_of_perm (t : Table key) (p : R → Bool) (g : R → U)
    (hg : ∀ r, ukey (g r) = key r) {l : List R} (hl : l.Perm (t.rows.filter p)) :
    (t.updateMany (l.map g) ukey merge hmerge).rows =
      t.rows.map fun r => if p r then merge (g r) r else r := by
  rw [rows_updateMany_eq_map]
  have hmem_of : ∀ r ∈ l, r ∈ t.rows ∧ p r = true :=
    fun r hr => mem_filter.mp (hl.mem_iff.mp hr)
  refine map_congr_left fun r hr => ?_
  have hother : ∀ r' ∈ t.rows, r' ≠ r → ukey (g r') ≠ key r := by
    intro r' hr' hne hkey
    rw [hg] at hkey
    exact hne (t.eq_of_key hr' hr hkey)
  split_ifs with hp
  · have hmem : r ∈ l := hl.mem_iff.mpr (mem_filter.mpr ⟨hr, hp⟩)
    have hnodup : l.Nodup := hl.nodup_iff.mpr ((List.Nodup.of_map key t.nodup).filter p)
    obtain ⟨before, after, rfl⟩ := append_of_mem hmem
    rw [nodup_middle, nodup_cons, mem_append, not_or] at hnodup
    rw [map_append, map_cons]
    refine updateRow_append hmerge (hg r) ?_ ?_
    · intro u' hu'
      obtain ⟨r', hr', rfl⟩ := mem_map.mp hu'
      refine hother r' (hmem_of r' (mem_append_left _ hr')).1 ?_
      rintro rfl
      exact hnodup.1.1 hr'
    · intro u' hu'
      obtain ⟨r', hr', rfl⟩ := mem_map.mp hu'
      refine hother r' (hmem_of r' (mem_append_right _ (mem_cons_of_mem r hr'))).1 ?_
      rintro rfl
      exact hnodup.1.2 hr'
  · refine updateRow_of_forall_ne merge fun u hu => ?_
    obtain ⟨r', hr', rfl⟩ := mem_map.mp hu
    obtain ⟨hr', hp'⟩ := hmem_of r' hr'
    refine hother r' hr' ?_
    rintro rfl
    exact hp hp'

theorem rows_updateMany (t : Table key) (p : R → Bool) (g : R → U)
    (hg : ∀ r, ukey (g r) = key r) :
    (t.updateMany ((t.rows.filter p).map g) ukey merge hmerge).rows =
      t.rows.map fun r => if p r then merge (g r) r else r :=
  rows_updateMany_of_perm t p g hg (.refl _)

end UpdateMany
end DecidableEq
end Table
