import Scanopy.Lib.Table

/-! Tables whose rows carry a time. A writer that stamps all it writes leaves every row with that
time or with the one it had; a row that it has touched keeps the time to the end. -/

namespace Stamps
open Table List
variable {R K T : Type*} {key : R → K} {time : R → T} {t : T} {k : K} {keys keys' : List K}
  {tbl before mid after : Table key} {row : R}

/-- Every row has the time `t`, or was there with the time it has now. -/
def Restamped (time : R → T) (t : T) (before after : Table key) : Prop :=
  ∀ r ∈ after, time r = t ∨ ∃ r₀ ∈ before, key r₀ = key r ∧ time r₀ = time r

/-- The row with the key, if there is one, has the time `t`. -/
def StampedAt (time : R → T) (t : T) (k : K) (tbl : Table key) : Prop :=
  ∀ r ∈ tbl, key r = k → time r = t

structure Touched (time : R → T) (t : T) (before after : Table key) (keys : List K) : Prop where
  restamped : Restamped time t before after
  stamped : ∀ k ∈ keys, StampedAt time t k after

theorem Restamped.refl (time : R → T) (t : T) (tbl : Table key) : Restamped time t tbl tbl :=
  fun r hr => .inr ⟨r, hr, rfl, rfl⟩

theorem Restamped.trans (h : Restamped time t before mid) (h' : Restamped time t mid after) :
    Restamped time t before after := by
  intro r hr
  rcases h' r hr with htime | ⟨r₁, hr₁, hkey₁, htime₁⟩
  · exact .inl htime
  · rcases h r₁ hr₁ with htime | ⟨r₀, hr₀, hkey₀, htime₀⟩
    · exact .inl (htime₁.symm.trans htime)
    · exact .inr ⟨r₀, hr₀, hkey₀.trans hkey₁, htime₀.trans htime₁⟩

theorem StampedAt.mono (h : StampedAt time t k before) (hafter : Restamped time t before after) :
    StampedAt time t k after := by
  intro r hr hkey
  rcases hafter r hr with htime | ⟨r₀, hr₀, hkey₀, htime₀⟩
  · exact htime
  · exact htime₀.symm.trans (h r₀ hr₀ (hkey₀.trans hkey))

theorem Restamped.stampedAt (h : Restamped time t before after) (hnew : ∀ r ∈ before, key r ≠ k) :
    StampedAt time t k after := by
  intro r hr hkey
  rcases h r hr with htime | ⟨r₀, hr₀, hkey₀, -⟩
  · exact htime
  · exact absurd (hkey₀.trans hkey) (hnew r₀ hr₀)

theorem Restamped.of_mem (h : ∀ r ∈ after, time r = t ∨ r ∈ before) :
    Restamped time t before after := by
  intro r hr
  exact (h r hr).imp_right fun hr₀ => ⟨r, hr₀, rfl, rfl⟩

theorem Restamped.touched (h : Restamped time t before after) : Touched time t before after [] :=
  ⟨h, fun _ hk => absurd hk not_mem_nil⟩

theorem Touched.trans (h : Touched time t before mid keys) (h' : Touched time t mid after keys') :
    Touched time t before after (keys ++ keys') := by
  refine ⟨h.restamped.trans h'.restamped, fun k hk => ?_⟩
  rcases mem_append.mp hk with hk | hk
  · exact (h.stamped k hk).mono h'.restamped
  · exact h'.stamped k hk

theorem Touched.mono (h : Touched time t before mid keys) (h' : Restamped time t mid after) :
    Touched time t before after keys :=
  ⟨h.restamped.trans h', fun k hk => (h.stamped k hk).mono h'⟩

section Writes
variable [DecidableEq K] {U : Type*} {ukey : U → K} {merge : U → R → R} {updates : List U}

theorem touched_insertMany (hinsert : tbl.insertMany [row] = some after) (hrow : time row = t) :
    Touched time t tbl after [key row] := by
  have hmem : ∀ r, r ∈ after ↔ r ∈ tbl ∨ r = row := by
    intro r
    rw [mem_insertMany hinsert, mem_singleton]
  have hrestamped : Restamped time t tbl after := by
    refine .of_mem fun r hr => ?_
    rcases (hmem r).mp hr with hr | rfl
    · exact .inr hr
    · exact .inl hrow
  refine ⟨hrestamped, fun k hk => ?_⟩
  rw [mem_singleton.mp hk]
  refine hrestamped.stampedAt fun r hr => ?_
  exact (insertMany_eq_some hinsert).2.2 r hr row (mem_singleton_self row)

theorem touched_set (tbl : Table key) (hrow : time row = t) :
    Touched time t tbl (tbl.set row) [key row] := by
  constructor
  · refine .of_mem fun r hr => ?_
    by_cases hkey : key r = key row
    · rw [eq_of_mem_set hr hkey]
      exact .inl hrow
    · exact .inr ((mem_set_of_ne hkey).mp hr)
  · intro k hk r hr hkey
    rw [mem_singleton.mp hk] at hkey
    rw [eq_of_mem_set hr hkey]
    exact hrow

theorem time_updateRow (hupdates : ∀ u ∈ updates, ∀ r, time (merge u r) = t) (r : R) :
    time (updateRow key ukey merge updates r) = t ∨ ∀ u ∈ updates, ukey u ≠ key r := by
  induction updates generalizing r with
  | nil => exact .inr fun u hu => absurd hu not_mem_nil
  | cons u updates ih =>
    have hrest := fun u' hu' => hupdates u' (mem_cons_of_mem u hu')
    rw [updateRow, foldl_cons]
    split_ifs with hkey
    · -- the row has the time now, and the later updates leave it with the time
      refine .inl (updateRow_induction (P := fun r => time r = t) ?_ fun u' hu' r' _ _ => ?_)
      · exact hupdates u mem_cons_self r
      · exact hrest u' hu' r'
    · refine (ih hrest r).imp_right fun hne u' hu' => ?_
      rcases mem_cons.mp hu' with rfl | hu'
      · exact hkey
      · exact hne u' hu'

theorem touched_updateMany (tbl : Table key)
    (hmerge : ∀ u r, ukey u = key r → key (merge u r) = key r)
    (hupdates : ∀ u ∈ updates, ∀ r, time (merge u r) = t) :
    Touched time t tbl (tbl.updateMany updates ukey merge hmerge) (updates.map ukey) := by
  have hmem : ∀ r ∈ tbl.updateMany updates ukey merge hmerge,
      time r = t ∨ r ∈ tbl ∧ ∀ u ∈ updates, ukey u ≠ key r := by
    intro r hr
    replace hr : r ∈ (tbl.updateMany updates ukey merge hmerge).rows := hr
    rw [rows_updateMany_eq_map] at hr
    obtain ⟨r₀, hr₀, rfl⟩ := mem_map.mp hr
    refine (time_updateRow hupdates r₀).imp_right fun hne => ?_
    rw [updateRow_of_forall_ne merge hne]
    exact ⟨hr₀, hne⟩
  constructor
  · exact .of_mem fun r hr => (hmem r hr).imp_right And.left
  · intro k hk r hr hkey
    obtain ⟨u, hu, rfl⟩ := mem_map.mp hk
    rcases hmem r hr with htime | ⟨-, hne⟩
    · exact htime
    · exact absurd hkey.symm (hne u hu)

/-- A loop that inserts rows and collects the rows to be refreshed for the end: all it writes has
the time `t`, and every key it has seen is one of a row with the time or one to be refreshed. -/
structure Collected (time : R → T) (t : T) (ukey : U → K) (merge : U → R → R)
    (before rows : Table key) (updates : List U) (keys : List K) : Prop where
  restamped : Restamped time t before rows
  timely : ∀ u ∈ updates, ∀ r, time (merge u r) = t
  accounted : ∀ k ∈ keys, k ∈ updates.map ukey ∨ StampedAt time t k rows

namespace Collected

theorem start (time : R → T) (t : T) (ukey : U → K) (merge : U → R → R) (tbl : Table key) :
    Collected time t ukey merge tbl tbl [] [] :=
  ⟨.refl _ _ _, fun _ hu => absurd hu not_mem_nil, fun _ hk => absurd hk not_mem_nil⟩

theorem refresh (h : Collected time t ukey merge before tbl updates keys) {u : U}
    (hu : ∀ r, time (merge u r) = t) :
    Collected time t ukey merge before tbl (updates ++ [u]) (keys ++ [ukey u]) := by
  refine ⟨h.restamped, fun u' hu' => ?_, fun k hk => ?_⟩
  · rcases mem_append.mp hu' with hu' | hu'
    · exact h.timely u' hu'
    · rw [mem_singleton.mp hu']
      exact hu
  · rw [map_append, mem_append, map_singleton]
    rcases mem_append.mp hk with hk | hk
    · exact (h.accounted k hk).imp_left .inl
    · exact .inl (.inr hk)

theorem insert (h : Collected time t ukey merge before tbl updates keys)
    (hinsert : tbl.insertMany [row] = some after) (hrow : time row = t) :
    Collected time t ukey merge before after updates (keys ++ [key row]) := by
  obtain ⟨hrestamped, hstamped⟩ := touched_insertMany hinsert hrow
  refine ⟨h.restamped.trans hrestamped, h.timely, fun k hk => ?_⟩
  rcases mem_append.mp hk with hk | hk
  · exact (h.accounted k hk).imp_right fun hk => hk.mono hrestamped
  · exact .inr (hstamped k hk)

theorem flush (h : Collected time t ukey merge before tbl updates keys)
    (hmerge : ∀ u r, ukey u = key r → key (merge u r) = key r) :
    Touched time t before (tbl.updateMany updates ukey merge hmerge) keys := by
  have htouched := touched_updateMany tbl hmerge h.timely
  refine ⟨h.restamped.trans htouched.restamped, fun k hk => ?_⟩
  rcases h.accounted k hk with hupdate | hseen
  · exact htouched.stamped k hupdate
  · exact hseen.mono htouched.restamped

end Collected
end Writes
end Stamps
