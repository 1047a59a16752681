import Scanopy.Services.BindingLists

/-! What the merge of discovered bindings keeps covered. A binding leaves the list only for one of
the same port on all addresses, which takes every property over. -/

namespace Scanopy
open List BindingType

def BindingType.binds : BindingType → Uuid → Uuid → Prop
  | port p none, portId, _ => p = portId
  | port p (some i), portId, ipAddressId => p = portId ∧ i = ipAddressId
  | ipAddress _, _, _ => False

def coveredPairs (bindings : List Binding) : Set (Uuid × Uuid) :=
  {pair | ∃ b ∈ bindings, b.base.bindingType.binds pair.1 pair.2}

namespace BindingType
variable {s t u : BindingType}

/-- What a port on all addresses takes over from the same port on one of them. -/
def Inherited (P : BindingType → Prop) : Prop := ∀ s t, covers s t = true → P t → P s

theorem covers_eq_true (h : covers s t = true) : ∃ p i, s = port p none ∧ t = port p (some i) := by
  rcases s with i | ⟨p, _ | i⟩ <;> rcases t with j | ⟨q, _ | j⟩ <;> simp [covers] at h
  exact ⟨p, j, rfl, by rw [h]⟩

theorem inherited_conflicts (u : BindingType) : Inherited fun t => conflicts u t = true := by
  intro s t hcovers h
  obtain ⟨p, i, rfl, rfl⟩ := covers_eq_true hcovers
  cases u with
  | ipAddress j => simp [conflicts]
  | port q j => exact absurd h Bool.false_ne_true

theorem inherited_covers (u : BindingType) : Inherited fun t => covers t u = true := by
  intro s t hcovers h
  obtain ⟨p, i, rfl, rfl⟩ := covers_eq_true hcovers
  obtain ⟨q, j, hport, -⟩ := covers_eq_true h
  exact nomatch hport

theorem inherited_binds (portId ipAddressId : Uuid) :
    Inherited fun t => t.binds portId ipAddressId := by
  intro s t hcovers h
  obtain ⟨p, i, rfl, rfl⟩ := covers_eq_true hcovers
  exact h.1

def Accounts (t u : BindingType) : Prop := t = u ∨ covers t u = true ∨ conflicts u t = true

theorem inherited_accounts (u : BindingType) : Inherited fun t => Accounts t u := by
  rintro s t hcovers (rfl | h | h)
  · exact .inr (.inl hcovers)
  · exact .inr (.inl (inherited_covers _ s t hcovers h))
  · exact .inr (.inr (inherited_conflicts _ s t hcovers h))

end BindingType

section Step
variable {existing new : List Binding} {b e : Binding} {P : BindingType → Prop}

def HasBinding (P : BindingType → Prop) (bindings : List Binding) : Prop :=
  ∃ e ∈ bindings, P e.base.bindingType

theorem isBindingCoveredByExisting_iff : isBindingCoveredByExisting b existing = true ↔
    HasBinding (fun t => covers t b.base.bindingType = true) existing := by
  have h := not_congr (@isBindingCoveredByExisting_eq_false existing b)
  simpa [HasBinding] using h

theorem isSome_validateBindingNoConflict {t : BindingType} :
    (validateBindingNoConflict t existing).isSome = true ↔
      HasBinding (fun s => conflicts t s = true) existing := by
  have h := not_congr (@validateBindingNoConflict_eq_none existing t)
  rw [Option.isSome_iff_ne_none]
  simpa [HasBinding] using h

theorem mem_retainUndominated {t : BindingType} : e ∈ retainUndominated t existing ↔
    e ∈ existing ∧ covers t e.base.bindingType = false := by
  constructor
  · exact fun h => ⟨(retainUndominated_sublist t existing).subset h,
      not_covers_of_mem_retainUndominated h⟩
  · rintro ⟨he, hcovers⟩
    rcases t with i | ⟨p, _ | i⟩
    · exact he
    · refine mem_filter.mpr ⟨he, ?_⟩
      revert hcovers
      rcases e.base.bindingType with j | ⟨q, _ | j⟩
      · exact fun _ => rfl
      · exact fun _ => rfl
      · simp only [covers, Option.isSome_some, Bool.true_and, Bool.not_eq_true',
          decide_eq_false_iff_not]
        exact fun hne => Ne.symm hne
    · exact he

theorem hasBinding_retainUndominated (hP : Inherited P) {t : BindingType} :
    HasBinding P (retainUndominated t existing) ∨ P t ↔ HasBinding P existing ∨ P t := by
  refine or_congr_left' fun ht => ?_
  constructor
  · rintro ⟨e, he, h⟩
    exact ⟨e, (mem_retainUndominated.mp he).1, h⟩
  · rintro ⟨e, he, h⟩
    refine ⟨e, mem_retainUndominated.mpr ⟨he, ?_⟩, h⟩
    rw [← Bool.not_eq_true]
    exact fun hcovers => ht (hP _ _ hcovers h)

theorem hasBinding_upsertBinding (hP : Inherited P) :
    HasBinding P (upsertBinding existing b) ↔ HasBinding P existing ∨
      (validateBindingNoConflict b.base.bindingType existing = none ∧ P b.base.bindingType) := by
  unfold upsertBinding
  dsimp only
  split_ifs with hcovered hconflict hseen
  · refine ⟨.inl, ?_⟩
    rintro (h | ⟨-, hb⟩)
    · exact h
    · obtain ⟨e, he, hcovers⟩ := isBindingCoveredByExisting_iff.mp hcovered
      exact ⟨e, he, hP _ _ hcovers hb⟩
  · have hsome := Option.isSome_iff_ne_none.mp hconflict
    simp only [hsome, false_and, or_false]
  all_goals
    rw [Bool.not_eq_true, Option.isSome_eq_false_iff, Option.isNone_iff_eq_none] at hconflict
    simp only [hconflict, true_and]
    rw [← hasBinding_retainUndominated hP]
  · refine ⟨.inl, ?_⟩
    rintro (h | hb)
    · exact h
    · obtain ⟨e, he, htype⟩ := List.any_eq_true.mp hseen
      exact ⟨e, he, by rwa [of_decide_eq_true htype]⟩
  · simp only [HasBinding, mem_append, mem_singleton, or_and_right, exists_or, exists_eq_left]

theorem HasBinding.upsertBindings (hP : Inherited P) (h : HasBinding P existing) :
    HasBinding P (upsertBindings existing new) :=
  List.foldlRecOn new _ h fun _ hresult _ _ => (hasBinding_upsertBinding hP).mpr (.inl hresult)

theorem mem_or_covered_upsertBinding (h : e ∈ existing) : e ∈ upsertBinding existing b ∨
    HasBinding (fun t => covers t e.base.bindingType = true) (upsertBinding existing b) := by
  by_cases hcovers : covers b.base.bindingType e.base.bindingType = true
  · by_cases hconflict : validateBindingNoConflict b.base.bindingType existing = none
    · exact .inr ((hasBinding_upsertBinding (inherited_covers _)).mpr (.inr ⟨hconflict, hcovers⟩))
    · rw [← Ne, ← Option.isSome_iff_ne_none] at hconflict
      refine .inl ?_
      unfold upsertBinding
      rw [if_pos hconflict, ite_self]
      exact h
  · have hretained : e ∈ retainUndominated b.base.bindingType existing :=
      mem_retainUndominated.mpr ⟨h, by rwa [Bool.not_eq_true] at hcovers⟩
    refine .inl ?_
    unfold upsertBinding
    dsimp only
    split_ifs
    · exact h
    · exact h
    · exact hretained
    · exact mem_append_left _ hretained

theorem mem_or_covered_upsertBindings (h : e ∈ existing) : e ∈ upsertBindings existing new ∨
    HasBinding (fun t => covers t e.base.bindingType = true) (upsertBindings existing new) := by
  unfold upsertBindings
  induction new using List.reverseRecOn with
  | nil => exact .inl h
  | append_singleton new b ih =>
    rw [foldl_append, foldl_cons, foldl_nil]
    rcases ih with hmem | hcovered
    · exact mem_or_covered_upsertBinding hmem
    · exact .inr ((hasBinding_upsertBinding (inherited_covers _)).mpr (.inl hcovered))

end Step

section Order
variable {existing new : List Binding} {P : BindingType → Prop}

def ConflictFree (bindings : List Binding) : Prop :=
  ∀ b ∈ bindings, ∀ c ∈ bindings, conflicts b.base.bindingType c.base.bindingType = false

def accepted (existing new : List Binding) : List Binding :=
  new.filter fun b => validateBindingNoConflict b.base.bindingType existing = none

theorem validateBindingNoConflict_upsertBinding {b c : Binding}
    (h : conflicts c.base.bindingType b.base.bindingType = false) :
    validateBindingNoConflict c.base.bindingType (upsertBinding existing b) = none ↔
      validateBindingNoConflict c.base.bindingType existing = none := by
  have hkept : HasBinding (fun t => conflicts c.base.bindingType t = true)
      (upsertBinding existing b) ↔
        HasBinding (fun t => conflicts c.base.bindingType t = true) existing := by
    rw [hasBinding_upsertBinding (inherited_conflicts _), h]
    simp only [Bool.false_eq_true, and_false, or_false]
  rw [← isSome_validateBindingNoConflict, ← isSome_validateBindingNoConflict,
    Option.isSome_iff_ne_none, Option.isSome_iff_ne_none] at hkept
  exact not_iff_not.mp hkept

theorem hasBinding_upsertBindings (hP : Inherited P) (hfree : ConflictFree new) :
    HasBinding P (upsertBindings existing new) ↔
      HasBinding P existing ∨ HasBinding P (accepted existing new) := by
  unfold upsertBindings
  induction new generalizing existing with
  | nil => simp [accepted, HasBinding]
  | cons b new ih =>
    have hrest : ConflictFree new := fun c hc d hd =>
      hfree c (mem_cons_of_mem b hc) d (mem_cons_of_mem b hd)
    have hsame : accepted (upsertBinding existing b) new = accepted existing new := by
      refine filter_congr fun c hc => decide_eq_decide.mpr ?_
      exact validateBindingNoConflict_upsertBinding
        (hfree c (mem_cons_of_mem b hc) b mem_cons_self)
    rw [foldl_cons, ih hrest, hasBinding_upsertBinding hP, hsame, or_assoc]
    refine or_congr_right ?_
    simp only [HasBinding, accepted, filter_cons, decide_eq_true_eq]
    split_ifs with hnone
    · simp only [hnone, true_and, mem_cons, or_and_right, exists_or, exists_eq_left]
    · simp only [hnone, false_and, false_or]

theorem coveredPairs_upsertBindings (hfree : ConflictFree new) :
    coveredPairs (upsertBindings existing new) =
      coveredPairs existing ∪ coveredPairs (accepted existing new) := by
  ext ⟨portId, ipAddressId⟩
  exact hasBinding_upsertBindings (inherited_binds portId ipAddressId) hfree

end Order

section Coverage
variable {existing new : List Binding} {b e : Binding}

theorem hasBinding_of_mem_new (h : b ∈ new) :
    HasBinding (fun t => t = b.base.bindingType) (upsertBindings existing new) ∨
      isBindingCoveredByExisting b (upsertBindings existing new) = true ∨
        (validateBindingNoConflict b.base.bindingType (upsertBindings existing new)).isSome := by
  obtain ⟨before, after, rfl⟩ := append_of_mem h
  have hstep : HasBinding (fun t => Accounts t b.base.bindingType)
      (upsertBinding (upsertBindings existing before) b) := by
    refine (hasBinding_upsertBinding (inherited_accounts _)).mpr ?_
    by_cases hnone : validateBindingNoConflict b.base.bindingType
        (upsertBindings existing before) = none
    · exact .inr ⟨hnone, .inl rfl⟩
    · rw [← Ne, ← Option.isSome_iff_ne_none, isSome_validateBindingNoConflict] at hnone
      obtain ⟨e, he, hconflict⟩ := hnone
      exact .inl ⟨e, he, .inr (.inr hconflict)⟩
  have hrun : upsertBindings existing (before ++ b :: after) =
      upsertBindings (upsertBinding (upsertBindings existing before) b) after := by
    simp only [upsertBindings, foldl_append, foldl_cons]
  obtain ⟨r, hr, htype | hcovers | hconflict⟩ :
      HasBinding (fun t => Accounts t b.base.bindingType)
        (upsertBindings existing (before ++ b :: after)) := by
    rw [hrun]
    exact hstep.upsertBindings (inherited_accounts _)
  · exact .inl ⟨r, hr, htype⟩
  · exact .inr (.inl (isBindingCoveredByExisting_iff.mpr ⟨r, hr, hcovers⟩))
  · exact .inr (.inr (isSome_validateBindingNoConflict.mpr ⟨r, hr, hconflict⟩))

theorem exists_covers_of_removed (hwf : WellFormed existing) (he : e ∈ existing)
    (hgone : e ∉ upsertBindings existing new) :
    ∃ r ∈ upsertBindings existing new, r ∈ new ∧ isBindingCoveredByExisting e [r] = true := by
  obtain hmem | ⟨r, hr, hcovers⟩ := @mem_or_covered_upsertBindings existing new e he
  · exact absurd hmem hgone
  · refine ⟨r, hr, ?_, isBindingCoveredByExisting_iff.mpr
      ⟨r, mem_singleton_self r, hcovers⟩⟩
    rcases mem_upsertBindings hr with hstored | hnew
    · have huncovered := isBindingCoveredByExisting_eq_false.mp (hwf.uncovered e he) r hstored
      exact absurd (huncovered.symm.trans hcovers) Bool.false_ne_true
    · exact hnew

/-- The merge covers what it is given, and in any order the same. -/
theorem upsertBindings_coverage (existing new : List Binding) (hwf : WellFormed existing) :
    (∀ b ∈ new, (∃ r ∈ upsertBindings existing new, r.base.bindingType = b.base.bindingType) ∨
      isBindingCoveredByExisting b (upsertBindings existing new) = true ∨
        (validateBindingNoConflict b.base.bindingType (upsertBindings existing new)).isSome) ∧
    (∀ e ∈ existing, e ∉ upsertBindings existing new →
      ∃ r ∈ upsertBindings existing new, r ∈ new ∧ isBindingCoveredByExisting e [r] = true) ∧
    ∀ new', new.Perm new' →
      (∀ b ∈ new, ∀ c ∈ new, validateBindingNoConflict b.base.bindingType [c] = none) →
        coveredPairs (upsertBindings existing new) = coveredPairs (upsertBindings existing new') := by
  refine ⟨fun b hb => hasBinding_of_mem_new hb, fun e he => exists_covers_of_removed hwf he, ?_⟩
  intro new' hperm hnone
  have hfree : ConflictFree new := fun b hb c hc =>
    validateBindingNoConflict_eq_none.mp (hnone b hb c hc) c (mem_singleton_self c)
  have hfree' : ConflictFree new' := fun b hb c hc =>
    hfree b (hperm.mem_iff.mpr hb) c (hperm.mem_iff.mpr hc)
  rw [coveredPairs_upsertBindings hfree, coveredPairs_upsertBindings hfree']
  refine congrArg _ (Set.ext fun pair => ?_)
  have hsame := (hperm.filter fun b =>
    validateBindingNoConflict b.base.bindingType existing = none)
  exact exists_congr fun b => and_congr_left' hsame.mem_iff

private def discovered (id : Uuid) (t : BindingType) : Binding := ⟨id, 0, 0, none, none, ⟨1, 9, t⟩⟩

/-- A service on one address of a port that is then found on all of them. -/
theorem upsertBindings_coverage_widened :
    let existing := [discovered 21 (.port 31 (some 41))]
    let new := [discovered 0 (.port 32 (some 42)), discovered 0 (.port 31 none)]
    WellFormed existing ∧ coveredPairs (upsertBindings existing new) =
      coveredPairs (upsertBindings existing new.reverse) := by
  intro existing new
  have hwf : WellFormed existing := by decide
  exact ⟨hwf, (upsertBindings_coverage existing new hwf).2.2 _ new.reverse_perm.symm (by decide)⟩

end Coverage
end Scanopy
