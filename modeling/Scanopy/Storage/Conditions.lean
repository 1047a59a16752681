import Scanopy.Storage.Filters

/-! What the conditions of filters say. Each call of a filter adds conditions with placeholders of their
own, whatever has been added before. -/

namespace Scanopy

open List Nat Clauses Clauses.Token Sql AtomReader

section Params
variable {P Q : Type} {values vals : List SqlValue}
variable {sql : Sql P} {k n : ℕ}

theorem bound_append (h : k ≤ values.length) : bound (values ++ vals) k = bound values k := by
  unfold bound
  split
  · rfl
  · exact getElem?_append_left (by omega)

theorem bound_append_right (i : ℕ) : bound (values ++ vals) (values.length + i + 1) = vals[i]? := by
  unfold bound
  rw [if_neg (succ_ne_zero _), Nat.add_sub_cancel, getElem?_append_right (by omega)]
  congr 1
  omega

theorem bound_append_first : bound (values ++ vals) (values.length + 1) = vals[0]? :=
  bound_append_right 0

theorem bound_append_second : bound (values ++ vals) (values.length + 2) = vals[1]? :=
  bound_append_right 1

@[simp] theorem mapParams_nil (f : P → Q) : mapParams f [] = [] := rfl

@[simp] theorem mapParams_cons (f : P → Q) (t : Token (SqlWord P)) (ts : Sql P) :
    mapParams f (t :: ts) = mapToken f t :: mapParams f ts := rfl

@[simp] theorem mapParams_append (f : P → Q) (ts ts' : Sql P) :
    mapParams f (ts ++ ts') = mapParams f ts ++ mapParams f ts' := map_append

theorem mapParams_congr {f g : P → Q} (h : ∀ p, param p ∈ sql → f p = g p) :
    sql.mapParams f = sql.mapParams g := by
  refine map_congr_left fun t ht => ?_
  cases t with
  | leaf word =>
    cases word with
    | param p => exact congrArg _ (congrArg _ (h p ht))
    | _ => rfl
  | _ => rfl

theorem mapParams_mapParams {R : Type} (f : Q → R) (g : P → Q) (sql : Sql P) :
    (sql.mapParams g).mapParams f = sql.mapParams (f ∘ g) := by
  unfold mapParams
  rw [map_map]
  refine map_congr_left fun t _ => ?_
  cases t with
  | leaf word => cases word with | _ => rfl
  | _ => rfl

theorem balanced_mapParams {p : Token (SqlWord P) → Prop} {q : Token (SqlWord Q) → Prop} (f : P → Q)
    (h : Balanced p sql) (hpq : ∀ t, p t → q (mapToken f t)) :
    Balanced q (sql.mapParams f) := by
  induction h generalizing q with
  | nil => exact .nil
  | @cons p t ts allowed notParen _ ih =>
    refine .cons (hpq t allowed) ?_ (ih hpq)
    cases t with
    | lparen | rparen => exact Bool.noConfusion notParen
    | _ => rfl
  | group _ _ ihinner ih =>
    rw [mapParams_append, mapParams_cons, mapParams_cons]
    exact .group (ihinner fun _ _ => trivial) (ih hpq)

theorem conjunctive_mapParams (f : P → Q) (h : Conjunctive sql) :
    Conjunctive (sql.mapParams f) :=
  balanced_mapParams f h fun t ht => by
    cases t with
    | or => exact ht
    | _ => rfl

theorem mem_mapParams_const {p : P} {q q' : Q} (h : param p ∈ sql) :
    param q' ∈ sql.mapParams (fun _ => q) ↔ q' = q := by
  unfold mapParams
  rw [mem_map]
  constructor
  · rintro ⟨t, -, ht⟩
    cases t with
    | leaf word =>
      cases word with
      | param p' =>
        injection ht with ht
        injection ht with ht
        exact ht.symm
      | _ => exact nomatch ht
    | _ => exact nomatch ht
  · rintro rfl
    exact ⟨_, h, rfl⟩

theorem mapParams_intercalate (f : P → Q) (sep : Token (SqlWord P)) (sqls : List (Sql P)) :
    Sql.mapParams f ([sep].intercalate sqls) = [mapToken f sep].intercalate (sqls.map (mapParams f)) := by
  induction sqls with
  | nil => rfl
  | cons sql sqls ih =>
    by_cases hnil : sqls = []
    · rw [hnil, intercalate_singleton, map_singleton, intercalate_singleton]
    · rw [map_cons, intercalate_cons_of_ne_nil hnil,
        intercalate_cons_of_ne_nil (map_eq_nil_iff.not.mpr hnil), ← ih, mapParams_append,
        mapParams_append]
      rfl

theorem mapParams_commaSeparated (f : P → Q) (tokens : List (Token (SqlWord P))) :
    (commaSeparated tokens).mapParams f = commaSeparated (tokens.map (mapToken f)) := by
  unfold commaSeparated
  rw [mapParams_intercalate, map_map, map_map]
  rfl

theorem mem_intercalate {A : Type} {sep : A} {ls : List (List A)} {a : A} (hsep : a ≠ sep) :
    a ∈ [sep].intercalate ls ↔ ∃ l ∈ ls, a ∈ l := by
  induction ls with
  | nil => simp
  | cons l ls ih =>
    by_cases hnil : ls = []
    · simp [hnil]
    · rw [intercalate_cons_of_ne_nil hnil, mem_append, mem_append, mem_singleton,
        or_iff_left hsep, ih, exists_mem_cons_iff]

theorem bound_of_prefix {i : ℕ} (h : vals <+: values.drop n) (hi : i < vals.length) :
    bound values (n + i + 1) = some vals[i] := by
  obtain ⟨rest, hrest⟩ := h
  unfold bound
  rw [if_neg (succ_ne_zero _), Nat.add_sub_cancel, ← getElem?_drop, ← hrest,
    getElem?_append_left hi, getElem?_eq_getElem hi]

theorem mapParams_placeholders (h : vals <+: values.drop n) :
    (placeholders n vals.length).mapParams (bound values) =
      commaSeparated (vals.map fun v => param (some v)) := by
  unfold placeholders
  rw [mapParams_commaSeparated, map_map]
  congr 1
  refine ext_getElem (by simp) fun i hi hi' => ?_
  have hlt : i < vals.length := by simpa using hi'
  simp [mapToken, SqlWord.map, bound_of_prefix h hlt]

theorem mem_placeholders {start count : ℕ} :
    (param k : Token (SqlWord ℕ)) ∈ placeholders start count ↔ start < k ∧ k ≤ start + count := by
  unfold placeholders commaSeparated
  rw [mem_intercalate (by nofun)]
  simp only [mem_map, mem_range, exists_exists_and_eq_and, mem_singleton,
    Token.leaf.injEq, SqlWord.param.injEq]
  constructor
  · rintro ⟨i, hi, rfl⟩
    omega
  · rintro ⟨hlt, hle⟩
    exact ⟨k - start - 1, by omega, by omega⟩

end Params

namespace SqlDatabase
variable {db : SqlDatabase} {row : SqlRow} {a : String} {c : Comparison} {v : SqlValue}
  {vs : List SqlValue} {ts ts' : Sql (Option SqlValue)}
variable {parts : List (Sql (Option SqlValue))} {x : Option SqlValue} {P : Type}

theorem atomic_of_leaf {ts : Sql P} (h : ∀ t ∈ ts, ∃ word, t = leaf word) : Atomic ts := by
  induction ts with
  | nil => exact .nil
  | cons t ts ih =>
    obtain ⟨hword, hts⟩ := forall_mem_cons.mp h
    obtain ⟨word, rfl⟩ := hword
    exact .cons ⟨rfl, rfl⟩ rfl (ih hts)

def valueList (vs : List SqlValue) : Sql (Option SqlValue) :=
  .lparen :: commaSeparated (vs.map fun v => param (some v)) ++ [.rparen]

theorem atomic_commaSeparated : Atomic (commaSeparated (vs.map fun v => param (some v))) := by
  refine atomic_of_leaf fun t ht => ?_
  by_cases hcomma : t = comma
  · exact ⟨_, hcomma⟩
  · obtain ⟨l, hl, ht⟩ := (mem_intercalate hcomma).mp ht
    obtain ⟨t', ht', rfl⟩ := mem_map.mp hl
    obtain ⟨v, -, rfl⟩ := mem_map.mp ht'
    exact ⟨_, mem_singleton.mp ht⟩

theorem atomic_valueList : Atomic (valueList vs) :=
  .group (atomic_commaSeparated.mono fun _ _ => trivial) .nil

theorem commaSeparated_cons_cons (t t' : Token (SqlWord P)) (ts : Sql P) :
    commaSeparated (t :: t' :: ts) = t :: comma :: commaSeparated (t' :: ts) := by
  unfold commaSeparated
  rw [map_cons, map_cons, intercalate_cons_cons]
  rfl

theorem listItems_commaSeparated (row : SqlRow) (h : vs ≠ []) :
    listItems row (commaSeparated (vs.map fun v => param (some v)) ++ [.rparen]) =
      some (vs.map some) := by
  induction vs with
  | nil => exact absurd rfl h
  | cons v vs ih =>
    cases vs with
    | nil => rfl
    | cons v' vs =>
      have hrest := ih (cons_ne_nil _ _)
      rw [map_cons] at hrest
      rw [map_cons, map_cons, commaSeparated_cons_cons, cons_append, cons_append]
      change (do
        let item ← termValue row (param (some v))
        let items ← listItems row (commaSeparated (param (some v') ::
          vs.map fun v => param (some v)) ++ [Token.rparen])
        some (item :: items)) = _
      rw [hrest]
      rfl

theorem inItems_commaSeparated {sub : SqlRow → Sql (Option SqlValue) → Truth} (h : vs ≠ []) :
    db.inItems sub row (commaSeparated (vs.map fun v => param (some v)) ++ [.rparen]) =
      some (vs.map some) := by
  rw [← listItems_commaSeparated row h]
  cases vs with
  | nil => exact absurd rfl h
  | cons v vs =>
    cases vs with
    | nil => rfl
    | cons v' vs =>
      rw [map_cons, map_cons, commaSeparated_cons_cons]
      rfl

theorem compareTruth_eq_true {y : Option SqlValue} :
    db.compareTruth c x y = some true ↔ ∃ u w, x = some u ∧ y = some w ∧ db.compare c u w = true := by
  cases x with
  | none => simp [compareTruth]
  | some u =>
    cases y with
    | none => simp [compareTruth]
    | some w => simp [compareTruth]

theorem compare_eq {u w : SqlValue} : db.compare .eq u w = true ↔ u = w := decide_eq_true_iff

theorem exists_compare_timestamp {t : Timestamp} {R : Timestamp → Prop}
    (hc : c = .lt ∨ c = .le ∨ c = .gt ∨ c = .ge)
    (hR : ∀ u, db.compare c (.timestamp u) (.timestamp t) = true ↔ R u) :
    (∃ u, x = some u ∧ db.compare c u (.timestamp t) = true) ↔
      ∃ u, x = some (.timestamp u) ∧ R u := by
  constructor
  · rintro ⟨u, hu, hcompare⟩
    cases u with
    | timestamp u => exact ⟨u, hu, (hR u).mp hcompare⟩
    | _ => rcases hc with rfl | rfl | rfl | rfl <;> exact nomatch hcompare
  · rintro ⟨u, hu, hcompare⟩
    exact ⟨_, hu, (hR u).mpr hcompare⟩

theorem isInTruth_eq_true {items : List (Option SqlValue)} :
    db.isInTruth x items = some true ↔ ∃ u, x = some u ∧ some u ∈ items := by
  simp only [isInTruth, Truth.any_eq_true, mem_map, exists_exists_and_eq_and,
    compareTruth_eq_true, compare_eq]
  constructor
  · rintro ⟨_, hy, u, w, rfl, rfl, rfl⟩
    exact ⟨u, rfl, hy⟩
  · rintro ⟨u, rfl, hu⟩
    exact ⟨_, hu, u, u, rfl, rfl, rfl⟩

theorem isInTruth_eq_false (h : vs ≠ []) :
    db.isInTruth x (vs.map some) = some false ↔ ∃ u, x = some u ∧ u ∉ vs := by
  simp only [isInTruth, Truth.any_eq_false, forall_mem_map]
  cases x with
  | none =>
    obtain ⟨v, hv⟩ := exists_mem_of_ne_nil vs h
    exact iff_of_false (fun hall => nomatch hall v hv) fun ⟨_, hu, _⟩ => nomatch hu
  | some u =>
    simp only [compareTruth, compare, Option.some_inj, exists_eq_left', decide_eq_false_iff_not]
    exact ⟨fun hall hu => hall u hu rfl, fun hu v hv heq => hu (heq ▸ hv)⟩

theorem satisfies_atom (h : Atomic ts) : db.Satisfies row (operand a :: ts) ↔
    db.readAtom db.atoms.holds row (operand a :: ts) = some true := by
  unfold Satisfies
  rw [holds_leaf h]
  rfl

theorem satisfies_never : ¬db.Satisfies row [never] := by
  unfold Satisfies
  rw [holds_leaf .nil]
  nofun

theorem satisfies_isNull : db.Satisfies row [operand a, isNull] ↔ row a = none := by
  rw [satisfies_atom (.cons ⟨rfl, rfl⟩ rfl .nil), readAtom, Option.some_inj, Option.isNone_iff_eq_none]

theorem satisfies_isNotNull : db.Satisfies row [operand a, isNotNull] ↔ row a ≠ none := by
  rw [satisfies_atom (.cons ⟨rfl, rfl⟩ rfl .nil), readAtom, Option.some_inj,
    Option.isSome_iff_ne_none]

theorem satisfies_comparison : db.Satisfies row [operand a, comparison c, param (some v)] ↔
    ∃ u, row a = some u ∧ db.compare c u v = true := by
  rw [satisfies_atom (.cons ⟨rfl, rfl⟩ rfl (.cons ⟨rfl, rfl⟩ rfl .nil)), readAtom]
  simp only [termValue, compareTruth_eq_true, Option.some_inj, exists_eq_left', exists_and_left]

theorem satisfies_literal : db.Satisfies row [operand a, comparison c, literal v] ↔
    ∃ u, row a = some u ∧ db.compare c u v = true := satisfies_comparison

theorem satisfies_isIn (h : vs ≠ []) : db.Satisfies row (operand a :: isIn :: valueList vs) ↔
    ∃ v ∈ vs, row a = some v := by
  rw [satisfies_atom (.cons ⟨rfl, rfl⟩ rfl atomic_valueList), valueList, cons_append, readAtom,
    inItems_commaSeparated h]
  simp only [isInTruth_eq_true, mem_map, Option.some_inj, exists_eq_right]
  exact exists_congr fun v => and_comm

theorem satisfies_isNotIn (h : vs ≠ []) : db.Satisfies row (operand a :: isNotIn :: valueList vs) ↔
    ∃ u, row a = some u ∧ u ∉ vs := by
  rw [satisfies_atom (.cons ⟨rfl, rfl⟩ rfl atomic_valueList), valueList, cons_append, readAtom,
    inItems_commaSeparated h]
  exact Truth.not_eq_true.trans (isInTruth_eq_false h)

theorem satisfies_eqAny {ids : List Uuid} : db.Satisfies row
    [operand a, eqAny, .lparen, param (some (.uuidArray ids)), .rparen] ↔
      ∃ id ∈ ids, row a = some (.uuid id) := by
  have hinner : Balanced (fun _ => True) [param (some (SqlValue.uuidArray ids))] :=
    .cons trivial rfl .nil
  have hgroup := Balanced.group (p := fun t => t.isOr = false ∧ t.isAnd = false) hinner .nil
  have hatomic : Atomic [eqAny, .lparen, param (some (SqlValue.uuidArray ids)), .rparen] :=
    .cons ⟨rfl, rfl⟩ rfl hgroup
  rw [satisfies_atom hatomic, readAtom, isInTruth_eq_true]
  simp only [mem_map, Option.some_inj]
  constructor
  · rintro ⟨_, hrow, id, hid, rfl⟩
    exact ⟨id, hid, hrow⟩
  · rintro ⟨id, hid, hrow⟩
    exact ⟨_, hrow, id, hid, rfl⟩

theorem satisfies_select {column source : String} (h : Balanced (fun _ => True) ts) :
    db.Satisfies row (operand a :: isIn :: .lparen :: select column source :: ts ++ [.rparen]) ↔
      ∃ r ∈ db.tables source, db.Satisfies r ts ∧ ∃ v, row a = some v ∧ r column = some v := by
  have hatomic : Atomic (isIn :: (.lparen :: (select column source :: ts) ++ [.rparen])) :=
    .cons ⟨rfl, rfl⟩ rfl (.group (.cons trivial rfl h) .nil)
  have hitems : db.inItems db.atoms.holds row (select column source :: (ts ++ [.rparen])) =
      some (((db.tables source).filter fun r => db.atoms.holds r ts = some true).map (· column)) := by
    rw [inItems, if_pos getLast?_concat, dropLast_concat]
  refine (satisfies_atom hatomic).trans ?_
  rw [cons_append, cons_append, readAtom, hitems]
  simp only [isInTruth_eq_true, mem_map, mem_filter, decide_eq_true_iff]
  constructor
  · rintro ⟨u, hu, r, ⟨hr, hholds⟩, hcolumn⟩
    exact ⟨r, hr, hholds, u, hu, hcolumn⟩
  · rintro ⟨r, hr, hholds, u, hu, hcolumn⟩
    exact ⟨u, hu, r, ⟨hr, hholds⟩, hcolumn⟩

theorem satisfies_and (h : Conjunctive ts) (h' : Conjunctive ts') :
    db.Satisfies row (ts ++ .and :: ts') ↔ db.Satisfies row ts ∧ db.Satisfies row ts' := by
  unfold Satisfies
  rw [holds_and h h', Truth.and_eq_true]

theorem satisfies_or (h : Conjunctive ts) :
    db.Satisfies row (ts ++ .or :: ts') ↔ db.Satisfies row ts ∨ db.Satisfies row ts' := by
  unfold Satisfies
  rw [holds_or h, Truth.or_eq_true]

theorem satisfies_group (h : Balanced (fun _ => True) ts) :
    db.Satisfies row (.lparen :: ts ++ [.rparen]) ↔ db.Satisfies row ts := by
  unfold Satisfies
  rw [holds_group h]

theorem satisfies_intercalate_or (hne : parts ≠ [])
    (h : ∀ part ∈ parts, Conjunctive part) :
    db.Satisfies row ([.or].intercalate parts) ↔ ∃ part ∈ parts, db.Satisfies row part := by
  induction parts with
  | nil => exact absurd rfl hne
  | cons part parts ih =>
    obtain ⟨hpart, hparts⟩ := forall_mem_cons.mp h
    by_cases hnil : parts = []
    · simp [hnil]
    · rw [intercalate_cons_of_ne_nil hnil, append_assoc, singleton_append,
        satisfies_or hpart, ih hnil hparts, exists_mem_cons_iff]

theorem balanced_intercalate_or
    (h : ∀ part ∈ parts, Conjunctive part) : Balanced (fun _ => True) ([.or].intercalate parts) := by
  induction parts with
  | nil => exact .nil
  | cons part parts ih =>
    obtain ⟨hpart, hparts⟩ := forall_mem_cons.mp h
    have hpart := hpart.mono fun _ _ => trivial
    by_cases hnil : parts = []
    · rwa [hnil, intercalate_singleton]
    · rw [intercalate_cons_of_ne_nil hnil, append_assoc, singleton_append]
      exact hpart.append (.cons trivial rfl (ih hparts))

end SqlDatabase

namespace StorableFilter
open SqlDatabase
variable {T : FilterEntity}

/-- What a call does: new conditions with new placeholders, which with their values in place are
`bounds`. -/
structure Appends (f f' : StorableFilter T) (bounds : List (Sql (Option SqlValue))) : Prop where
  written : ∃ new vals, f'.conditions = f.conditions ++ new ∧ f'.values = f.values ++ vals ∧
    new.map (mapParams (bound f'.values)) = bounds ∧
    ∀ k, (∃ c ∈ new, param k ∈ c) ↔ f.values.length < k ∧ k ≤ f'.values.length
  conjunctive : ∀ c ∈ bounds, Conjunctive c

namespace Appends
variable {f f' f'' : StorableFilter T} {bounds bounds' : List (Sql (Option SqlValue))}

theorem of_eq (hconditions : f'.conditions = f.conditions) (hvalues : f'.values = f.values) :
    Appends f f' [] := by
  refine ⟨⟨[], [], ?_, ?_, rfl, fun k => ?_⟩, fun _ h => absurd h not_mem_nil⟩
  · rw [hconditions, append_nil]
  · rw [hvalues, append_nil]
  · rw [hvalues]
    exact iff_of_false (fun ⟨_, h, _⟩ => not_mem_nil h) fun h => absurd h.2 (not_le.mpr h.1)

theorem trans (h : Appends f f' bounds) (h' : Appends f' f'' bounds') :
    Appends f f'' (bounds ++ bounds') := by
  obtain ⟨new, vals, hconditions, hvalues, hbounds, hplaceholders⟩ := h.written
  obtain ⟨new', vals', hconditions', hvalues', hbounds', hplaceholders'⟩ := h'.written
  refine ⟨⟨new ++ new', vals ++ vals', ?_, ?_, ?_, fun k => ?_⟩, fun c hc => ?_⟩
  · rw [hconditions', hconditions, append_assoc]
  · rw [hvalues', hvalues, append_assoc]
  · rw [map_append, hbounds', ← hbounds]
    refine congrArg (· ++ bounds') (map_congr_left fun c hc => mapParams_congr fun k hk => ?_)
    rw [hvalues']
    exact bound_append ((hplaceholders k).mp ⟨c, hc, hk⟩).2
  · have hlength : f'.values.length = f.values.length + vals.length := by
      rw [hvalues, length_append]
    have hlength' : f''.values.length = f'.values.length + vals'.length := by
      rw [hvalues', length_append]
    have hor : (∃ c ∈ new ++ new', param k ∈ c) ↔
        (∃ c ∈ new, param k ∈ c) ∨ ∃ c ∈ new', param k ∈ c := by
      simp only [mem_append, or_and_right, exists_or]
    rw [hor, hplaceholders, hplaceholders']
    omega
  · exact (mem_append.mp hc).elim (h.conjunctive c) (h'.conjunctive c)

theorem push {condition : Sql ℕ} {values : List SqlValue} {b : Sql (Option SqlValue)}
    (hbound : condition.mapParams (bound (f.values ++ values)) = b)
    (hplaceholders : ∀ k, param k ∈ condition ↔
      f.values.length < k ∧ k ≤ f.values.length + values.length)
    (hconjunctive : Conjunctive b) : Appends f (f.push condition values) [b] := by
  refine ⟨⟨[condition], values, rfl, rfl, ?_, fun k => ?_⟩, fun c hc => ?_⟩
  · exact congrArg ([·]) hbound
  · simp only [mem_singleton, exists_eq_left, StorableFilter.push, length_append, hplaceholders]
  · rwa [mem_singleton.mp hc]

end Appends

section NetworkClauses
variable {networkCol seenCol : String} {c : Comparison}

def cutoffValues (cutoffs : List (Uuid × Timestamp)) : List SqlValue :=
  cutoffs.flatMap fun x => [.uuid x.1, .timestamp x.2]

def boundNetworkClause (networkCol seenCol : String) (c : Comparison) (x : Uuid × Timestamp) :
    Sql (Option SqlValue) :=
  .lparen :: ([operand networkCol, comparison .eq, param (some (.uuid x.1))] ++ .and ::
    [operand seenCol, comparison c, param (some (.timestamp x.2))]) ++ [.rparen]

theorem networkClauses_snd (cutoffs : List (Uuid × Timestamp)) (values : List SqlValue) :
    (networkClauses networkCol seenCol c cutoffs values).2 = values ++ cutoffValues cutoffs := by
  induction cutoffs generalizing values with
  | nil => exact (append_nil _).symm
  | cons x cutoffs ih => exact (ih _).trans (append_assoc ..)

theorem mapParams_networkClauses (cutoffs : List (Uuid × Timestamp)) (values : List SqlValue) :
    (networkClauses networkCol seenCol c cutoffs values).1.map
      (mapParams (bound (values ++ cutoffValues cutoffs))) =
        cutoffs.map (boundNetworkClause networkCol seenCol c) := by
  induction cutoffs generalizing values with
  | nil => rfl
  | cons x cutoffs ih =>
    have htail := ih (values ++ [.uuid x.1, .timestamp x.2])
    rw [append_assoc] at htail
    rw [networkClauses, map_cons, map_cons]
    refine congrArg₂ cons ?_ htail
    simp [mapToken, SqlWord.map, cutoffValues, bound_append_first, bound_append_second,
      boundNetworkClause]

theorem mem_networkClauses (cutoffs : List (Uuid × Timestamp)) (values : List SqlValue) (k : ℕ) :
    (∃ clause ∈ (networkClauses networkCol seenCol c cutoffs values).1, param k ∈ clause) ↔
      values.length < k ∧ k ≤ values.length + (cutoffValues cutoffs).length := by
  induction cutoffs generalizing values with
  | nil =>
    refine iff_of_false (fun ⟨_, h, _⟩ => not_mem_nil h) fun h => ?_
    exact absurd h.2 (not_le.mpr h.1)
  | cons x cutoffs ih =>
    have hlength : (cutoffValues (x :: cutoffs)).length = 2 + (cutoffValues cutoffs).length := by
      rw [cutoffValues, flatMap_cons, length_append]
      rfl
    rw [networkClauses, exists_mem_cons_iff, ih, hlength]
    simp only [mem_cons, not_mem_nil, Token.leaf.injEq, SqlWord.param.injEq, reduceCtorEq,
      false_or, or_false, length_append, length_cons, length_nil]
    omega

theorem conjunctive_boundNetworkClause {cutoffs : List (Uuid × Timestamp)} :
    ∀ part ∈ cutoffs.map (boundNetworkClause networkCol seenCol c), Conjunctive part := by
  intro part hpart
  obtain ⟨x, -, rfl⟩ := mem_map.mp hpart
  exact .group (.cons trivial rfl (.cons trivial rfl (.cons trivial rfl (.cons trivial rfl
    (.cons trivial rfl (.cons trivial rfl (.cons trivial rfl .nil))))))) .nil

theorem satisfies_boundNetworkClause {db : SqlDatabase} {row : SqlRow} {x : Uuid × Timestamp} :
    db.Satisfies row (boundNetworkClause networkCol seenCol c x) ↔
      row networkCol = some (.uuid x.1) ∧
        db.Satisfies row [operand seenCol, comparison c, param (some (.timestamp x.2))] := by
  have hpart (a : String) (c : Comparison) (v : SqlValue) :
      Conjunctive [operand a, comparison c, param (some v)] :=
    .cons rfl rfl (.cons rfl rfl (.cons rfl rfl .nil))
  have hnetwork := hpart networkCol .eq (.uuid x.1)
  have hseen := hpart seenCol c (.timestamp x.2)
  have hinner := (hnetwork.append (.cons (t := Token.and) rfl rfl hseen)).mono (q := fun _ => True)
    fun _ _ => trivial
  unfold boundNetworkClause
  rw [satisfies_group hinner, satisfies_and hnetwork hseen,
    satisfies_comparison]
  simp only [compare_eq, exists_eq_right]

def managedNames : List SqlValue := [.string "Discovery", .string "DiscoveryWithMatch"]

theorem atomic_managedClause : Atomic (managedClause T (P := Option SqlValue)) := by
  have hlist : Balanced (fun _ => True) [literal (P := Option SqlValue) (.string "Discovery"), comma,
      literal (.string "DiscoveryWithMatch")] :=
    .cons trivial rfl (.cons trivial rfl (.cons trivial rfl .nil))
  exact .cons ⟨rfl, rfl⟩ rfl (.cons ⟨rfl, rfl⟩ rfl
    (Balanced.group (p := fun t => t.isOr = false ∧ t.isAnd = false) hlist .nil))

theorem holds_managedClause (db : SqlDatabase) (row : SqlRow) :
    db.atoms.holds row (managedClause T) =
      db.isInTruth (row (jsonField (qualifyColumn T "source") "type")) (managedNames.map some) := by
  rw [holds_of_atomic atomic_managedClause]
  rfl

end NetworkClauses

/-- A part of a condition: what it writes after `n` values, the values that it adds, what that becomes
with the values in place, and what it says. -/
structure Part (sql : ℕ → Sql ℕ) (vals : List SqlValue) (b : Sql (Option SqlValue))
    (P : SqlDatabase → SqlRow → Prop) : Prop where
  bound : ∀ n values, vals <+: values.drop n → (sql n).mapParams (bound values) = b
  holes : ∀ n k, param k ∈ sql n ↔ n < k ∧ k ≤ n + vals.length
  conjunctive : Conjunctive b
  holds : ∀ db row, db.Satisfies row b ↔ P db row

namespace Part
variable {sql sql' : ℕ → Sql ℕ} {vals vals' vs : List SqlValue} {b b' : Sql (Option SqlValue)}
  {P P' : SqlDatabase → SqlRow → Prop}

theorem congr (h : Part sql vals b P) (hP : ∀ db row, P db row ↔ P' db row) : Part sql vals b P' :=
  ⟨h.bound, h.holes, h.conjunctive, fun db row => (h.holds db row).trans (hP db row)⟩

theorem const (condition : Sql ℕ) (b : Sql (Option SqlValue))
    (hbound : ∀ values, condition.mapParams (Sql.bound values) = b)
    (hparam : ∀ k, Sql.param k ∉ condition) (hconjunctive : Conjunctive b)
    (hP : ∀ db row, db.Satisfies row b ↔ P db row) : Part (fun _ => condition) [] b P := by
  refine ⟨fun _ _ _ => hbound _, fun n k => ?_, hconjunctive, hP⟩
  exact iff_of_false (hparam k) fun h => absurd h.2 (not_le.mpr h.1)

theorem comparison (a : String) (c : Comparison) (v : SqlValue) :
    Part (fun n => [operand a, Sql.comparison c, Sql.param (n + 1)]) [v]
      [operand a, Sql.comparison c, Sql.param (some v)]
      fun db row => ∃ u, row a = some u ∧ db.compare c u v = true := by
  refine ⟨fun n values h => ?_, fun n k => ?_, .cons rfl rfl (.cons rfl rfl (.cons rfl rfl .nil)),
    fun db row => satisfies_comparison⟩
  · have hv := bound_of_prefix h (Nat.zero_lt_one)
    simp only [Nat.add_zero] at hv
    simp [mapToken, SqlWord.map, hv]
  · simp only [mem_cons, not_mem_nil, Token.leaf.injEq, SqlWord.param.injEq, reduceCtorEq,
      false_or, or_false, length_singleton]
    omega

theorem equal (a : String) (v : SqlValue) :
    Part (fun n => [operand a, Sql.comparison .eq, Sql.param (n + 1)]) [v]
      [operand a, Sql.comparison .eq, Sql.param (some v)] fun _ row => row a = some v :=
  (comparison a .eq v).congr fun db row => by simp only [compare_eq, exists_eq_right]

theorem instant (a : String) {c : Comparison} {t : Timestamp} {R : Timestamp → Prop}
    (hc : c = .lt ∨ c = .le ∨ c = .gt ∨ c = .ge)
    (hR : ∀ {db : SqlDatabase} (u), db.compare c (.timestamp u) (.timestamp t) = true ↔ R u) :
    Part (fun n => [operand a, Sql.comparison c, Sql.param (n + 1)]) [.timestamp t]
      [operand a, Sql.comparison c, Sql.param (some (.timestamp t))]
      fun _ row => ∃ u, row a = some (.timestamp u) ∧ R u :=
  (comparison a c _).congr fun _ _ => exists_compare_timestamp hc hR

theorem literal (a : String) (c : Comparison) (v : SqlValue) :
    Part (fun _ => [operand a, Sql.comparison c, Sql.literal v]) []
      [operand a, Sql.comparison c, Sql.literal v]
      fun db row => ∃ u, row a = some u ∧ db.compare c u v = true :=
  .const _ _ (fun _ => rfl) (by simp) (.cons rfl rfl (.cons rfl rfl (.cons rfl rfl .nil)))
    fun _ _ => satisfies_literal

theorem equalLiteral (a : String) (v : SqlValue) :
    Part (fun _ => [operand a, Sql.comparison .eq, Sql.literal v]) []
      [operand a, Sql.comparison .eq, Sql.literal v] fun _ row => row a = some v :=
  (literal a .eq v).congr fun db row => by simp only [compare_eq, exists_eq_right]

theorem isNull (a : String) : Part (fun _ => [operand a, Sql.isNull]) [] [operand a, Sql.isNull]
    fun _ row => row a = none :=
  .const _ _ (fun _ => rfl) (by simp) (.cons rfl rfl (.cons rfl rfl .nil))
    fun _ _ => satisfies_isNull

theorem isNotNull (a : String) : Part (fun _ => [operand a, Sql.isNotNull]) []
    [operand a, Sql.isNotNull] fun _ row => row a ≠ none :=
  .const _ _ (fun _ => rfl) (by simp) (.cons rfl rfl (.cons rfl rfl .nil))
    fun _ _ => satisfies_isNotNull

theorem inList (a : String) (word : SqlWord ℕ) (word' : SqlWord (Option SqlValue))
    (hword : ∀ f, word.map f = word') (hparam : ∀ k, word ≠ .param k)
    (hP : ∀ db row, db.Satisfies row (operand a :: .leaf word' :: valueList vs) ↔ P db row) :
    Part (fun n => operand a :: .leaf word :: .lparen :: placeholders n vs.length ++ [.rparen]) vs
      (operand a :: .leaf word' :: valueList vs) P := by
  refine ⟨fun n values h => ?_, fun n k => ?_, ?_, hP⟩
  · have hmap : mapToken (Sql.bound values) (.leaf word) = .leaf word' := congrArg _ (hword _)
    rw [cons_append, cons_append, cons_append, mapParams_cons, mapParams_cons,
      mapParams_cons, mapParams_append, mapParams_placeholders h, hmap]
    rfl
  · simp [mem_placeholders, (hparam k).symm]
  · exact .cons rfl rfl (.cons rfl rfl (atomic_valueList.mono fun _ => And.left))

theorem isIn (a : String) (vs : List SqlValue) (h : vs ≠ []) :
    Part (fun n => operand a :: Sql.isIn :: .lparen :: placeholders n vs.length ++ [.rparen]) vs
      (operand a :: Sql.isIn :: valueList vs) fun _ row => ∃ v ∈ vs, row a = some v :=
  inList a _ _ (fun _ => rfl) nofun fun _ _ => satisfies_isIn h

theorem isNotIn (a : String) (vs : List SqlValue) (h : vs ≠ []) :
    Part (fun n => operand a :: Sql.isNotIn :: .lparen :: placeholders n vs.length ++ [.rparen]) vs
      (operand a :: Sql.isNotIn :: valueList vs)
      fun _ row => ∃ u, row a = some u ∧ u ∉ vs :=
  inList a _ _ (fun _ => rfl) nofun fun _ _ => satisfies_isNotIn h

theorem eqAny (a : String) (ids : List Uuid) :
    Part (fun n => [operand a, Sql.eqAny, .lparen, Sql.param (n + 1), .rparen]) [.uuidArray ids]
      [operand a, Sql.eqAny, .lparen, Sql.param (some (.uuidArray ids)), .rparen]
      fun _ row => ∃ id ∈ ids, row a = some (.uuid id) := by
  have hinner : Balanced (fun _ => True) [Sql.param (some (SqlValue.uuidArray ids))] :=
    .cons trivial rfl .nil
  refine ⟨fun n values h => ?_, fun n k => ?_, .cons rfl rfl (.cons rfl rfl (Balanced.group
    (p := fun t => t.isOr = false) hinner .nil)), fun db row => satisfies_eqAny⟩
  · have hv := bound_of_prefix h (Nat.zero_lt_one)
    simp only [Nat.add_zero] at hv
    simp [mapToken, SqlWord.map, hv]
  · simp only [mem_cons, not_mem_nil, Token.leaf.injEq, SqlWord.param.injEq, reduceCtorEq,
      false_or, or_false, length_singleton]
    omega

theorem drop_of_prefix {n : ℕ} {values : List SqlValue} (h : vals ++ vals' <+: values.drop n) :
    vals <+: values.drop n ∧ vals' <+: values.drop (n + vals.length) := by
  refine ⟨(prefix_append _ _).trans h, ?_⟩
  obtain ⟨rest, hrest⟩ := h
  rw [← drop_drop, ← hrest, append_assoc, drop_left]
  exact prefix_append _ _

theorem joined (h : Part sql vals b P) (h' : Part sql' vals' b' P') (t : Token (SqlWord ℕ))
    (t' : Token (SqlWord (Option SqlValue))) (ht : ∀ f, mapToken f t = t')
    (hparam : ∀ k, Sql.param k ≠ t) {n : ℕ} :
    (∀ values, vals ++ vals' <+: values.drop n →
      (sql n ++ t :: sql' (n + vals.length)).mapParams (Sql.bound values) = b ++ t' :: b') ∧
      ∀ k, Sql.param k ∈ sql n ++ t :: sql' (n + vals.length) ↔
        n < k ∧ k ≤ n + (vals ++ vals').length := by
  constructor
  · intro values hprefix
    obtain ⟨hvals, hvals'⟩ := drop_of_prefix hprefix
    rw [mapParams_append, mapParams_cons, h.bound _ _ hvals, h'.bound _ _ hvals', ht]
  · intro k
    rw [mem_append, mem_cons, h.holes, h'.holes, length_append, or_iff_right (hparam k)]
    omega

theorem and (h : Part sql vals b P) (h' : Part sql' vals' b' P') :
    Part (fun n => sql n ++ .and :: sql' (n + vals.length)) (vals ++ vals') (b ++ .and :: b')
      fun db row => P db row ∧ P' db row := by
  have hjoined (n : ℕ) := joined (n := n) h h' .and .and (fun _ => rfl) nofun
  refine ⟨fun n => (hjoined n).1, fun n => (hjoined n).2,
    h.conjunctive.append (.cons rfl rfl h'.conjunctive), fun db row => ?_⟩
  rw [satisfies_and h.conjunctive h'.conjunctive, h.holds, h'.holds]

theorem or (h : Part sql vals b P) (h' : Part sql' vals' b' P') :
    Part (fun n => .lparen :: (sql n ++ .or :: sql' (n + vals.length)) ++ [.rparen]) (vals ++ vals')
      (.lparen :: (b ++ .or :: b') ++ [.rparen]) fun db row => P db row ∨ P' db row := by
  have hjoined (n : ℕ) := joined (n := n) h h' .or .or (fun _ => rfl) nofun
  have hinner : Balanced (fun _ => True) (b ++ .or :: b') :=
    (h.conjunctive.mono fun _ _ => trivial).append
      (.cons trivial rfl (h'.conjunctive.mono fun _ _ => trivial))
  refine ⟨fun n values hprefix => ?_, fun n k => ?_, Balanced.group hinner .nil, fun db row => ?_⟩
  · rw [cons_append, mapParams_cons, mapParams_append, (hjoined n).1 values hprefix]
    rfl
  · rw [← (hjoined n).2]
    simp
  · rw [satisfies_group hinner, satisfies_or h.conjunctive, h.holds, h'.holds]

theorem select (h : Part sql vals b P) (a column source : String) :
    Part (fun n => operand a :: Sql.isIn :: .lparen :: Sql.select column source :: sql n ++ [.rparen])
      vals (operand a :: Sql.isIn :: (.lparen :: (Sql.select column source :: b) ++ [.rparen]))
      fun db row => ∃ r ∈ db.tables source, P db r ∧ ∃ v, row a = some v ∧ r column = some v := by
  have hinner : Balanced (fun _ => True) b := h.conjunctive.mono fun _ _ => trivial
  refine ⟨fun n values hprefix => ?_, fun n k => ?_,
    .cons rfl rfl (.cons rfl rfl (.group (.cons trivial rfl hinner) .nil)), fun db row => ?_⟩
  · rw [← h.bound n values hprefix]
    simp [mapToken, SqlWord.map]
  · rw [← h.holes]
    simp
  · refine (satisfies_select hinner).trans ?_
    simp only [h.holds]

end Part

/-- A call adds the condition `P` about the rows, whatever the filter has been so far. -/
def Describes (apply : StorableFilter T → StorableFilter T) (P : SqlDatabase → SqlRow → Prop) : Prop :=
  ∃ bounds, (∀ f, Appends f (apply f) bounds) ∧
    ∀ db row, (∀ c ∈ bounds, db.Satisfies row c) ↔ P db row

namespace Describes
variable {apply apply' : StorableFilter T → StorableFilter T} {P P' : SqlDatabase → SqlRow → Prop}

theorem comp (h : Describes apply P) (h' : Describes apply' P') :
    Describes (fun f => apply' (apply f)) fun db row => P db row ∧ P' db row := by
  obtain ⟨bounds, happends, hholds⟩ := h
  obtain ⟨bounds', happends', hholds'⟩ := h'
  refine ⟨bounds ++ bounds', fun f => (happends f).trans (happends' _), fun db row => ?_⟩
  rw [forall_mem_append, hholds, hholds']

theorem congr (h : Describes apply P) (hP : ∀ db row, P db row ↔ P' db row) : Describes apply P' := by
  obtain ⟨bounds, happends, hholds⟩ := h
  exact ⟨bounds, happends, fun db row => (hholds db row).trans (hP db row)⟩

theorem of_eq (hconditions : ∀ f, (apply f).conditions = f.conditions)
    (hvalues : ∀ f, (apply f).values = f.values) : Describes apply fun _ _ => True :=
  ⟨[], fun f => .of_eq (hconditions f) (hvalues f), fun _ _ =>
    iff_of_true (fun _ h => absurd h not_mem_nil) trivial⟩

theorem push (condition : List SqlValue → Sql ℕ) (values : List SqlValue)
    (b : Sql (Option SqlValue))
    (hbound : ∀ before, (condition before).mapParams (bound (before ++ values)) = b)
    (hplaceholders : ∀ before k, param k ∈ condition before ↔
      before.length < k ∧ k ≤ before.length + values.length)
    (hconjunctive : Conjunctive b) (hP : ∀ db row, db.Satisfies row b ↔ P db row) :
    Describes (fun f : StorableFilter T => f.push (condition f.values) values) P := by
  refine ⟨[b], fun f => .push (hbound f.values) (hplaceholders _) hconjunctive, fun db row => ?_⟩
  rw [← hP, forall_mem_singleton]

theorem of_part {sql : ℕ → Sql ℕ} {vals : List SqlValue} {b : Sql (Option SqlValue)}
    (h : Part sql vals b P) (heq : ∀ f, apply f = f.push (sql f.values.length) vals) :
    Describes apply P := by
  obtain rfl : apply = fun f => f.push (sql f.values.length) vals := funext heq
  refine .push (fun before => sql before.length) vals b (fun before => h.bound _ _ ?_)
    (fun before k => h.holes _ k) h.conjunctive h.holds
  rw [drop_left]

theorem const_never : Describes (fun f : StorableFilter T => f.push [never] []) fun _ _ => False :=
  .of_part (.const [never] [never] (fun _ => rfl) (by simp) (.cons rfl rfl .nil) fun _ _ =>
    iff_of_false satisfies_never id) fun _ => rfl

variable (a column : String) (v : SqlValue) (vs : List SqlValue)

theorem param (c : Comparison) : Describes (fun f : StorableFilter T =>
    f.push [operand a, comparison c, Sql.param (f.values.length + 1)] [v])
      fun db row => ∃ u, row a = some u ∧ db.compare c u v = true :=
  .of_part (.comparison a c v) fun _ => rfl

theorem param_eq : Describes (fun f : StorableFilter T =>
    f.push [operand a, comparison .eq, Sql.param (f.values.length + 1)] [v])
      fun _ row => row a = some v :=
  .of_part (.equal a v) fun _ => rfl

theorem columnEq : Describes (fun f : StorableFilter T => f.columnEq column v)
    fun _ row => row (qualifyColumn T column) = some v := param_eq _ v

theorem columnLt (t : Timestamp) :
    Describes (fun f : StorableFilter T => f.columnLt column (.timestamp t))
      fun _ row => ∃ u, row (qualifyColumn T column) = some (.timestamp u) ∧ u < t :=
  .of_part (.instant _ (.inl rfl) fun _ => decide_eq_true_iff) fun _ => rfl

theorem columnIn : Describes (fun f : StorableFilter T => f.columnIn column vs)
    fun _ row => ∃ v ∈ vs, row (qualifyColumn T column) = some v := by
  by_cases hnil : vs = []
  · subst hnil
    exact const_never.congr fun _ _ => iff_of_false id (by simp)
  · exact .of_part (.isIn _ _ hnil) fun f => if_neg (by simpa using hnil)

theorem columnBetween (first last : Timestamp) :
    Describes (fun f : StorableFilter T => f.columnBetween column first last) fun _ row =>
      (∃ u, row (qualifyColumn T column) = some (.timestamp u) ∧ first ≤ u) ∧
        ∃ u, row (qualifyColumn T column) = some (.timestamp u) ∧ u ≤ last := by
  have hfirst := Part.instant (qualifyColumn T column) (t := first) (R := fun u => first ≤ u)
    (c := .ge) (by simp) fun _ => decide_eq_true_iff
  have hlast := Part.instant (qualifyColumn T column) (t := last) (R := fun u => u ≤ last)
    (c := .le) (by simp) fun _ => decide_eq_true_iff
  exact .of_part (hfirst.and hlast) fun _ => rfl

theorem isNull : Describes (fun f : StorableFilter T => f.columnIsNull column)
    fun _ row => row (qualifyColumn T column) = none := .of_part (.isNull _) fun _ => rfl

theorem isNotNull : Describes (fun f : StorableFilter T => f.columnIsNotNull column)
    fun _ row => row (qualifyColumn T column) ≠ none := .of_part (.isNotNull _) fun _ => rfl

theorem literal_eq : Describes (fun f : StorableFilter T =>
    f.push [operand a, comparison .eq, Sql.literal v] []) fun _ row => row a = some v :=
  .of_part (.equalLiteral a v) fun _ => rfl

theorem literal_ne : Describes (fun f : StorableFilter T =>
    f.push [operand a, comparison .ne, Sql.literal v] []) fun _ row => ∃ u, row a = some u ∧ u ≠ v :=
  (of_part (.literal a .ne v) fun _ => rfl).congr fun _ _ => exists_congr fun _ =>
    and_congr_right fun _ => decide_eq_true_iff

theorem asOf (t : Timestamp) : Describes (fun f : StorableFilter T => f.asOf t) fun _ row =>
    (∃ u, row (qualifyColumn T "valid_from") = some (.timestamp u) ∧ u ≤ t) ∧
      (row (qualifyColumn T "valid_to") = none ∨
        ∃ u, row (qualifyColumn T "valid_to") = some (.timestamp u) ∧ t < u) := by
  have hfrom := Part.instant (qualifyColumn T "valid_from") (t := t) (R := fun u => u ≤ t)
    (c := .le) (by simp) fun _ => decide_eq_true_iff
  have hopen := Part.isNull (qualifyColumn T "valid_to")
  have hto := Part.instant (qualifyColumn T "valid_to") (t := t) (R := fun u => t < u)
    (c := .gt) (by simp) fun _ => decide_eq_true_iff
  exact .of_part (hfrom.and (hopen.or hto)) fun _ => rfl

theorem idOrLineageIn (ids : List Uuid) :
    Describes (fun f : StorableFilter T => f.idOrLineageIn ids) fun _ row =>
      ∃ id ∈ ids, row (qualifyColumn T "id") = some (.uuid id) ∨
        row (qualifyColumn T "lineage_id") = some (.uuid id) := by
  by_cases hnil : ids = []
  · subst hnil
    exact const_never.congr fun _ _ => iff_of_false id (by simp)
  · have hid := Part.eqAny (qualifyColumn T "id") ids
    have hlineage := Part.eqAny (qualifyColumn T "lineage_id") ids
    refine (of_part (hid.or hlineage) fun f => if_neg (by simpa using hnil)).congr fun db row => ?_
    simp only [and_or_left, exists_or]

theorem serviceDefinitionNotIn (definitions : List String) :
    Describes (fun f : StorableFilter T => f.serviceDefinitionNotIn definitions) fun _ row =>
      definitions = [] ∨ ∃ u, row (qualifyColumn T "service_definition") = some u ∧
        u ∉ definitions.map SqlValue.string := by
  by_cases hnil : definitions = []
  · subst hnil
    exact (of_eq (fun _ => rfl) fun _ => rfl).congr fun _ _ => iff_of_true trivial (.inl rfl)
  · have hlist := Part.isNotIn (qualifyColumn T "service_definition")
      (definitions.map SqlValue.string) (by simpa using hnil)
    refine (of_part hlist fun f => ?_).congr fun _ _ => (or_iff_right hnil).symm
    rw [length_map]
    exact if_neg (by simpa using hnil)

theorem anyNotNull {columns : List String} (hne : columns ≠ []) :
    Describes (fun f : StorableFilter T => f.anyNotNull columns) fun _ row =>
      ∃ column ∈ columns, row (qualifyColumn T column) ≠ none := by
  have hparts {P : Type} : ∀ part ∈ columns.map fun column =>
      [operand (qualifyColumn T column), Sql.isNotNull (P := P)], Conjunctive part := by
    intro part hpart
    obtain ⟨column, -, rfl⟩ := mem_map.mp hpart
    exact .cons rfl rfl (.cons rfl rfl .nil)
  have hinner := balanced_intercalate_or (hparts (P := Option SqlValue))
  refine .of_part (.const (.lparen :: [.or].intercalate (columns.map fun column =>
      [operand (qualifyColumn T column), Sql.isNotNull]) ++ [.rparen]) (.lparen ::
      [.or].intercalate (columns.map fun column => [operand (qualifyColumn T column), Sql.isNotNull]) ++
      [.rparen]) (fun values => ?_) (fun k => ?_) (Balanced.group hinner .nil) fun db row => ?_)
    fun _ => rfl
  · rw [mapParams_append, mapParams_cons, mapParams_intercalate, map_map]
    rfl
  · rw [cons_append, mem_cons, mem_append, mem_intercalate (by nofun)]
    simp
  · rw [satisfies_group hinner,
      satisfies_intercalate_or (by simpa using hne) hparts]
    simp only [mem_map, exists_exists_and_eq_and, satisfies_isNotNull]

theorem singleFdbMac : Describes (singleFdbMac (T := T)) fun _ row =>
    row (qualifyColumn T "fdb_macs") ≠ none ∧
      row ("jsonb_array_length(" ++ qualifyColumn T "fdb_macs" ++ ")") = some (.i32 1) :=
  .of_part ((Part.isNotNull _).and (.equalLiteral _ _)) fun _ => rfl

theorem textSearch (query : String) :
    Describes (fun f : StorableFilter T => f.textSearch query) fun db row => trim query ≠ "" ∧
      ∃ p ∈ T.searchPredicates, db.Satisfies row
        (p.mapParams fun _ => some (.string ("%" ++ escapeLike (trim query) ++ "%"))) := by
  by_cases hnone : T.searchPredicates = [] ∨ trim query = ""
  · have heq : (fun f : StorableFilter T => f.textSearch query) = fun f => f.push [never] [] := by
      funext f
      exact if_pos (by simpa using hnone)
    rw [heq]
    refine const_never.congr fun db row => iff_of_false id fun ⟨htrim, p, hp, _⟩ => ?_
    rcases hnone with hnone | hnone
    · exact not_mem_nil (hnone ▸ hp)
    · exact htrim hnone
  obtain ⟨hpredicates, htrim⟩ := not_or.mp hnone
  let v : SqlValue := .string ("%" ++ escapeLike (trim query) ++ "%")
  have heq : (fun f : StorableFilter T => f.textSearch query) = fun f => f.push
      (.lparen :: [.or].intercalate (T.searchPredicates.map (mapParams fun _ => f.values.length + 1)) ++
        [.rparen]) [v] := by
    funext f
    exact if_neg (by simpa using hnone)
  have hparts : ∀ part ∈ T.searchPredicates.map (mapParams fun _ => some v), Conjunctive part := by
    intro part hpart
    obtain ⟨p, hp, rfl⟩ := mem_map.mp hpart
    exact conjunctive_mapParams _ (T.conjunctive p hp)
  have hinner := balanced_intercalate_or hparts
  rw [heq]
  refine .push (fun before => .lparen :: [.or].intercalate
      (T.searchPredicates.map (mapParams fun _ => before.length + 1)) ++ [.rparen]) [v]
    (.lparen :: [.or].intercalate (T.searchPredicates.map (mapParams fun _ => some v)) ++ [.rparen])
    (fun before => ?_) (fun before k => ?_) (Balanced.group hinner .nil) fun db row => ?_
  · have hv : bound (before ++ [v]) (before.length + 1) = some v := bound_append_first
    rw [mapParams_append, mapParams_cons, mapParams_intercalate, map_map]
    simp only [Function.comp_def, mapParams_mapParams, hv, mapToken, mapParams_cons, mapParams_nil]
  · obtain ⟨p, hp⟩ := exists_mem_of_ne_nil _ hpredicates
    have hmem : Sql.param k ∈ [Token.or].intercalate
        (T.searchPredicates.map (mapParams fun _ => before.length + 1)) ↔ k = before.length + 1 := by
      rw [mem_intercalate (by nofun)]
      simp only [mem_map, exists_exists_and_eq_and]
      constructor
      · rintro ⟨p, hp, hk⟩
        exact (mem_mapParams_const (T.has_hole p hp)).mp hk
      · exact fun hk => ⟨p, hp, (mem_mapParams_const (T.has_hole p hp)).mpr hk⟩
    simp only [mem_append, mem_cons, not_mem_nil, reduceCtorEq, false_or, or_false, hmem,
      length_singleton]
    omega
  · rw [satisfies_group hinner,
      satisfies_intercalate_or (by simpa using hpredicates) hparts, and_iff_right htrim]
    simp only [mem_map, exists_exists_and_eq_and]
    rfl

theorem physicalIfTypes : Describes (physicalIfTypes (T := T)) fun _ row =>
    ∃ u, row (qualifyColumn T "if_type") = some u ∧ u ∉ excludedIfTypes.map SqlValue.i32 :=
  .of_part (.isNotIn _ _ (cons_ne_nil _ _)) fun _ => rfl

theorem hasAnyTags (tagIds : List Uuid) (entityType : EntityDiscriminants) :
    Describes (fun f : StorableFilter T => f.hasAnyTags tagIds entityType) fun db row =>
      tagIds = [] ∨ ∃ r ∈ db.tables "entity_tags",
        (r "entity_type" = some (.entityDiscriminant entityType) ∧
          ∃ id ∈ tagIds, r "tag_id" = some (.uuid id)) ∧
        ∃ v, row (qualifyColumn T "id") = some v ∧ r "entity_id" = some v := by
  by_cases hnil : tagIds = []
  · subst hnil
    exact (of_eq (fun _ => rfl) fun _ => rfl).congr fun _ _ => iff_of_true trivial (.inl rfl)
  · have htype := Part.equal "entity_type" (.entityDiscriminant entityType)
    have htags := Part.isIn "tag_id" (tagIds.map SqlValue.uuid) (by simpa using hnil)
    have hquery := (htype.and htags).select (qualifyColumn T "id") "entity_id" "entity_tags"
    refine (of_part hquery fun f => (if_neg (by simpa using hnil)).trans ?_).congr fun db row => ?_
    · simp
    · simp only [or_iff_right hnil, mem_map, exists_exists_and_eq_and]

theorem boundToPort (ports : List (BitVec 16)) :
    Describes (fun f : StorableFilter T => f.boundToPort ports) fun db row =>
      ports = [] ∨ ∃ r ∈ db.tables "bindings b JOIN ports p ON b.port_id = p.id",
        (r "b.valid_to" = none ∧ r "p.valid_to" = none ∧
          ∃ port ∈ ports, r "p.port_number" = some (.i32 port.toNat)) ∧
        ∃ v, row (qualifyColumn T "id") = some v ∧ r "b.service_id" = some v := by
  by_cases hnil : ports = []
  · subst hnil
    exact (of_eq (fun _ => rfl) fun _ => rfl).congr fun _ _ => iff_of_true trivial (.inl rfl)
  · have hports := Part.isIn "p.port_number"
      (ports.map fun port => SqlValue.i32 port.toNat) (by simpa using hnil)
    have hlive := (Part.isNull "b.valid_to").and ((Part.isNull "p.valid_to").and hports)
    have hquery := hlive.select (qualifyColumn T "id") "b.service_id"
      "bindings b JOIN ports p ON b.port_id = p.id"
    refine (of_part hquery fun f => (if_neg (by simpa using hnil)).trans ?_).congr fun db row => ?_
    · simp
    · simp only [or_iff_right hnil, mem_map, exists_exists_and_eq_and]

theorem neighborHost (hostId : Uuid) :
    Describes (fun f : StorableFilter T => f.neighborHost hostId) fun db row =>
      row (qualifyColumn T "neighbor_host_id") = some (.uuid hostId) ∨
        ∃ r ∈ db.tables "interfaces", r "host_id" = some (.uuid hostId) ∧
          ∃ v, row (qualifyColumn T "neighbor_interface_id") = some v ∧ r "id" = some v := by
  have hhost {a : String} : Conjunctive [operand a, comparison .eq,
      Sql.param (some (SqlValue.uuid hostId))] := .cons rfl rfl (.cons rfl rfl (.cons rfl rfl .nil))
  have hquery : Balanced (fun _ => True) [operand "host_id", comparison .eq,
      Sql.param (some (SqlValue.uuid hostId))] := hhost.mono fun _ _ => trivial
  have hselect : Conjunctive (operand (qualifyColumn T "neighbor_interface_id") :: isIn :: (.lparen ::
      (select "id" "interfaces" :: [operand "host_id", comparison .eq,
        Sql.param (some (SqlValue.uuid hostId))]) ++ [.rparen])) :=
    .cons rfl rfl (.cons rfl rfl (.group (.cons trivial rfl hquery) .nil))
  have hinner := (hhost (a := qualifyColumn T "neighbor_host_id")).mono (q := fun _ => True)
    (fun _ _ => trivial) |>.append (.cons (t := Token.or) trivial rfl (hselect.mono fun _ _ => trivial))
  refine .push (fun before => [.lparen, operand (qualifyColumn T "neighbor_host_id"), comparison .eq,
      Sql.param (before.length + 1), .or, operand (qualifyColumn T "neighbor_interface_id"), isIn,
      .lparen, select "id" "interfaces", operand "host_id", comparison .eq,
      Sql.param (before.length + 1), .rparen, .rparen]) [.uuid hostId] _
    (fun before => ?_) (fun before k => ?_) (Balanced.group hinner .nil) fun db row => ?_
  · simp [mapToken, SqlWord.map, bound_append_first]
  · simp only [mem_cons, not_mem_nil, Token.leaf.injEq, SqlWord.param.injEq, reduceCtorEq,
      false_or, or_false, or_self, length_singleton]
    omega
  · rw [satisfies_group hinner, satisfies_or hhost,
      satisfies_comparison]
    refine or_congr ?_ ((satisfies_select hquery).trans ?_)
    · simp only [compare_eq, exists_eq_right]
    · simp only [satisfies_comparison, compare_eq, exists_eq_right]

theorem userManaged : Describes (userManaged (T := T)) fun _ row =>
    row (jsonField (qualifyColumn T "source") "type") = some (.string "Manual") ∨
      ∃ u, row (qualifyColumn T "subnet_type") = some u ∧
        ∀ category ∈ syntheticCategories, u ≠ .string category := by
  have hmanual := Part.equalLiteral (jsonField (qualifyColumn T "source") "type") (.string "Manual")
  have hcategory := Part.isNotIn (qualifyColumn T "subnet_type")
    (syntheticCategories.map .string) (by decide)
  refine (of_part (hmanual.or hcategory) fun f => ?_).congr fun db row => or_congr_right ?_
  · simp [StorableFilter.userManaged]
  · simp [eq_comm]

/-- Only what a discovery refreshes can be stale; each row is compared with the cutoff of its own
network. -/
theorem staleByNetwork (cutoffs : List (Uuid × Timestamp)) (stale : Bool) :
    Describes (fun f : StorableFilter T => f.staleByNetwork cutoffs stale) fun _ row =>
      let managed := jsonField (qualifyColumn T "source") "type"
      let names : List SqlValue := [.string "Discovery", .string "DiscoveryWithMatch"]
      if stale then
        (∃ u, row managed = some u ∧ u ∈ names) ∧ ∃ x ∈ cutoffs,
          row (qualifyColumn T "network_id") = some (.uuid x.1) ∧
            ∃ u, row (qualifyColumn T "last_seen_at") = some (.timestamp u) ∧ u < x.2
      else cutoffs ≠ [] ∧ ((∃ u, row managed = some u ∧ u ∉ names) ∨ ∃ x ∈ cutoffs,
        row (qualifyColumn T "network_id") = some (.uuid x.1) ∧
          ∃ u, row (qualifyColumn T "last_seen_at") = some (.timestamp u) ∧ x.2 ≤ u) := by
  by_cases hnil : cutoffs = []
  · subst hnil
    refine const_never.congr fun _ _ => iff_of_false id ?_
    cases stale <;> simp
  let networkCol := qualifyColumn T "network_id"
  let seenCol := qualifyColumn T "last_seen_at"
  let networks (c : Comparison) (before : List SqlValue) : Sql ℕ :=
    [.or].intercalate (networkClauses networkCol seenCol c cutoffs before).1
  let bounds (c : Comparison) : Sql (Option SqlValue) :=
    [.or].intercalate (cutoffs.map (boundNetworkClause networkCol seenCol c))
  have hbounds {c : Comparison} : Balanced (fun _ => True) (bounds c) :=
    balanced_intercalate_or conjunctive_boundNetworkClause
  have hnetworks (c : Comparison) (before : List SqlValue) :
      (networks c before).mapParams (bound (before ++ cutoffValues cutoffs)) = bounds c := by
    rw [mapParams_intercalate, mapParams_networkClauses]
    rfl
  have hmem (c : Comparison) (before : List SqlValue) (k : ℕ) : Sql.param k ∈ networks c before ↔
      before.length < k ∧ k ≤ before.length + (cutoffValues cutoffs).length := by
    rw [mem_intercalate (by nofun), mem_networkClauses]
  have hholds {c : Comparison} {R : Timestamp → Timestamp → Prop}
      (hc : c = .lt ∨ c = .le ∨ c = .gt ∨ c = .ge)
      (hR : ∀ (db : SqlDatabase) u t, db.compare c (.timestamp u) (.timestamp t) = true ↔ R u t)
      (db : SqlDatabase) (row : SqlRow) : db.Satisfies row (bounds c) ↔ ∃ x ∈ cutoffs,
        row networkCol = some (.uuid x.1) ∧ ∃ u, row seenCol = some (.timestamp u) ∧ R u x.2 := by
    rw [satisfies_intercalate_or (by simpa using hnil) conjunctive_boundNetworkClause]
    simp only [mem_map, exists_exists_and_eq_and, satisfies_boundNetworkClause,
      satisfies_comparison, exists_compare_timestamp hc fun u => hR db u _]
  have hgroup {c : Comparison} : Conjunctive (.lparen :: bounds c ++ [.rparen]) := .group hbounds .nil
  cases stale with
  | true =>
    have hconjunctive : Conjunctive (managedClause T (P := Option SqlValue)) :=
      atomic_managedClause.mono fun _ => And.left
    have hinner := (hconjunctive.append (.cons (t := Token.and) rfl rfl
      (hgroup (c := .lt)))).mono (q := fun _ => True) fun _ _ => trivial
    have heq : (fun f : StorableFilter T => f.staleByNetwork cutoffs true) = fun f => f.push
        (.lparen :: managedClause T ++ .and :: .lparen :: networks .lt f.values ++ [.rparen, .rparen])
        (cutoffValues cutoffs) := by
      funext f
      refine (if_neg (by simpa using hnil)).trans ?_
      simp only [networkClauses_snd]
      rfl
    rw [heq]
    refine .push (fun before => .lparen :: managedClause T ++ .and :: .lparen :: networks .lt before ++
      [.rparen, .rparen]) _ _ (fun before => ?_) (fun before k => ?_) (Balanced.group hinner .nil)
      fun db row => ?_
    · simp [mapToken, SqlWord.map, managedClause, hnetworks]
    · simp [managedClause, hmem]
    · rw [satisfies_group hinner, satisfies_and hconjunctive hgroup,
        satisfies_group hbounds, hholds (.inl rfl) fun _ _ _ => decide_eq_true_iff]
      refine and_congr_left fun _ => ?_
      unfold SqlDatabase.Satisfies
      rw [holds_managedClause, isInTruth_eq_true]
      simp [managedNames]
  | false =>
    have hmanaged : Balanced (fun _ => True) (managedClause T (P := Option SqlValue)) :=
      atomic_managedClause.mono fun _ _ => trivial
    have hatomic : Atomic (.lparen :: managedClause T (P := Option SqlValue) ++ [.rparen]) :=
      .group hmanaged .nil
    have hnot : Conjunctive (.not :: (.lparen :: managedClause T (P := Option SqlValue) ++ [.rparen])) :=
      .cons rfl rfl (hatomic.mono fun _ => And.left)
    have hinner := (hnot.mono (q := fun _ => True) fun _ _ => trivial).append
      (.cons (t := Token.or) trivial rfl (Balanced.group (hbounds (c := .ge)) .nil))
    have heq : (fun f : StorableFilter T => f.staleByNetwork cutoffs false) = fun f => f.push
        (.lparen :: .not :: .lparen :: managedClause T ++ .rparen :: .or :: .lparen ::
          networks .ge f.values ++ [.rparen, .rparen]) (cutoffValues cutoffs) := by
      funext f
      refine (if_neg (by simpa using hnil)).trans ?_
      simp only [networkClauses_snd]
      rfl
    rw [heq]
    refine .push (fun before => .lparen :: .not :: .lparen :: managedClause T ++ .rparen :: .or ::
      .lparen :: networks .ge before ++ [.rparen, .rparen]) _ _ (fun before => ?_) (fun before k => ?_)
      (Balanced.group hinner .nil) fun db row => ?_
    · simp [mapToken, SqlWord.map, managedClause, hnetworks]
    · simp [managedClause, hmem]
    · rw [satisfies_group hinner, satisfies_or hnot,
        satisfies_group hbounds, hholds (.inr (.inr (.inr rfl))) fun _ _ _ =>
          decide_eq_true_iff]
      refine (or_congr_left ?_).trans (and_iff_right hnil).symm
      unfold SqlDatabase.Satisfies
      rw [holds_not hatomic, holds_group hmanaged, holds_managedClause,
        Truth.not_eq_true, isInTruth_eq_false (by simp [managedNames])]
      rfl

end Describes

end StorableFilter
end Scanopy
