import Scanopy.Lib.Chunks
import Scanopy.Lib.Commits

/-! Bulk inserts. The entities are split so that no statement has more parameters than it can take,
and every statement commits what it has inserted. -/

namespace Scanopy

open List Option Nat

def maxBindParams : ℕ := 65535

/-- A type whose entities are rows of a table. Its columns are the same for every entity. -/
structure Storable (T V : Type) where
  tableName : String
  columns : List String
  toParams : T → Option (List String × List V)
  columns_pos : 0 < columns.length
  columns_le : columns.length ≤ maxBindParams
  columns_eq : ∀ {entity params}, toParams entity = some params → params.1 = columns
  length_eq : ∀ {entity params}, toParams entity = some params → params.2.length = columns.length

abbrev TableRow (B : Type) := List (String × B)

/-- An INSERT of several rows. A placeholder is its number. -/
structure BulkInsert where
  tableName : String
  columns : List String
  valueGroups : List (List ℕ)
  deriving DecidableEq

def buildBulkInsertQuery (tableName : String) (columns : List String) (rowCount : ℕ) :
    BulkInsert where
  tableName := tableName
  columns := columns
  valueGroups := (List.range rowCount).map fun row =>
    (List.range' 1 columns.length).map fun col => row * columns.length + col

def BulkInsert.toSql (q : BulkInsert) : String :=
  let group (placeholders : List ℕ) : String :=
    "(" ++ ", ".intercalate (placeholders.map fun i => "$" ++ toString i) ++ ")"
  "INSERT INTO " ++ q.tableName ++ " (" ++ ", ".intercalate q.columns ++ ") VALUES " ++
    ", ".intercalate (q.valueGroups.map group)

example : (buildBulkInsertQuery "tags" ["id", "name"] 2).toSql =
    "INSERT INTO tags (id, name) VALUES ($1, $2), ($3, $4)" := by decide +kernel

def BulkInsert.rows {B : Type} (q : BulkInsert) (params : List B) : Option (List (TableRow B)) :=
  q.valueGroups.mapM fun placeholders => (placeholders.mapM fun i => match i with
    | 0 => none
    | i + 1 => params[i]?).map q.columns.zip

structure DatabaseError where
  code : Option String
  constraint : Option String
  message : String
  deriving DecidableEq

inductive SqlxError
  | database (e : DatabaseError)
  | protocol (message : String)
  deriving DecidableEq

structure Database (B : Type) where
  rejection : List (TableRow B) → List (TableRow B) → Option DatabaseError

def Database.execute {B : Type} (db : Database B) (q : BulkInsert) (params : List B)
    (table : List (TableRow B)) : Except SqlxError (List (TableRow B)) :=
  if maxBindParams < params.length then .error (.protocol "too many arguments")
  else match q.rows params with
    | none => .error (.protocol "a parameter is missing")
    | some rows => match db.rejection table rows with
      | some e => .error (.database e)
      | none => .ok (table ++ rows)

def DatabaseError.isUniqueViolation (e : DatabaseError) : Bool := e.code = some "23505"

def isDataExceptionCode (code : Option String) : Bool :=
  code.any fun code => code.utf8ByteSize = 5 && code.startsWith "22"

def friendlyUniqueViolationMessage (constraint : Option String) : String :=
  match constraint with
  | some c =>
    if c.contains "ports" then "A port with this number and protocol already exists on this host"
    else if c.contains "ip_addresses" then
      "An ip_address with this IP address already exists on this host"
    else if c.contains "tags" then "A tag with this name already exists"
    else if c.contains "group_bindings" then "This binding already exists in the group"
    else if c.contains "user_network_access" then
      "This user already has access to this network"
    else if c.contains "users" && c.contains "email" then
      "A user with this email already exists"
    else if c.contains "users" && c.contains "name" then "A user with this name already exists"
    else if c.contains "users" && c.contains "oidc" then
      "This identity provider account is already linked to another user"
    else if c.contains "api_keys" then "This API key already exists"
    else "A record with these values already exists (" ++ c ++ ")"
  | none => "A record with these values already exists"

inductive CreateManyError
  | toParams
  | bindValue
  | validation (message : String)
  | other (e : SqlxError)
  deriving DecidableEq

def createManyError : SqlxError → CreateManyError
  | .database e =>
    if e.isUniqueViolation then .validation (friendlyUniqueViolationMessage e.constraint)
    else if isDataExceptionCode e.code then
      .validation ("A record in this batch contains a value the database cannot store: " ++
        e.message)
    else .other (.database e)
  | .protocol message => .other (.protocol message)

namespace Storable
variable {T V B : Type} (st : Storable T V) (toBound : V → Option B) (db : Database B)

def chunkSize : ℕ := maxBindParams / st.columns.length

/-- One turn of the loop of `create_many_with_executor`, a statement on the pool. -/
def insertChunk (chunk : List T) (table : List (TableRow B)) :
    List (TableRow B) × Option CreateManyError :=
  match chunk.mapM st.toParams with
  | none => (table, some .toParams)
  | some allParams =>
    let q := buildBulkInsertQuery st.tableName (allParams.headD ([], [])).1 chunk.length
    match (allParams.map Prod.snd).flatten.mapM toBound with
    | none => (table, some .bindValue)
    | some params => match db.execute q params table with
      | .error e => (table, some (createManyError e))
      | .ok table => (table, none)

/-- `create_many_with_executor` -/
def createMany (entities : List T) (table : List (TableRow B)) :
    List (TableRow B) × Except CreateManyError (List T) :=
  match entities with
  | [] => (table, .ok [])
  | first :: _ => match st.toParams first with
    | none => (table, .error .toParams)
    | some (columns, _) =>
      let chunks := entities.chunks (maxBindParams / columns.length)
      match Commits.each (st.insertChunk toBound db) chunks table with
      | (table, some e) => (table, .error e)
      | (table, none) => (table, .ok entities)

def rowOf (entity : T) : Option (TableRow B) :=
  (st.toParams entity).bind fun (columns, values) => (values.mapM toBound).map columns.zip

structure AllOrNothing (entities : List T) (table : List (TableRow B)) : Prop where
  failed : ∀ e, (st.createMany toBound db entities table).2 = .error e →
    (st.createMany toBound db entities table).1 = table
  inserted : ∀ created, (st.createMany toBound db entities table).2 = .ok created →
    created = entities ∧ ∃ rows, entities.mapM (st.rowOf toBound) = some rows ∧
      (st.createMany toBound db entities table).1 = table ++ rows

def Accepts (entities : List T) (table : List (TableRow B)) : Prop :=
  ∃ rows, entities.mapM (st.rowOf toBound) = some rows ∧ db.rejection table rows = none

/-- The chunk `k` is accepted where the entities before it are inserted. -/
def AcceptsChunk (entities : List T) (table : List (TableRow B)) (k : ℕ) : Prop :=
  ∀ rows, (entities.take (k * st.chunkSize)).mapM (st.rowOf toBound) = some rows →
    st.Accepts toBound db ((entities.drop (k * st.chunkSize)).take st.chunkSize) (table ++ rows)

theorem chunkSize_pos : 0 < st.chunkSize := Nat.div_pos st.columns_le st.columns_pos

end Storable

theorem rows_buildBulkInsertQuery {B : Type} (tableName : String) {columns : List String}
    {bounds : List (List B)} (h : ∀ values ∈ bounds, values.length = columns.length) :
    (buildBulkInsertQuery tableName columns bounds.length).rows bounds.flatten =
      some (bounds.map columns.zip) := by
  rw [BulkInsert.rows, buildBulkInsertQuery, mapM_map, List.mapM_eq_some_iff,
    forall₂_map_right_iff, forall₂_iff_get]
  refine ⟨length_range, fun row hrow hrow' => ?_⟩
  have hlength : (bounds.get ⟨row, hrow'⟩).length = columns.length := h _ (List.get_mem _ _)
  refine congrArg (Option.map columns.zip) (List.mapM_eq_some_iff.mpr ?_)
  rw [forall₂_map_left_iff, forall₂_iff_get]
  refine ⟨by rw [length_range', hlength], fun col hcol hcol' => ?_⟩
  simp only [get_eq_getElem, getElem_range', getElem_range]
  rw [Nat.one_mul, Nat.add_comm 1 col, ← Nat.add_assoc]
  show bounds.flatten[row * columns.length + col]? = _
  rw [List.getElem?_flatten_of_length h row (hlength ▸ hcol'), getElem?_eq_getElem hrow']
  exact getElem?_eq_getElem hcol'

namespace Storable
variable {T V B : Type} {st : Storable T V} {toBound : V → Option B} {db : Database B}
  {chunk entities : List T} {table : List (TableRow B)}
variable {rows : List (TableRow B)} {first : T}

theorem rowOf_eq_some {entity : T} {row : TableRow B} : st.rowOf toBound entity = some row ↔
    ∃ params, st.toParams entity = some params ∧ ∃ bounds, params.2.mapM toBound = some bounds ∧
      st.columns.zip bounds = row := by
  rw [rowOf, bind_eq_some_iff]
  refine exists_congr fun params => and_congr_right fun hparams => ?_
  rw [map_eq_some_iff, st.columns_eq hparams]

theorem mapM_rowOf_eq_some : chunk.mapM (st.rowOf toBound) = some rows ↔
    ∃ allParams, chunk.mapM st.toParams = some allParams ∧ ∃ bounds,
      (allParams.map Prod.snd).mapM (·.mapM toBound) = some bounds ∧
        bounds.map st.columns.zip = rows := by
  simp only [mapM_map]
  induction chunk generalizing rows with
  | nil =>
    constructor
    · intro h
      cases h
      exact ⟨[], rfl, [], rfl, rfl⟩
    · rintro ⟨allParams, hall, bounds, hbounds, rfl⟩
      cases hall
      cases hbounds
      rfl
  | cons entity chunk ih =>
    constructor
    · intro h
      obtain ⟨row, hrow, rest, hrest, rfl⟩ := List.mapM_cons_eq_some.mp h
      obtain ⟨params, hparams, values, hvalues, rfl⟩ := rowOf_eq_some.mp hrow
      obtain ⟨allParams, hall, bounds, hbounds, rfl⟩ := ih.mp hrest
      exact ⟨params :: allParams, List.mapM_cons_eq_some.mpr ⟨params, hparams, allParams, hall, rfl⟩,
        values :: bounds, List.mapM_cons_eq_some.mpr ⟨values, hvalues, bounds, hbounds, rfl⟩, rfl⟩
    · rintro ⟨_, hallCons, _, hboundsCons, rfl⟩
      obtain ⟨params, hparams, allParams, hall, rfl⟩ := List.mapM_cons_eq_some.mp hallCons
      obtain ⟨values, hvalues, bounds, hbounds, rfl⟩ := List.mapM_cons_eq_some.mp hboundsCons
      exact List.mapM_cons_eq_some.mpr ⟨_, rowOf_eq_some.mpr ⟨params, hparams, values, hvalues, rfl⟩,
        _, ih.mpr ⟨allParams, hall, bounds, hbounds, rfl⟩, rfl⟩

theorem insertChunk_of_rows (db : Database B) (table : List (TableRow B)) (hne : chunk ≠ [])
    (hle : chunk.length ≤ st.chunkSize) (hrows : chunk.mapM (st.rowOf toBound) = some rows) :
    st.insertChunk toBound db chunk table = match db.rejection table rows with
      | some e => (table, some (createManyError (.database e)))
      | none => (table ++ rows, none) := by
  obtain ⟨allParams, hall, bounds, hbounds, rfl⟩ := mapM_rowOf_eq_some.mp hrows
  have hparams := (List.mapM_eq_some_iff.mp hall).length_eq
  have hlength : bounds.length = chunk.length := by
    have hmapped := (List.mapM_eq_some_iff.mp hbounds).length_eq
    rw [length_map] at hmapped
    exact hmapped.symm.trans hparams.symm
  have hwidth : ∀ values ∈ bounds, values.length = st.columns.length := by
    intro values hvalues
    obtain ⟨given, hgiven, hbind⟩ := List.exists_of_mem_mapM hbounds hvalues
    obtain ⟨params, hmem, rfl⟩ := List.mem_map.mp hgiven
    obtain ⟨entity, -, hentity⟩ := List.exists_of_mem_mapM hall hmem
    rw [← (List.mapM_eq_some_iff.mp hbind).length_eq]
    exact st.length_eq hentity
  have hcolumns : (allParams.headD ([], [])).1 = st.columns := by
    cases allParams with
    | nil => exact absurd (length_eq_zero_iff.mp hparams) hne
    | cons params allParams =>
      obtain ⟨entity, -, hentity⟩ := List.exists_of_mem_mapM hall mem_cons_self
      exact st.columns_eq hentity
  have hfits : ¬maxBindParams < bounds.flatten.length := by
    have hmul : chunk.length * st.columns.length ≤ maxBindParams :=
      (Nat.mul_le_mul_right _ hle).trans (div_mul_le_self _ _)
    rw [length_flatten, map_congr_left hwidth, map_const', sum_replicate_nat, hlength]
    exact not_lt.mpr hmul
  have hflatten : (allParams.map Prod.snd).flatten.mapM toBound = some bounds.flatten :=
    List.mapM_flatten_eq_some_iff.mpr ⟨bounds, hbounds, rfl⟩
  have hquery := rows_buildBulkInsertQuery st.tableName hwidth
  rw [hlength] at hquery
  simp only [insertChunk, hall, hflatten, hcolumns, Database.execute, hquery, if_neg hfits]
  cases db.rejection table (bounds.map st.columns.zip) with
  | none => rfl
  | some e => rfl

theorem insertChunk_of_no_rows (hrows : chunk.mapM (st.rowOf toBound) = none) :
    ∃ e, st.insertChunk toBound db chunk table = (table, some e) := by
  unfold insertChunk
  cases hall : chunk.mapM st.toParams with
  | none => exact ⟨_, rfl⟩
  | some allParams =>
    cases hflatten : (allParams.map Prod.snd).flatten.mapM toBound with
    | none => exact ⟨.bindValue, by simp [hflatten]⟩
    | some params =>
      obtain ⟨bounds, hbounds, -⟩ := List.mapM_flatten_eq_some_iff.mp hflatten
      have hsome := mapM_rowOf_eq_some.mpr ⟨allParams, hall, bounds, hbounds, rfl⟩
      exact absurd (hrows.symm.trans hsome) nofun

theorem insertChunk_cases (toBound : V → Option B) (db : Database B) (table : List (TableRow B))
    (hne : chunk ≠ []) (hle : chunk.length ≤ st.chunkSize) :
    (∃ rows, chunk.mapM (st.rowOf toBound) = some rows ∧ db.rejection table rows = none ∧
      st.insertChunk toBound db chunk table = (table ++ rows, none)) ∨
    (¬st.Accepts toBound db chunk table ∧
      ∃ e, st.insertChunk toBound db chunk table = (table, some e)) := by
  cases hrows : chunk.mapM (st.rowOf toBound) with
  | none =>
    refine .inr ⟨?_, insertChunk_of_no_rows hrows⟩
    rintro ⟨rows, hsome, -⟩
    exact absurd (hrows.symm.trans hsome) nofun
  | some rows =>
    have hinsert := insertChunk_of_rows db table hne hle hrows
    cases hdb : db.rejection table rows with
    | none =>
      rw [hdb] at hinsert
      exact .inl ⟨rows, rfl, hdb, hinsert⟩
    | some e =>
      rw [hdb] at hinsert
      refine .inr ⟨?_, _, hinsert⟩
      rintro ⟨rows', hrows', haccepts⟩
      cases hrows.symm.trans hrows'
      exact absurd (hdb.symm.trans haccepts) nofun

theorem acceptsChunk_zero : st.AcceptsChunk toBound db entities table 0 ↔
    st.Accepts toBound db (entities.take st.chunkSize) table := by
  unfold AcceptsChunk
  rw [Nat.zero_mul, take_zero, drop_zero]
  constructor
  · intro h
    have haccepts := h [] rfl
    rwa [append_nil] at haccepts
  · intro haccepts rows hrows
    obtain rfl : [] = rows := some.inj hrows
    rwa [append_nil]

theorem acceptsChunk_succ
    (hrows : (entities.take st.chunkSize).mapM (st.rowOf toBound) = some rows) (k : ℕ) :
    st.AcceptsChunk toBound db entities table (k + 1) ↔
      st.AcceptsChunk toBound db (entities.drop st.chunkSize) (table ++ rows) k := by
  unfold AcceptsChunk
  rw [drop_drop, succ_mul, Nat.add_comm _ st.chunkSize, take_add]
  simp only [List.mapM_append_eq_some]
  constructor
  · intro h rest hrest
    rw [append_assoc]
    exact h _ ⟨rows, hrows, rest, hrest, rfl⟩
  · rintro h _ ⟨rows', hrows', rest, hrest, rfl⟩
    obtain rfl : rows = rows' := some.inj (hrows.symm.trans hrows')
    rw [← append_assoc]
    exact h rest hrest

theorem each_insertChunk_ok_iff :
    (Commits.each (st.insertChunk toBound db) (entities.chunks st.chunkSize) table).2 = none ↔
      ∀ k, k * st.chunkSize < entities.length → st.AcceptsChunk toBound db entities table k := by
  induction hlength : entities.length using Nat.strong_induction_on generalizing entities table with
  | _ length ih =>
    subst hlength
    by_cases hnil : entities = []
    · subst hnil
      rw [List.chunks_nil st.chunkSize_pos]
      exact iff_of_true rfl fun k hk => absurd hk (Nat.not_lt_zero _)
    have hpos : 0 < entities.length := length_pos_of_ne_nil hnil
    have hhead : entities.take st.chunkSize ≠ [] := by
      rw [← length_pos_iff, length_take]
      exact lt_min st.chunkSize_pos hpos
    rw [List.chunks_of_ne_nil st.chunkSize_pos hnil, Commits.each, Commits.snd_andThen]
    rcases insertChunk_cases toBound db table hhead (length_take_le _ _) with
      ⟨rows, hrows, hdb, hinsert⟩ | ⟨hrefused, e, hinsert⟩
    · have hshorter : (entities.drop st.chunkSize).length < entities.length := by
        rw [length_drop]
        exact sub_lt hpos st.chunkSize_pos
      rw [hinsert, and_iff_right rfl, ih _ hshorter rfl, length_drop]
      constructor
      · rintro h (_ | k) hk
        · exact acceptsChunk_zero.mpr ⟨rows, hrows, hdb⟩
        · refine (acceptsChunk_succ hrows k).mpr (h k ?_)
          rw [succ_mul] at hk
          omega
      · intro h k hk
        refine (acceptsChunk_succ hrows k).mp (h (k + 1) ?_)
        rw [succ_mul]
        omega
    · rw [hinsert]
      refine iff_of_false (by rintro ⟨⟨⟩, -⟩) fun h => hrefused ?_
      exact acceptsChunk_zero.mp (h 0 (by rwa [Nat.zero_mul]))

theorem fst_each_insertChunk
    (h : (Commits.each (st.insertChunk toBound db) (entities.chunks st.chunkSize) table).2 = none) :
    ∃ rows, entities.mapM (st.rowOf toBound) = some rows ∧
      (Commits.each (st.insertChunk toBound db) (entities.chunks st.chunkSize) table).1 =
        table ++ rows := by
  induction hlength : entities.length using Nat.strong_induction_on generalizing entities table with
  | _ length ih =>
    subst hlength
    by_cases hnil : entities = []
    · subst hnil
      rw [List.chunks_nil st.chunkSize_pos]
      exact ⟨[], rfl, (append_nil _).symm⟩
    have hpos : 0 < entities.length := length_pos_of_ne_nil hnil
    have hhead : entities.take st.chunkSize ≠ [] := by
      rw [← length_pos_iff, length_take]
      exact lt_min st.chunkSize_pos hpos
    rw [List.chunks_of_ne_nil st.chunkSize_pos hnil, Commits.each] at h ⊢
    obtain ⟨hok, hrest⟩ := Commits.snd_andThen.mp h
    rw [Commits.andThen_of_ok hok]
    rcases insertChunk_cases toBound db table hhead (length_take_le _ _) with
      ⟨rows, hrows, -, hinsert⟩ | ⟨-, e, hinsert⟩
    · have hshorter : (entities.drop st.chunkSize).length < entities.length := by
        rw [length_drop]
        exact sub_lt hpos st.chunkSize_pos
      rw [hinsert] at hrest ⊢
      obtain ⟨rest, hdrop, hfst⟩ := ih _ hshorter hrest rfl
      refine ⟨rows ++ rest, ?_, by rw [hfst, append_assoc]⟩
      rw [← take_append_drop st.chunkSize entities]
      exact List.mapM_append_eq_some.mpr ⟨rows, hrows, rest, hdrop, rfl⟩
    · rw [hinsert] at hok
      cases hok

theorem fst_each_insertChunk_eq_self_iff
    (h : (Commits.each (st.insertChunk toBound db) (entities.chunks st.chunkSize) table).2 ≠ none) :
    (Commits.each (st.insertChunk toBound db) (entities.chunks st.chunkSize) table).1 = table ↔
      ¬st.Accepts toBound db (entities.take st.chunkSize) table := by
  have hchunk : ∀ chunk ∈ entities.chunks st.chunkSize, ∀ table,
      (∃ rows, chunk.mapM (st.rowOf toBound) = some rows ∧ db.rejection table rows = none ∧
        st.insertChunk toBound db chunk table = (table ++ rows, none)) ∨
      (¬st.Accepts toBound db chunk table ∧
        ∃ e, st.insertChunk toBound db chunk table = (table, some e)) := fun chunk hmem table =>
    insertChunk_cases toBound db table (List.ne_nil_of_mem_chunks st.chunkSize_pos hmem)
      (List.length_le_of_mem_chunks hmem)
  rw [Commits.each_eq_self_iff List.length ?_ ?_ h]
  · by_cases hnil : entities = []
    · subst hnil
      rw [List.chunks_nil st.chunkSize_pos] at h
      exact absurd rfl h
    rw [List.chunks_of_ne_nil st.chunkSize_pos hnil] at hchunk ⊢
    rcases hchunk _ mem_cons_self table with
      ⟨rows, hrows, hdb, hinsert⟩ | ⟨hrefused, e, hinsert⟩
    · refine iff_of_false ?_ (not_not_intro ⟨rows, hrows, hdb⟩)
      rintro ⟨chunk, hchunk, hfailed⟩
      cases hchunk
      rw [hinsert] at hfailed
      exact hfailed rfl
    · refine iff_of_true ⟨_, rfl, ?_⟩ hrefused
      rw [hinsert]
      exact nofun
  · intro chunk hmem table hfailed
    rcases hchunk chunk hmem table with ⟨rows, -, -, hinsert⟩ | ⟨-, e, hinsert⟩
    · rw [hinsert] at hfailed
      exact absurd rfl hfailed
    · rw [hinsert]
  · intro chunk hmem table hok
    rcases hchunk chunk hmem table with ⟨rows, hrows, -, hinsert⟩ | ⟨-, e, hinsert⟩
    · rw [hinsert, length_append, ← (List.mapM_eq_some_iff.mp hrows).length_eq]
      exact Nat.lt_add_of_pos_right
        (length_pos_of_ne_nil (List.ne_nil_of_mem_chunks st.chunkSize_pos hmem))
    · rw [hinsert] at hok
      exact absurd hok nofun

theorem createMany_of_toParams (hfirst : first ∈ entities.head?)
    (h : (st.toParams first).isSome = true) : st.createMany toBound db entities table =
      match Commits.each (st.insertChunk toBound db) (entities.chunks st.chunkSize) table with
      | (table, some e) => (table, .error e)
      | (table, none) => (table, .ok entities) := by
  obtain ⟨entities, rfl⟩ := head?_eq_some_iff.mp hfirst
  obtain ⟨params, hparams⟩ := isSome_iff_exists.mp h
  rw [createMany, hparams]
  dsimp only
  rw [st.columns_eq hparams]
  rfl

theorem createMany_of_ok (hfirst : first ∈ entities.head?)
    (h : (st.toParams first).isSome = true)
    (hok : (Commits.each (st.insertChunk toBound db) (entities.chunks st.chunkSize) table).2 = none) :
    st.createMany toBound db entities table =
      ((Commits.each (st.insertChunk toBound db) (entities.chunks st.chunkSize) table).1,
        .ok entities) := by
  rw [createMany_of_toParams hfirst h]
  obtain ⟨table', heach⟩ : ∃ table', Commits.each (st.insertChunk toBound db)
      (entities.chunks st.chunkSize) table = (table', none) := ⟨_, Prod.ext rfl hok⟩
  rw [heach]

theorem createMany_of_failed (hfirst : first ∈ entities.head?)
    (h : (st.toParams first).isSome = true)
    (hfailed :
      (Commits.each (st.insertChunk toBound db) (entities.chunks st.chunkSize) table).2 ≠ none) :
    ∃ e, st.createMany toBound db entities table =
      ((Commits.each (st.insertChunk toBound db) (entities.chunks st.chunkSize) table).1,
        .error e) := by
  rw [createMany_of_toParams hfirst h]
  obtain ⟨e, he⟩ := ne_none_iff_exists'.mp hfailed
  obtain ⟨table', heach⟩ : ∃ table', Commits.each (st.insertChunk toBound db)
      (entities.chunks st.chunkSize) table = (table', some e) := ⟨_, Prod.ext rfl he⟩
  rw [heach]
  exact ⟨e, rfl⟩

theorem allOrNothing_iff_of_refused (hfirst : first ∈ entities.head?)
    (h : (st.toParams first).isSome = true)
    (hrefused : ¬ ∀ k, k * st.chunkSize < entities.length →
      st.AcceptsChunk toBound db entities table k) :
    st.AllOrNothing toBound db entities table ↔
      ¬st.Accepts toBound db (entities.take st.chunkSize) table := by
  have hfailed := mt each_insertChunk_ok_iff.mp hrefused
  obtain ⟨e, hmany⟩ := createMany_of_failed hfirst h hfailed
  rw [← fst_each_insertChunk_eq_self_iff hfailed]
  constructor
  · intro h
    have hsame := h.failed e (by rw [hmany])
    rwa [hmany] at hsame
  · refine fun hsame => ⟨fun e' _ => by rw [hmany, hsame], fun created h => ?_⟩
    rw [hmany] at h
    exact absurd h nofun

/-- A bulk insert is all or nothing exactly if its first chunk is refused or each chunk is accepted
after those before it. -/
theorem allOrNothing_iff (st : Storable T V) (toBound : V → Option B) (db : Database B)
    (entities : List T) (table : List (TableRow B)) :
    st.AllOrNothing toBound db entities table ↔
      ¬st.Accepts toBound db (entities.take st.chunkSize) table ∨
        ∀ k, k * st.chunkSize < entities.length → st.AcceptsChunk toBound db entities table k := by
  cases hentities : entities with
  | nil =>
    refine iff_of_true ⟨fun e h => absurd h nofun, fun created h => ?_⟩
      (.inr fun k hk => absurd hk (Nat.not_lt_zero _))
    cases h
    exact ⟨rfl, [], rfl, (append_nil _).symm⟩
  | cons first rest =>
    rw [← hentities]
    cases hfirst : st.toParams first with
    | none =>
      have hmany : st.createMany toBound db entities table = (table, .error .toParams) := by
        rw [hentities, createMany, hfirst]
      refine iff_of_true ⟨fun e _ => by rw [hmany], fun created h => ?_⟩ (.inl ?_)
      · rw [hmany] at h
        exact absurd h nofun
      · rintro ⟨rows, hrows, -⟩
        obtain ⟨size, hsize⟩ := exists_eq_add_one.mpr st.chunkSize_pos
        rw [hentities, hsize, take_succ_cons] at hrows
        obtain ⟨row, hrow, -⟩ := List.mapM_cons_eq_some.mp hrows
        rw [rowOf, hfirst] at hrow
        exact absurd hrow nofun
    | some params =>
      have hhead : first ∈ entities.head? := by
        rw [hentities]
        exact head?_cons
      have hparams : (st.toParams first).isSome = true := by
        rw [hfirst]
        rfl
      by_cases hok : (Commits.each (st.insertChunk toBound db) (entities.chunks st.chunkSize)
          table).2 = none
      · obtain ⟨rows, hrows, hfst⟩ := fst_each_insertChunk hok
        have hmany := createMany_of_ok hhead hparams hok
        refine iff_of_true ⟨fun e h => ?_, fun created h => ?_⟩
          (.inr (each_insertChunk_ok_iff.mp hok))
        · rw [hmany] at h
          exact absurd h nofun
        · rw [hmany] at h ⊢
          cases h
          exact ⟨rfl, rows, hrows, hfst⟩
      · have hrefused := mt each_insertChunk_ok_iff.mpr hok
        rw [or_iff_left hrefused]
        exact allOrNothing_iff_of_refused hhead hparams hrefused

end Storable

section Example

private def numbers : Storable ℕ ℕ where
  tableName := "numbers"
  columns := ["id", "key"]
  toParams n := some (["id", "key"], [n, n])
  columns_pos := by decide
  columns_le := by decide
  columns_eq h := by
    cases h
    rfl
  length_eq h := by
    cases h
    rfl

private def primaryKey : Database ℕ where
  rejection table rows :=
    if rows.any (table.contains ·) then some ⟨some "23505", some "numbers_pkey", "duplicate key"⟩
    else none

private def numberRow (n : ℕ) : TableRow ℕ := [("id", n), ("key", n)]

private theorem mapM_numbers (entities : List ℕ) :
    entities.mapM (numbers.rowOf some) = some (entities.map numberRow) :=
  List.mapM_eq_some_iff.mpr (forall₂_map_right_iff.mpr (forall₂_same.mpr fun _ _ => rfl))

private theorem numberRow_mem_iff {n m : ℕ} : numberRow n ∈ [numberRow m] ↔ n = m := by
  simp [numberRow]

private theorem primaryKey_accepts_iff {table rows : List (TableRow ℕ)} :
    primaryKey.rejection table rows = none ↔ ∀ row ∈ rows, row ∉ table := by
  simp [primaryKey]

/-- The last number is there already. It is alone in its chunk, and the chunk before it stays
inserted. -/
theorem not_allOrNothing_numbers : ¬numbers.AllOrNothing some primaryKey
    (List.range (numbers.chunkSize + 1)) [numberRow numbers.chunkSize] := by
  intro h
  have haccepts : numbers.Accepts some primaryKey
      ((List.range (numbers.chunkSize + 1)).take numbers.chunkSize)
      [numberRow numbers.chunkSize] := by
    refine ⟨_, mapM_numbers _, primaryKey_accepts_iff.mpr fun row hrow hstored => ?_⟩
    rw [range_succ, take_left' length_range] at hrow
    obtain ⟨n, hn, rfl⟩ := List.mem_map.mp hrow
    exact (mem_range.mp hn).ne (numberRow_mem_iff.mp hstored)
  have hrefused : ¬ ∀ k, k * numbers.chunkSize < (List.range (numbers.chunkSize + 1)).length →
      numbers.AcceptsChunk some primaryKey (List.range (numbers.chunkSize + 1))
        [numberRow numbers.chunkSize] k := by
    intro hall
    have hlast := hall 1 (by rw [length_range]; omega) _ (mapM_numbers _)
    obtain ⟨rows, hrows, hdb⟩ := hlast
    obtain rfl := some.inj ((mapM_numbers _).symm.trans hrows)
    refine primaryKey_accepts_iff.mp hdb (numberRow numbers.chunkSize) ?_
      (mem_append_left _ (mem_singleton_self _))
    rw [Nat.one_mul, range_succ, drop_left' length_range]
    obtain ⟨size, hsize⟩ := exists_eq_add_one.mpr numbers.chunkSize_pos
    rw [hsize, take_succ_cons]
    exact mem_cons_self
  have hhead : 0 ∈ (List.range (numbers.chunkSize + 1)).head? := by
    rw [range_succ_eq_map]
    exact head?_cons
  have hparams : (numbers.toParams 0).isSome = true := rfl
  exact (Storable.allOrNothing_iff_of_refused hhead hparams hrefused).mp h haccepts

end Example
end Scanopy
