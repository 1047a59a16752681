import Mathlib.Data.Finmap

/-! Hash maps as unordered finite maps. Code that iterates over one sees its keys in some order that
the map does not determine, so an iteration takes the order as an argument; `Enumerates` says which
are possible. -/

def HashMap (K V : Type*) := Finmap fun _ : K => V

namespace HashMap
open List Option Bool
variable {K V : Type*} [DecidableEq K]

def empty : HashMap K V := (∅ : Finmap fun _ : K => V)

def get (m : HashMap K V) (k : K) : Option V := Finmap.lookup k m

def contains (m : HashMap K V) (k : K) : Bool := (m.get k).isSome

def insert (m : HashMap K V) (k : K) (v : V) : HashMap K V := Finmap.insert k v m

def remove (m : HashMap K V) (k : K) : HashMap K V := Finmap.erase k m

/-- Set the value of a key that is present; a key that is absent stays absent. -/
def replace (m : HashMap K V) (k : K) (v : V) : HashMap K V :=
  if m.contains k then m.insert k v else m

/-- The entry of `k`, created as `d` on first use, changed by `f`. -/
def alter (m : HashMap K V) (k : K) (d : V) (f : V → V) : HashMap K V :=
  m.insert k (f ((m.get k).getD d))

/-- `entry(k).or_insert(v)` for every entry of the second map. -/
def orInsertAll (m m' : HashMap K V) : HashMap K V := Finmap.union m m'

def keys (m : HashMap K V) : Finset K := Finmap.keys m

def retain (m : HashMap K V) (p : K → V → Bool) : HashMap K V where
  entries := m.entries.filter fun e => p e.1 e.2
  nodupKeys := by
    obtain ⟨entries, hnodup⟩ := m
    induction entries using Quotient.inductionOn with
    | _ l => exact List.NodupKeys.sublist List.filter_sublist hnodup

/-- `order` is an order in which an iteration can visit the keys of `m`. -/
def Enumerates (m : HashMap K V) (order : List K) : Prop :=
  order.Nodup ∧ order.toFinset = m.keys

instance (m : HashMap K V) (order : List K) : Decidable (m.Enumerates order) :=
  inferInstanceAs (Decidable (order.Nodup ∧ order.toFinset = m.keys))

def iterate (m : HashMap K V) (order : List K) : List (K × V) :=
  order.filterMap fun k => (m.get k).map fun v => (k, v)

def any (m : HashMap K V) (p : V → Bool) : Bool :=
  decide (∃ k ∈ m.keys, (m.get k).any p)

theorem exists_enumerates (m : HashMap K V) : ∃ order, m.Enumerates order :=
  ⟨m.keys.toList, m.keys.nodup_toList, m.keys.toList_toFinset⟩

@[simp] theorem get_empty (k : K) : (empty : HashMap K V).get k = none := rfl

theorem get_insert (m : HashMap K V) (k k' : K) (v : V) :
    (m.insert k v).get k' = if k' = k then some v else m.get k' := by
  split_ifs with h
  · subst h
    exact Finmap.lookup_insert m
  · exact Finmap.lookup_insert_of_ne m h

@[simp] theorem get_insert_self (m : HashMap K V) (k : K) (v : V) :
    (m.insert k v).get k = some v := by rw [get_insert, if_pos rfl]

theorem getLast?_filterMap_iff {A B : Type*} (f : A → Option B) (l : List A) :
    (∀ b, (l.filterMap f).getLast? = some b → ∃ a, l.getLast? = some a ∧ f a = some b) ↔
      ∀ a, l.getLast? = some a → f a = none → ∀ a' ∈ l, f a' = none := by
  simp only [← filterMap_eq_nil_iff]
  rcases eq_nil_or_concat l with rfl | ⟨l, a, rfl⟩
  · simp
  rw [concat_eq_append, getLast?_concat]
  cases ha : f a with
  | some b => simp [ha]
  | none =>
    constructor
    · intro h a' ha' _
      by_contra hne
      obtain ⟨a'', ha'', hb⟩ := h _ (getLast?_eq_some_getLast hne)
      rw [← some.inj ha'', ha] at hb
      cases hb
    · intro h b hb
      rw [h a rfl ha] at hb
      cases hb

theorem get_alter (m : HashMap K V) (k k' : K) (d : V) (f : V → V) :
    (m.alter k d f).get k' = if k' = k then some (f ((m.get k).getD d)) else m.get k' :=
  get_insert m k k' _

theorem get_foldl_alter {A B : Type*} (key : A → K) (val : A → B) (d : V) (f : K → B → V → V)
    (hf : ∀ k b b' v, f k b (f k b' v) = f k b v) (l : List A) (m : HashMap K V) (k : K) :
    (l.foldl (fun m a => m.alter (key a) d (f (key a) (val a))) m).get k =
      (((l.filter fun a => key a = k).map val).getLast?.map fun b => f k b ((m.get k).getD d)).or
        (m.get k) := by
  induction l using List.reverseRecOn with
  | nil => rfl
  | append_singleton l a ih =>
    rw [foldl_append, foldl_cons, foldl_nil, get_alter, filter_append]
    by_cases hk : key a = k
    · have hlast : [a].filter (fun a => key a = k) = [a] := by simp [hk]
      rw [if_pos hk.symm, hlast, map_append, map_singleton, getLast?_concat, hk, ih]
      cases ((l.filter fun a => key a = k).map val).getLast? with
      | none => simp
      | some b => simp [hf]
    · have hlast : [a].filter (fun a => key a = k) = [] := by simp [hk]
      rw [if_neg (Ne.symm hk), hlast, append_nil, ih]

theorem get_foldl_insert {A : Type*} (key : A → K) (value : A → V) (l : List A) (m : HashMap K V)
    (k : K) : (l.foldl (fun m a => m.insert (key a) (value a)) m).get k =
      ((l.filter fun a => key a = k).getLast?.map value).or (m.get k) := by
  cases l with
  | nil => rfl
  | cons a l =>
    have halter :=
      get_foldl_alter key value (value a) (fun _ v _ => v) (fun _ _ _ _ => rfl) (a :: l) m k
    rw [getLast?_map, Option.map_map] at halter
    exact halter

theorem get_foldl_insert_filterMap {A : Type*} (key : A → K) (value : A → Option V) (l : List A)
    (m : HashMap K V) (k : K) :
    ((l.filterMap fun a => (value a).map fun v => (key a, v)).foldl
      (fun m e => m.insert e.1 e.2) m).get k =
      ((l.filter fun a => key a = k).filterMap value).getLast?.or (m.get k) := by
  have hvalues : ((l.filterMap fun a => (value a).map fun v => (key a, v)).filter
      fun e => e.1 = k).map (·.2) = (l.filter fun a => key a = k).filterMap value := by
    rw [filter_filterMap, map_filterMap, filterMap_filter]
    refine filterMap_congr fun a _ => ?_
    cases value a with
    | none => simp
    | some v => by_cases hk : key a = k <;> simp [hk]
  rw [get_foldl_insert, ← getLast?_map, hvalues]

theorem get_foldl_push {A B : Type*} (key : A → K) (val : A → B) (l : List A) (k : K) :
    (l.foldl (fun m a => m.alter (key a) [] (· ++ [val a])) empty).get k =
      if l.filter (key · = k) = [] then none else some ((l.filter (key · = k)).map val) := by
  induction l using List.reverseRecOn with
  | nil => rfl
  | append_singleton l a ih =>
    rw [foldl_append, foldl_cons, foldl_nil, get_alter, filter_append]
    by_cases hk : key a = k
    · have hlast : [a].filter (key · = k) = [a] := by simp [hk]
      rw [if_pos hk.symm, hlast, if_neg (by simp), hk, ih]
      split_ifs with hnil <;> simp [hnil]
    · have hlast : [a].filter (key · = k) = [] := by simp [hk]
      rw [if_neg (Ne.symm hk), hlast, append_nil, ih]

theorem get_foldl_of_forall {A : Type*} {step : HashMap K V → A → HashMap K V} {l : List A} {k : K}
    (h : ∀ m, ∀ a ∈ l, (step m a).get k = m.get k) (m : HashMap K V) :
    (l.foldl step m).get k = m.get k := by
  induction l generalizing m with
  | nil => rfl
  | cons a l ih =>
    rw [foldl_cons, ih (fun m b hb => h m b (mem_cons_of_mem a hb)), h m a mem_cons_self]

theorem get_orInsertAll (m m' : HashMap K V) (k : K) :
    (m.orInsertAll m').get k = (m.get k).or (m'.get k) := by
  cases hm : m.get k with
  | some v =>
    have hmem : Finmap.lookup k m = some v := hm
    exact (Finmap.lookup_union_left (Finmap.mem_of_lookup_eq_some hmem)).trans hm
  | none =>
    have hnot : Finmap.lookup k m = none := hm
    exact Finmap.lookup_union_right (Finmap.lookup_eq_none.mp hnot)

theorem Enumerates.mem_iterate {m : HashMap K V} {order : List K} (h : m.Enumerates order) {k : K}
    {v : V} : (k, v) ∈ m.iterate order ↔ m.get k = some v := by
  have hmem : k ∈ order ↔ ∃ v, m.get k = some v := by
    rw [← List.mem_toFinset, h.2]
    exact Finmap.mem_keys.trans Finmap.mem_iff
  simp only [iterate, mem_filterMap, map_eq_some_iff, Prod.mk.injEq]
  constructor
  · rintro ⟨k', -, v', hv', rfl, rfl⟩
    exact hv'
  · exact fun hv => ⟨k, hmem.mpr ⟨v, hv⟩, v, hv, rfl, rfl⟩

theorem Enumerates.get_foldl_insert {W : Type*} {m : HashMap K V} {order : List K}
    (h : m.Enumerates order) (f : K → V → W) (k : K) :
    ((m.iterate order).foldl (fun result e => result.insert e.1 (f e.1 e.2)) empty).get k =
      (m.get k).map (f k) := by
  rw [HashMap.get_foldl_insert Prod.fst fun e : K × V => f e.1 e.2, get_empty, or_none]
  have hmem (e : K × V) : e ∈ (m.iterate order).filter (fun e => e.1 = k) ↔
      m.get k = some e.2 ∧ e.1 = k := by
    obtain ⟨k', v⟩ := e
    rw [mem_filter, decide_eq_true_iff]
    constructor
    · rintro ⟨hv, rfl⟩
      exact ⟨h.mem_iterate.mp hv, rfl⟩
    · rintro ⟨hv, rfl⟩
      exact ⟨h.mem_iterate.mpr hv, rfl⟩
  cases hlast : ((m.iterate order).filter fun e => e.1 = k).getLast? with
  | none =>
    cases hv : m.get k with
    | none => rfl
    | some v =>
      have hnone := (hmem (k, v)).mpr ⟨hv, rfl⟩
      rw [getLast?_eq_none_iff.mp hlast] at hnone
      exact absurd hnone not_mem_nil
  | some e =>
    obtain ⟨hv, hk⟩ := (hmem e).mp (mem_of_getLast? hlast)
    rw [hv, map_some, map_some, hk]

theorem get_remove (m : HashMap K V) (k k' : K) :
    (m.remove k).get k' = if k' = k then none else m.get k' := by
  split_ifs with h
  · subst h
    exact Finmap.lookup_erase k' m
  · exact Finmap.lookup_erase_ne h

@[simp] theorem get_remove_self (m : HashMap K V) (k : K) : (m.remove k).get k = none := by
  rw [get_remove, if_pos rfl]

theorem mem_entries {m : HashMap K V} {k : K} {v : V} :
    (⟨k, v⟩ : Sigma fun _ : K => V) ∈ Finmap.entries m ↔ m.get k = some v := by
  induction m using Finmap.induction_on with
  | H a => exact (mem_dlookup_iff a.nodupKeys).symm

theorem get_retain (m : HashMap K V) (p : K → V → Bool) (k : K) :
    (m.retain p).get k = (m.get k).filter (p k) := by
  ext v
  rw [← mem_entries, filter_eq_some_iff, ← mem_entries]
  exact Multiset.mem_filter

@[simp] theorem contains_eq_true {m : HashMap K V} {k : K} :
    m.contains k = true ↔ ∃ v, m.get k = some v := isSome_iff_exists

theorem contains_eq_false {m : HashMap K V} {k : K} :
    m.contains k = false ↔ m.get k = none := by
  rw [contains, isSome_eq_false_iff, isNone_iff_eq_none]

theorem get_replace (m : HashMap K V) (k k' : K) (v : V) :
    (m.replace k v).get k' = if k' = k then (m.get k).map fun _ => v else m.get k' := by
  rw [replace]
  cases hk : m.get k with
  | none =>
    rw [if_neg (by rw [contains_eq_false.mpr hk]; exact Bool.false_ne_true)]
    split_ifs with h
    · rw [h, hk]
      rfl
    · rfl
  | some old =>
    rw [if_pos (contains_eq_true.mpr ⟨old, hk⟩), get_insert]
    rfl

theorem mem_keys {m : HashMap K V} {k : K} : k ∈ m.keys ↔ ∃ v, m.get k = some v :=
  Finmap.mem_keys.trans Finmap.mem_iff

theorem Enumerates.mem_iff {m : HashMap K V} {order : List K} (h : m.Enumerates order) {k : K} :
    k ∈ order ↔ ∃ v, m.get k = some v := by
  rw [← mem_keys, ← h.2, List.mem_toFinset]

theorem Enumerates.perm {m : HashMap K V} {order order' : List K} (h : m.Enumerates order)
    (h' : m.Enumerates order') : order.Perm order' := by
  rw [perm_ext_iff_of_nodup h.1 h'.1]
  intro k
  rw [h.mem_iff, h'.mem_iff]

theorem any_eq_true {m : HashMap K V} {p : V → Bool} :
    m.any p = true ↔ ∃ k v, m.get k = some v ∧ p v = true := by
  simp only [any, decide_eq_true_eq, mem_keys, Option.any_eq_true]
  constructor
  · rintro ⟨k, -, v, hv, hp⟩
    exact ⟨k, v, hv, hp⟩
  · rintro ⟨k, v, hv, hp⟩
    exact ⟨k, ⟨v, hv⟩, v, hv, hp⟩

theorem any_eq_false {m : HashMap K V} {p : V → Bool} :
    m.any p = false ↔ ∀ k v, m.get k = some v → p v = false := by
  rw [← not_eq_true, any_eq_true]
  constructor
  · intro h k v hv
    exact eq_false_iff.mpr fun hp => h ⟨k, v, hv, hp⟩
  · rintro h ⟨k, v, hv, hp⟩
    exact Bool.false_ne_true ((h k v hv).symm.trans hp)

end HashMap
