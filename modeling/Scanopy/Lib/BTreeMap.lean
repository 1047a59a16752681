import Mathlib.Data.List.Pairwise
import Mathlib.Data.List.Sort

/-! Ordered maps. A map holds its entries in the strict order of their keys, so an iteration over
it sees the values in that order and in no other. -/

section Last
variable {R K : Type*} [LinearOrder K] {key : R → K} {l : List R}

theorem List.Pairwise.lt_getLast? (h : l.Pairwise fun r r' => key r < key r') {r last : R}
    (hr : r ∈ l) (hlast : last ∈ l.getLast?) : r = last ∨ key r < key last := by
  obtain ⟨before, rfl⟩ := List.getLast?_eq_some_iff.mp hlast
  rcases List.mem_append.mp hr with hr | hr
  · exact .inr ((List.pairwise_append.mp h).2.2 r hr last (List.mem_singleton_self _))
  · exact .inl (List.mem_singleton.mp hr)

/-- In the order of the keys, the last element is one of those with a property if there are any,
exactly if every other element that comes after one of them comes before another. -/
theorem List.Pairwise.last_of_exists_iff (h : l.Pairwise fun r r' => key r < key r')
    {p : R → Prop} :
    ((∃ r ∈ l, p r) → ∃ r ∈ l.getLast?, p r) ↔
      ∀ r ∈ l, ∀ r' ∈ l, p r → ¬ p r' → key r < key r' → ∃ r'' ∈ l, p r'' ∧ key r' < key r'' := by
  constructor
  · intro hexists r hr r' hr' hp hp' _
    obtain ⟨last, hlast, hplast⟩ := hexists ⟨r, hr, hp⟩
    rcases h.lt_getLast? hr' hlast with rfl | hlt
    · exact absurd hplast hp'
    · exact ⟨last, List.mem_of_getLast? hlast, hplast, hlt⟩
  · rintro hnext ⟨r, hr, hp⟩
    obtain ⟨last, hlast⟩ : ∃ last, l.getLast? = some last :=
      ⟨_, List.getLast?_eq_some_getLast (List.ne_nil_of_mem hr)⟩
    have hmem : last ∈ l := List.mem_of_getLast? hlast
    by_cases hplast : p last
    · exact ⟨last, hlast, hplast⟩
    rcases h.lt_getLast? hr hlast with rfl | hlt
    · exact absurd hp hplast
    obtain ⟨r', hr', -, hlt'⟩ := hnext r hr last hmem hp hplast hlt
    rcases h.lt_getLast? hr' hlast with rfl | hlt''
    · exact absurd hlt' (lt_irrefl _)
    · exact absurd hlt' hlt''.asymm

end Last

structure BTreeMap (K V : Type*) [LinearOrder K] where
  entries : List (K × V)
  sorted : entries.Pairwise fun e e' => e.1 < e'.1

namespace BTreeMap
open List Option
variable {K V W : Type*} [LinearOrder K]

def empty : BTreeMap K V := ⟨[], List.Pairwise.nil⟩

def get (m : BTreeMap K V) (k : K) : Option V :=
  (m.entries.find? fun e => e.1 = k).map Prod.snd

def values (m : BTreeMap K V) : List V := m.entries.map Prod.snd

/-- The entries after `entry(k).or_insert(d)` and a change of that entry by `f`. -/
def alterEntries (k : K) (d : V) (f : V → V) : List (K × V) → List (K × V)
  | [] => [(k, f d)]
  | (k', v) :: entries =>
    if k < k' then (k, f d) :: (k', v) :: entries
    else if k = k' then (k', f v) :: entries
    else (k', v) :: alterEntries k d f entries

theorem mem_alterEntries {k : K} {d : V} {f : V → V} {entries : List (K × V)} {e : K × V}
    (h : e ∈ alterEntries k d f entries) : e.1 = k ∨ e ∈ entries := by
  induction entries with
  | nil =>
    rw [alterEntries, mem_singleton] at h
    exact Or.inl (congrArg Prod.fst h)
  | cons e' entries ih =>
    obtain ⟨k', v⟩ := e'
    rw [alterEntries] at h
    split_ifs at h with hlt heq
    · rcases mem_cons.mp h with h | h
      · exact Or.inl (congrArg Prod.fst h)
      · exact Or.inr h
    · rcases mem_cons.mp h with h | h
      · exact Or.inl ((congrArg Prod.fst h).trans heq.symm)
      · exact Or.inr (mem_cons_of_mem _ h)
    · rcases mem_cons.mp h with h | h
      · exact Or.inr (h ▸ mem_cons_self)
      · exact (ih h).imp_right (mem_cons_of_mem _)

theorem alterEntries_sorted {k : K} {d : V} {f : V → V} {entries : List (K × V)}
    (h : entries.Pairwise fun e e' => e.1 < e'.1) :
    (alterEntries k d f entries).Pairwise fun e e' => e.1 < e'.1 := by
  induction entries with
  | nil => exact pairwise_singleton _ _
  | cons e' entries ih =>
    obtain ⟨k', v⟩ := e'
    obtain ⟨hhead, htail⟩ := pairwise_cons.mp h
    rw [alterEntries]
    split_ifs with hlt heq
    · refine pairwise_cons.mpr ⟨fun e he => ?_, h⟩
      rcases mem_cons.mp he with he | he
      · exact he ▸ hlt
      · exact hlt.trans (hhead e he)
    · exact pairwise_cons.mpr ⟨hhead, htail⟩
    · refine pairwise_cons.mpr ⟨fun e he => ?_, ih htail⟩
      rcases mem_alterEntries he with he | he
      · exact he ▸ lt_of_le_of_ne (not_lt.mp hlt) (Ne.symm heq)
      · exact hhead e he

/-- The entry of `k`, created as `d` on first use, changed by `f`. -/
def alter (m : BTreeMap K V) (k : K) (d : V) (f : V → V) : BTreeMap K V :=
  ⟨alterEntries k d f m.entries, alterEntries_sorted m.sorted⟩

def retain (m : BTreeMap K V) (p : K → V → Bool) : BTreeMap K V :=
  ⟨m.entries.filter fun e => p e.1 e.2, m.sorted.filter _⟩

@[simp] theorem get_empty (k : K) : (empty : BTreeMap K V).get k = none := rfl

theorem mem_iff_find {entries : List (K × V)} (h : entries.Pairwise fun e e' => e.1 < e'.1)
    {k : K} {v : V} :
    (k, v) ∈ entries ↔ (entries.find? fun e => e.1 = k).map Prod.snd = some v := by
  induction entries with
  | nil => simp
  | cons e entries ih =>
    obtain ⟨hhead, htail⟩ := pairwise_cons.mp h
    have htail' := ih htail
    rw [mem_cons, find?_cons]
    by_cases hk : e.1 = k
    · -- the tail has larger keys only, so it holds no second entry of `k`
      have hnone : (k, v) ∉ entries := by
        intro hmem
        exact absurd (hhead _ hmem) (by rw [hk]; exact lt_irrefl k)
      simp only [hk, decide_true, map_some, some.injEq]
      constructor
      · rintro (h | h)
        · exact (congrArg Prod.snd h).symm
        · exact absurd h hnone
      · intro h
        exact Or.inl (Prod.ext hk.symm h.symm)
    · simp only [hk, decide_false]
      rw [← htail']
      constructor
      · rintro (h | h)
        · exact absurd (congrArg Prod.fst h).symm hk
        · exact h
      · exact Or.inr

theorem mem_entries {m : BTreeMap K V} {k : K} {v : V} :
    (k, v) ∈ m.entries ↔ m.get k = some v := mem_iff_find m.sorted

theorem mem_values {m : BTreeMap K V} {v : V} : v ∈ m.values ↔ ∃ k, m.get k = some v := by
  rw [values, List.mem_map]
  constructor
  · rintro ⟨⟨k, _⟩, he, rfl⟩
    exact ⟨k, mem_entries.mp he⟩
  · rintro ⟨k, hk⟩
    exact ⟨(k, v), mem_entries.mpr hk, rfl⟩

theorem find_alterEntries_of_ne {k k' : K} (hk : k' ≠ k) (d : V) (f : V → V)
    (entries : List (K × V)) :
    (alterEntries k d f entries).find? (fun e => e.1 = k') = entries.find? fun e => e.1 = k' := by
  induction entries with
  | nil => simp [alterEntries, Ne.symm hk]
  | cons e entries ih =>
    obtain ⟨k'', v⟩ := e
    rw [alterEntries]
    split_ifs with hlt heq
    · rw [find?_cons_of_neg (by simpa using Ne.symm hk)]
    · have hne : ¬k'' = k' := fun h => hk (h.symm.trans heq.symm)
      simp [hne]
    · rw [find?_cons, find?_cons, ih]

theorem find_alterEntries_self {entries : List (K × V)}
    (h : entries.Pairwise fun e e' => e.1 < e'.1) (k : K) (d : V) (f : V → V) :
    ((alterEntries k d f entries).find? fun e => e.1 = k).map Prod.snd =
      some (f (((entries.find? fun e => e.1 = k).map Prod.snd).getD d)) := by
  induction entries with
  | nil => simp [alterEntries]
  | cons e entries ih =>
    obtain ⟨k', v⟩ := e
    obtain ⟨hhead, htail⟩ := pairwise_cons.mp h
    rw [alterEntries]
    split_ifs with hlt heq
    · -- `k` stands before every key of the list
      have hnone : ((k', v) :: entries).find? (fun e => e.1 = k) = none := by
        rw [find?_eq_none]
        intro e he
        have hke : k < e.1 := by
          rcases mem_cons.mp he with he | he
          · exact he ▸ hlt
          · exact hlt.trans (hhead e he)
        simpa using hke.ne'
      rw [hnone]
      simp
    · subst heq
      simp
    · have hne : ¬k' = k := Ne.symm heq
      simpa [find?_cons, hne] using ih htail

theorem get_alter (m : BTreeMap K V) (k k' : K) (d : V) (f : V → V) :
    (m.alter k d f).get k' = if k' = k then some (f ((m.get k).getD d)) else m.get k' := by
  split_ifs with hk
  · subst hk
    exact find_alterEntries_self m.sorted k' d f
  · exact congrArg (Option.map Prod.snd) (find_alterEntries_of_ne hk d f m.entries)

theorem get_retain (m : BTreeMap K V) (p : K → V → Bool) (k : K) :
    (m.retain p).get k = (m.get k).filter (p k) := by
  ext v
  rw [← mem_entries, filter_eq_some_iff, ← mem_entries]
  exact mem_filter

theorem ext_get {m m' : BTreeMap K V} (h : ∀ k, m.get k = m'.get k) : m = m' := by
  have hmem : ∀ e, e ∈ m.entries ↔ e ∈ m'.entries := by
    intro e
    rw [show e = (e.1, e.2) from rfl, mem_entries, mem_entries, h]
  have hnodup : ∀ m : BTreeMap K V, m.entries.Nodup := fun m =>
    m.sorted.imp fun hlt heq => absurd (congrArg Prod.fst heq) hlt.ne
  have hperm : m.entries.Perm m'.entries :=
    (perm_ext_iff_of_nodup (hnodup m) (hnodup m')).mpr hmem
  have heq : m.entries = m'.entries :=
    Perm.eq_of_pairwise (fun _ _ _ _ hlt hgt => absurd hgt hlt.asymm) m.sorted m'.sorted hperm
  cases m
  cases m'
  cases heq
  rfl

theorem pairwise_values {R : V → V → Prop} [Std.Symm R] {m : BTreeMap K V} :
    m.values.Pairwise R ↔ ∀ k v k' v', k ≠ k' → m.get k = some v → m.get k' = some v' → R v v' := by
  rw [values, pairwise_map]
  constructor
  · intro h k v k' v' hk hv hv'
    have hsymm : Std.Symm fun e e' : K × V => R e.2 e'.2 := ⟨fun _ _ he => Std.Symm.symm _ _ he⟩
    refine h.forall (mem_entries.mpr hv) (mem_entries.mpr hv') ?_
    exact fun heq => hk (congrArg Prod.fst heq)
  · intro h
    refine m.sorted.imp_of_mem fun {e e'} he he' hlt => ?_
    exact h e.1 e.2 e'.1 e'.2 hlt.ne (mem_entries.mp he) (mem_entries.mp he')

theorem length_values_lt {m m' : BTreeMap K V}
    (h : ∀ k v, m.get k = some v → ∃ v', m'.get k = some v')
    {k : K} (hk : m.get k = none) {v' : V} (hk' : m'.get k = some v') :
    m.values.length < m'.values.length := by
  have hkeys : ∀ {m : BTreeMap K V} {k : K}, k ∈ m.entries.map Prod.fst ↔ ∃ v, m.get k = some v := by
    intro m k
    rw [List.mem_map]
    constructor
    · rintro ⟨⟨_, v⟩, he, rfl⟩
      exact ⟨v, mem_entries.mp he⟩
    · rintro ⟨v, hv⟩
      exact ⟨(k, v), mem_entries.mpr hv, rfl⟩
  have hfresh : k ∉ m.entries.map Prod.fst := by
    rw [hkeys, hk]
    simp
  have hnodup : (k :: m.entries.map Prod.fst).Nodup := by
    refine nodup_cons.mpr ⟨hfresh, ?_⟩
    exact (pairwise_map.mpr m.sorted).imp fun hlt => hlt.ne
  have hsubset : k :: m.entries.map Prod.fst ⊆ m'.entries.map Prod.fst := by
    refine cons_subset.mpr ⟨hkeys.mpr ⟨v', hk'⟩, fun k' hk' => ?_⟩
    obtain ⟨v, hv⟩ := hkeys.mp hk'
    exact hkeys.mpr (h k' v hv)
  have hle := (subperm_of_subset hnodup hsubset).length_le
  exact Nat.lt_of_succ_le (by simpa [values] using hle)

end BTreeMap
