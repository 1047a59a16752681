import Scanopy.Snapshots.TableEffects

/-! Rows that are read, changed and written back as a whole, with the fields that the writer does
not mean to set as it has read them; another may have set them meanwhile. -/

namespace Scanopy
open List
variable {B F : Type} {V : F → Type} {get : (f : F) → Row B → V f}

structure Draft (get : (f : F) → Row B → V f) where
  read : Row B
  written : Row B
  /-- The fields that the writer means to set. -/
  sets : F → Bool
  sameId : written.id = read.id
  keeps : ∀ f, sets f = false → get f written = get f read

abbrev Meant (V : F → Type) := Uuid → (f : F) → V f

def Meant.insert (m : Meant V) (get : (f : F) → Row B → V f) (row : Row B) : Meant V :=
  fun id f => if id = row.id then get f row else m id f

def Meant.write (m : Meant V) (d : Draft get) : Meant V :=
  fun id f => if id = d.read.id ∧ d.sets f = true then get f d.written else m id f

def Agrees (get : (f : F) → Row B → V f) (t : RowTable B) (m : Meant V) : Prop :=
  ∀ r ∈ t, ∀ f, get f r.toRow = m r.id f

def Draft.Current (d : Draft get) (t : RowTable B) : Prop :=
  ∀ r ∈ t.rows, r.id = d.read.id → ∀ f, d.sets f = false → get f r.toRow = get f d.read

variable {t t' : RowTable B} {m : Meant V}

theorem Agrees.insert (h : Agrees get t m) {row : Row B}
    (hinsert : t.insertMany [⟨row, none⟩] = some t') : Agrees get t' (m.insert get row) := by
  have hfresh := (Table.insertMany_eq_some hinsert).2.2
  intro r hr f
  rw [Table.mem_insertMany hinsert, mem_singleton] at hr
  rcases hr with hr | rfl
  · have hne : r.id ≠ row.id := hfresh r hr _ (mem_singleton_self _)
    rw [Meant.insert, if_neg hne]
    exact h r hr f
  · rw [Meant.insert, if_pos rfl]

theorem Agrees.write (h : Agrees get t m) {d : Draft get} (hcurrent : d.Current t) :
    Agrees get (t.update [d.written]) (m.write d) := by
  intro r' hr' f
  obtain ⟨r, hr, rfl⟩ := RowTable.mem_update_singleton.mp hr'
  by_cases hid : r.id = d.read.id
  · rw [if_pos (d.sameId.trans hid.symm)]
    show get f d.written = m.write d d.written.id f
    unfold Meant.write
    cases hsets : d.sets f with
    | true => rw [if_pos ⟨d.sameId, rfl⟩]
    | false =>
      rw [if_neg (fun hand => Bool.false_ne_true hand.2), d.keeps f hsets,
        ← hcurrent r hr hid f hsets, h r hr f, d.sameId, hid]
  · rw [if_neg (fun hsame => hid (hsame.symm.trans d.sameId))]
    unfold Meant.write
    rw [if_neg fun hand => hid hand.1]
    exact h r hr f

theorem update_cons (t : RowTable B) (row : Row B) (rows : List (Row B)) :
    t.update (row :: rows) = (t.update [row]).update rows := rfl

theorem Agrees.writeAll {drafts : List (Draft get)} (hdistinct : (drafts.map (·.read.id)).Nodup)
    (h : Agrees get t m) (hcurrent : ∀ d ∈ drafts, d.Current t) :
    Agrees get (t.update (drafts.map (·.written))) (drafts.foldl Meant.write m) := by
  induction drafts generalizing t m with
  | nil => exact h
  | cons d drafts ih =>
    rw [map_cons, nodup_cons] at hdistinct
    rw [map_cons, update_cons]
    refine ih hdistinct.2 (h.write (hcurrent d mem_cons_self)) fun d' hd' => ?_
    intro r' hr' hid f hsets
    obtain ⟨r, hr, rfl⟩ := RowTable.mem_update_singleton.mp hr'
    have hne : d.written.id ≠ d'.read.id := by
      rw [d.sameId]
      intro hsame
      exact hdistinct.1 (mem_map.mpr ⟨d', hd', hsame.symm⟩)
    split_ifs at hid ⊢ with hwritten
    · exact absurd hid hne
    · exact hcurrent d' (mem_cons_of_mem d hd') r hr hid f hsets

inductive WriteBack (get : (f : F) → Row B → V f)
  | write (drafts : List (Draft get)) (distinct : (drafts.map (·.read.id)).Nodup)
  | insert (row : Row B)

structure RecordStore (get : (f : F) → Row B → V f) where
  table : RowTable B
  calls : List (ℕ × WriteBack get) := []

namespace RecordStore
variable (s : RecordStore get)

def pending (call : ℕ) : Option (WriteBack get) := (s.calls.find? (·.1 = call)).map Prod.snd

def enter (call : ℕ) (write : Option (WriteBack get)) : Option (RecordStore get) :=
  if (s.pending call).isSome then none
  else some { s with calls := (write.map (call, ·)).toList ++ s.calls }

def applyWrite : WriteBack get → Option (RowTable B)
  | .write drafts _ => some (s.table.update (drafts.map (·.written)))
  | .insert row => s.table.insertMany [⟨row, none⟩]

def commit (call : ℕ) : Option (RecordStore get) := (s.pending call).map fun write =>
  { table := (s.applyWrite write).getD s.table
    calls := s.calls.filter (·.1 ≠ call) }

def meantAfter (call : ℕ) (m : Meant V) : Meant V :=
  match s.pending call with
  | some (.write drafts _) => drafts.foldl Meant.write m
  | some (.insert row) => if (s.applyWrite (.insert row)).isSome then m.insert get row else m
  | none => m

def Unchanged (call : ℕ) : Prop :=
  ∀ write ∈ s.pending call, match write with
    | .write drafts _ => ∀ d ∈ drafts, d.Current s.table
    | .insert _ => True

instance [Fintype F] [∀ f, DecidableEq (V f)] (d : Draft get) (t : RowTable B) :
    Decidable (d.Current t) :=
  inferInstanceAs (Decidable (∀ r ∈ t.rows, r.id = d.read.id → ∀ f, d.sets f = false → _))

instance [Fintype F] [∀ f, DecidableEq (V f)] (s : RecordStore get) : DecidablePred s.Unchanged :=
  fun call =>
    match h : s.pending call with
    | none => isTrue fun _ hwrite => nomatch h.symm.trans hwrite
    | some (.write drafts _) =>
      decidable_of_iff (∀ d ∈ drafts, d.Current s.table)
        ⟨fun hd _ hwrite => Option.some.inj (h.symm.trans hwrite) ▸ hd, fun hall => hall _ h⟩
    | some (.insert _) =>
      isTrue fun _ hwrite => Option.some.inj (h.symm.trans hwrite) ▸ trivial

variable {s} {s' : RecordStore get}

theorem table_enter {call : ℕ} {write : Option (WriteBack get)}
    (h : s.enter call write = some s') : s'.table = s.table := by
  unfold enter at h
  split_ifs at h
  cases h
  rfl

theorem agrees_commit {call : ℕ} (h : s.commit call = some s') (hagrees : Agrees get s.table m)
    (hunchanged : s.Unchanged call) : Agrees get s'.table (s.meantAfter call m) := by
  obtain ⟨write, hwrite, rfl⟩ := Option.map_eq_some_iff.mp h
  unfold meantAfter
  rw [hwrite]
  have hcopies := hunchanged write hwrite
  cases write with
  | write drafts distinct => exact hagrees.writeAll distinct hcopies
  | insert row =>
    show Agrees get ((s.applyWrite (.insert row)).getD s.table)
      (if (s.applyWrite (.insert row)).isSome then m.insert get row else m)
    cases hinsert : s.applyWrite (.insert row) with
    | none => exact hagrees
    | some t' => exact hagrees.insert hinsert

end RecordStore

/-- The entities that know the scans that have seen them. -/
class DiscoveryTracked (B : Type) where
  firstDiscoveryId : B → Option Uuid
  setFirstDiscoveryId : Option Uuid → B → B
  setLastDiscoveryId : Option Uuid → B → B

export DiscoveryTracked (firstDiscoveryId setFirstDiscoveryId setLastDiscoveryId)

section Bookkeeping
variable [DiscoveryTracked B] (discoveryId : Uuid)

def markDiscovered (r : Row B) : Row B :=
  let b := setLastDiscoveryId (some discoveryId) r.base
  { r with base :=
      if (firstDiscoveryId b).isNone then setFirstDiscoveryId (some discoveryId) b else b }

/-- `update_discovery_fks` up to its write. No field but the two is meant to change. -/
def updateDiscoveryFks (hget : ∀ f r, get f (markDiscovered discoveryId r) = get f r)
    (t : RowTable B) (scanned : List Uuid) : WriteBack get :=
  let entities := t.rows.filter fun r => r.id ∈ scanned
  .write (entities.map fun r =>
      ⟨r.toRow, markDiscovered discoveryId r.toRow, fun _ => false, rfl, fun f _ => hget f r.toRow⟩)
    (by
      rw [List.map_map]
      exact t.nodup.sublist (List.filter_sublist.map _))

end Bookkeeping

/-- `CrudService::update` up to its write: an entity that carries some fields, and has the others from
the row that the caller has read. -/
def updateEntity [Fintype F] [∀ f, DecidableEq (V f)] (t : RowTable B) (entity : Row B)
    (carried : F → Bool) : Option (Option (WriteBack get)) :=
  match t.find entity.id with
  | none => some none
  | some r =>
    if h : entity.id = r.id ∧ ∀ f, carried f = false → get f entity = get f r.toRow then
      some (some (.write [⟨r.toRow, entity, carried, h.1, h.2⟩] (List.nodup_singleton _)))
    else none

end Scanopy
