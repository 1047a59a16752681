import Scanopy.Shared.Entities

/-! The positions of the children of a host in their lists, which are numbers in the items: a move
rotates the numbers between the two places, and leaves the others. -/

namespace Scanopy

open List

inductive PositionError
  | duplicate (position : ℤ)
  | notSequential (expected actual : ℤ)
  /-- Some positions are given and some are not. -/
  | mixed (specified omitted : ℕ)
  deriving DecidableEq

def firstDuplicate : List ℤ → Option ℤ
  | a :: b :: rest => if a = b then some a else firstDuplicate (b :: rest)
  | _ => none

def validateSequentialPositions (positions : List ℤ) : Except PositionError Unit :=
  let sorted := positions.mergeSort (· ≤ ·)
  match firstDuplicate sorted with
  | some position => .error (.duplicate position)
  | none =>
    match sorted.zipIdx.find? fun (actual, expected) => actual ≠ (expected : ℤ) with
    | some (actual, expected) => .error (.notSequential expected actual)
    | none => .ok ()

/-- Positions where none is given: those of stored items stay, new items come after them. -/
def assignPositions (existing : List (Uuid × ℤ)) : ℤ → List Uuid → List ℤ
  | _, [] => []
  | next, id :: ids =>
    -- the last entry of an id wins
    match existing.reverse.find? (·.1 = id) with
    | some (_, position) => position :: assignPositions existing next ids
    | none => next :: assignPositions existing (next + 1) ids

def resolveAndValidateInputPositions (inputs : List (Uuid × Option ℤ))
    (existing : List (Uuid × ℤ)) : Except PositionError (List ℤ) :=
  let specified := inputs.filterMap Prod.snd
  if 0 < specified.length ∧ specified.length < inputs.length then
    .error (.mixed specified.length (inputs.length - specified.length))
  else if specified.length = inputs.length then
    (validateSequentialPositions specified).map fun _ => specified
  else .ok (assignPositions existing existing.length (inputs.map Prod.fst))

/-- The positions of a list of `n` items. -/
def listPositions (n : ℕ) : List ℤ := (List.range n).map Nat.cast

theorem mem_listPositions {n : ℕ} {p : ℤ} : p ∈ listPositions n ↔ 0 ≤ p ∧ p < n := by
  rw [listPositions, mem_map]
  constructor
  · rintro ⟨m, hm, rfl⟩
    exact ⟨Int.natCast_nonneg m, Int.ofNat_lt.mpr (mem_range.mp hm)⟩
  · rintro ⟨hp, hlt⟩
    exact ⟨p.toNat, mem_range.mpr (by omega), Int.toNat_of_nonneg hp⟩

theorem nodup_listPositions (n : ℕ) : (listPositions n).Nodup := nodup_range.map Nat.cast_injective

@[simp] theorem length_listPositions (n : ℕ) : (listPositions n).length = n := by
  simp [listPositions]

/-- An item that knows its position in a list. -/
class Positioned (E : Type*) where
  position : E → ℤ
  setPosition : ℤ → E → E
  position_setPosition : ∀ p e, position (setPosition p e) = p
  setPosition_position : ∀ e, setPosition (position e) e = e
  setPosition_setPosition : ∀ p q e, setPosition p (setPosition q e) = setPosition p e

instance : Positioned IPAddress where
  position i := i.base.position
  setPosition p i := { i with base := { i.base with position := p } }
  position_setPosition _ _ := rfl
  setPosition_position _ := rfl
  setPosition_setPosition _ _ _ := rfl

instance : Positioned Service where
  position s := s.base.position
  setPosition p s := { s with base := { s.base with position := p } }
  position_setPosition _ _ := rfl
  setPosition_position _ := rfl
  setPosition_setPosition _ _ _ := rfl

instance : Positioned DependencyMemberRecord where
  position m := m.base.position
  setPosition p m := { m with base := { m.base with position := p } }
  position_setPosition _ _ := rfl
  setPosition_position _ := rfl
  setPosition_setPosition _ _ _ := rfl

section Reordering
open Positioned
variable {E : Type*} [Positioned E]
variable {entities : List E} {a b p : ℤ}

attribute [simp] position_setPosition setPosition_position setPosition_setPosition

def sortByPosition (entities : List E) : List E :=
  entities.insertionSort fun e e' => position e ≤ position e'

def renumberPositions (entities : List E) : Bool × List E :=
  let sorted := sortByPosition entities
  (sorted.zipIdx.any fun (e, expected) => position e ≠ (expected : ℤ),
    sorted.zipIdx.map fun (e, expected) => setPosition expected e)

/-- An item moves from one position to another; the answer is whether it does. -/
def reorderPositions (entities : List E) (fromPosition toPosition : ℤ) : Bool × List E :=
  let count : ℤ := entities.length
  if fromPosition = toPosition then (false, entities)
  else if fromPosition < 0 ∨ count ≤ fromPosition ∨ toPosition < 0 ∨ count ≤ toPosition then
    (false, entities)
  else if fromPosition < toPosition then
    (true, (sortByPosition entities).map fun e =>
      if position e = fromPosition then setPosition toPosition e
      else if fromPosition < position e ∧ position e ≤ toPosition then
        setPosition (position e - 1) e
      else e)
  else
    (true, (sortByPosition entities).map fun e =>
      if position e = fromPosition then setPosition toPosition e
      else if toPosition ≤ position e ∧ position e < fromPosition then
        setPosition (position e + 1) e
      else e)

def InPlace (entities : List E) : Prop :=
  (entities.map position).Perm (listPositions entities.length)

/-- Where an item goes if another one moves from `a` to `b`. -/
def rotate (a b p : ℤ) : ℤ :=
  if p = a then b
  else if a < p ∧ p ≤ b then p - 1
  else if b ≤ p ∧ p < a then p + 1
  else p

theorem rotate_self_position (a b : ℤ) : rotate a b a = b := if_pos rfl

theorem rotate_rotate (a b p : ℤ) : rotate b a (rotate a b p) = p := by
  unfold rotate
  split_ifs <;> omega

theorem rotate_same (a p : ℤ) : rotate a a p = p := by
  unfold rotate
  split_ifs <;> omega

theorem rotate_mem_range {n : ℤ} (ha : 0 ≤ a ∧ a < n) (hb : 0 ≤ b ∧ b < n)
    (hp : 0 ≤ p ∧ p < n) : 0 ≤ rotate a b p ∧ rotate a b p < n := by
  unfold rotate
  split_ifs <;> omega

theorem rotate_lt_iff {q : ℤ} (hp : p ≠ a) (hq : q ≠ a) :
    rotate a b p < rotate a b q ↔ p < q := by
  unfold rotate
  split_ifs <;> omega

theorem sortByPosition_perm (entities : List E) : (sortByPosition entities).Perm entities :=
  perm_insertionSort _ entities

theorem reorderPositions_eq (ha : 0 ≤ a ∧ a < entities.length)
    (hb : 0 ≤ b ∧ b < entities.length) (hab : a ≠ b) : reorderPositions entities a b =
      (true, (sortByPosition entities).map fun e => setPosition (rotate a b (position e)) e) := by
  have hvalid : ¬ (a < 0 ∨ (entities.length : ℤ) ≤ a ∨ b < 0 ∨ (entities.length : ℤ) ≤ b) := by
    omega
  rw [reorderPositions, if_neg hab, if_neg hvalid]
  split_ifs with hlt
  · -- the item moves up, and those up to its place move down
    refine congrArg (Prod.mk true) (map_congr_left fun e _ => ?_)
    unfold rotate
    split_ifs
    all_goals first | rfl | omega | simp
  · refine congrArg (Prod.mk true) (map_congr_left fun e _ => ?_)
    unfold rotate
    split_ifs
    all_goals first | rfl | omega | simp

theorem map_rotate_perm {n : ℕ} (ha : 0 ≤ a ∧ a < n) (hb : 0 ≤ b ∧ b < n) :
    ((listPositions n).map (rotate a b)).Perm (listPositions n) := by
  -- the move back is an inverse
  have hinj : Function.Injective (rotate a b) := fun p q h => by
    rw [← rotate_rotate a b p, h, rotate_rotate]
  rw [perm_ext_iff_of_nodup ((nodup_listPositions n).map hinj) (nodup_listPositions n)]
  intro p
  rw [mem_map, mem_listPositions]
  constructor
  · rintro ⟨q, hq, rfl⟩
    exact rotate_mem_range ha hb (mem_listPositions.mp hq)
  · intro hp
    exact ⟨rotate b a p, mem_listPositions.mpr (rotate_mem_range hb ha hp), rotate_rotate b a p⟩

theorem InPlace.perm {entities' : List E} (hplace : InPlace entities)
    (hperm : entities'.Perm entities) : InPlace entities' := by
  unfold InPlace
  rw [hperm.length_eq]
  exact (hperm.map position).trans hplace

/-- What an item becomes if one moves from `a` to `b`. -/
def rotateItem (a b : ℤ) (e : E) : E := setPosition (rotate a b (position e)) e

theorem position_rotateItem (a b : ℤ) (e : E) :
    position (rotateItem a b e) = rotate a b (position e) := position_setPosition _ e

theorem rotateItem_rotateItem (a b : ℤ) (e : E) : rotateItem b a (rotateItem a b e) = e := by
  unfold rotateItem
  rw [position_setPosition, rotate_rotate, setPosition_setPosition, setPosition_position]

theorem rotateItem_same (a : ℤ) (e : E) : rotateItem a a e = e := by
  unfold rotateItem
  rw [rotate_same, setPosition_position]

theorem reorderPositions_perm (ha : 0 ≤ a ∧ a < entities.length)
    (hb : 0 ≤ b ∧ b < entities.length) :
    (reorderPositions entities a b).2.Perm (entities.map (rotateItem a b)) := by
  by_cases hab : a = b
  · subst hab
    rw [map_congr_left fun e _ => rotateItem_same a e, map_id', reorderPositions, if_pos rfl]
  · rw [reorderPositions_eq ha hb hab]
    exact (sortByPosition_perm entities).map _

theorem InPlace.reorderPositions (hplace : InPlace entities)
    (ha : 0 ≤ a ∧ a < entities.length) (hb : 0 ≤ b ∧ b < entities.length) :
    InPlace (Scanopy.reorderPositions entities a b).2 := by
  refine InPlace.perm ?_ (reorderPositions_perm ha hb)
  unfold InPlace
  have hpositions : (entities.map (rotateItem a b)).map position =
      (entities.map position).map (rotate a b) := by
    rw [map_map, map_map]
    exact map_congr_left fun e _ => position_rotateItem a b e
  rw [length_map, hpositions]
  exact (hplace.map _).trans (map_rotate_perm ha hb)

/-- A move leaves the positions those of a list, puts one item where it is to be and keeps the order
of the others; the move back undoes it. -/
theorem reorderPositions_rotates {entities : List E} (hplace : InPlace entities) {a b : ℤ}
    (ha : 0 ≤ a ∧ a < entities.length) (hb : 0 ≤ b ∧ b < entities.length) :
    InPlace (reorderPositions entities a b).2 ∧
    (∃ go : E → E, (∀ e, ∃ p, go e = setPosition p e) ∧
      (reorderPositions entities a b).2.Perm (entities.map go) ∧
      (∀ e ∈ entities, position e = a → position (go e) = b) ∧
      ∀ e ∈ entities, ∀ f ∈ entities, position e ≠ a → position f ≠ a →
        (position (go e) < position (go f) ↔ position e < position f)) ∧
    (reorderPositions (reorderPositions entities a b).2 b a).2.Perm entities := by
  have hmoved := reorderPositions_perm ha hb
  refine ⟨hplace.reorderPositions ha hb, ⟨rotateItem a b, fun e => ⟨_, rfl⟩, hmoved, ?_, ?_⟩, ?_⟩
  · intro e _ he
    rw [position_rotateItem, he, rotate_self_position]
  · intro e _ f _ he hf
    rw [position_rotateItem, position_rotateItem, rotate_lt_iff he hf]
  · have hlen : (reorderPositions entities a b).2.length = entities.length := by
      rw [hmoved.length_eq, length_map]
    have hback := reorderPositions_perm (hlen.symm ▸ hb) (hlen.symm ▸ ha)
    refine (hback.trans (hmoved.map _)).trans (Perm.of_eq ?_)
    rw [map_map]
    exact (map_congr_left fun e _ => rotateItem_rotateItem a b e).trans (map_id entities)

end Reordering

def threeMembers : List DependencyMemberRecord :=
  [(10, 2), (11, 0), (12, 1)].map fun (id, position) =>
    ⟨id, 0, 0, none, none, { dependencyId := 1, serviceId := id, bindingId := none, position }⟩

theorem reorderPositions_threeMembers :
    InPlace (reorderPositions threeMembers 0 2).2 ∧
      (reorderPositions (reorderPositions threeMembers 0 2).2 2 0).2.Perm threeMembers := by
  have hplace : InPlace threeMembers := by
    unfold InPlace
    decide
  have hrotates := reorderPositions_rotates hplace (a := 0) (b := 2) (by decide) (by decide)
  exact ⟨hrotates.1, hrotates.2.2⟩

end Scanopy
