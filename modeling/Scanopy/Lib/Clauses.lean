import Mathlib.Data.List.Basic
import Mathlib.Data.Nat.Init

/-! Boolean clauses as text. What a row of tokens says is read with OR binding weaker than AND, AND
weaker than NOT, and parentheses, in a logic with unknowns. -/

namespace Clauses

open List Nat

/-- True, false, or unknown. -/
abbrev Truth := Option Bool

namespace Truth

def and : Truth → Truth → Truth
  | some false, _ | _, some false => some false
  | some true, some true => some true
  | _, _ => none

def or : Truth → Truth → Truth
  | some true, _ | _, some true => some true
  | some false, some false => some false
  | _, _ => none

def not (t : Truth) : Truth := t.map (!·)

def all (ts : List Truth) : Truth := ts.foldr and (some true)

def any (ts : List Truth) : Truth := ts.foldr or (some false)

@[simp] theorem and_eq_true {a b : Truth} : and a b = some true ↔ a = some true ∧ b = some true := by
  rcases a with _ | _ | _ <;> rcases b with _ | _ | _ <;> decide

@[simp] theorem or_eq_true {a b : Truth} : or a b = some true ↔ a = some true ∨ b = some true := by
  rcases a with _ | _ | _ <;> rcases b with _ | _ | _ <;> decide

@[simp] theorem or_eq_false {a b : Truth} :
    or a b = some false ↔ a = some false ∧ b = some false := by
  rcases a with _ | _ | _ <;> rcases b with _ | _ | _ <;> decide

@[simp] theorem not_eq_true {a : Truth} : not a = some true ↔ a = some false := by
  rcases a with _ | _ | _ <;> decide

theorem and_assoc (a b c : Truth) : and (and a b) c = and a (and b c) := by
  rcases a with _ | _ | _ <;> rcases b with _ | _ | _ <;> rcases c with _ | _ | _ <;> rfl

theorem true_and (a : Truth) : and (some true) a = a := by
  rcases a with _ | _ | _ <;> rfl

theorem and_true (a : Truth) : and a (some true) = a := by
  rcases a with _ | _ | _ <;> rfl

theorem or_false (a : Truth) : or a (some false) = a := by
  rcases a with _ | _ | _ <;> rfl

theorem all_append (ts ts' : List Truth) : all (ts ++ ts') = and (all ts) (all ts') := by
  induction ts with
  | nil => exact (true_and _).symm
  | cons t ts ih =>
    calc all (t :: ts ++ ts') = and t (all (ts ++ ts')) := rfl
      _ = and t (and (all ts) (all ts')) := by rw [ih]
      _ = and (all (t :: ts)) (all ts') := (and_assoc ..).symm

theorem all_eq_true {ts : List Truth} : all ts = some true ↔ ∀ t ∈ ts, t = some true := by
  induction ts with
  | nil => exact iff_of_true rfl fun _ h => absurd h not_mem_nil
  | cons t ts ih => rw [forall_mem_cons, ← ih]; exact and_eq_true

theorem any_eq_true {ts : List Truth} : any ts = some true ↔ ∃ t ∈ ts, t = some true := by
  induction ts with
  | nil => simp [any]
  | cons t ts ih => rw [exists_mem_cons_iff, ← ih]; exact or_eq_true

theorem any_eq_false {ts : List Truth} : any ts = some false ↔ ∀ t ∈ ts, t = some false := by
  induction ts with
  | nil => exact iff_of_true rfl fun _ h => absurd h not_mem_nil
  | cons t ts ih => rw [forall_mem_cons, ← ih]; exact or_eq_false

end Truth

inductive Token (α : Type*)
  | leaf (a : α)
  | lparen | rparen | and | or | not
  deriving DecidableEq

variable {α ρ : Type*}

namespace Token

def isParen : Token α → Bool
  | lparen | rparen => true
  | _ => false

def isRparen : Token α → Bool
  | rparen => true
  | _ => false

def isAnd : Token α → Bool
  | and => true
  | _ => false

def isOr : Token α → Bool
  | or => true
  | _ => false

def depth (d : ℕ) : Token α → ℕ
  | lparen => d + 1
  | rparen => d - 1
  | _ => d

theorem depth_of_not_isParen {t : Token α} (h : t.isParen = false) (d : ℕ) : t.depth d = d := by
  cases t with
  | lparen | rparen => exact Bool.noConfusion h
  | _ => rfl

end Token

/-- The text between the separators that stand in no parentheses. -/
def splitTop (sep : Token α → Bool) : ℕ → List (Token α) → List (List (Token α))
  | _, [] => [[]]
  | d, t :: ts =>
    if d = 0 && sep t then [] :: splitTop sep 0 ts
    else (splitTop sep (t.depth d) ts).modifyHead (t :: ·)

/-- The text up to the parenthesis that closes one left open before it, and the text after that. -/
def closing : ℕ → List (Token α) → Option (List (Token α) × List (Token α))
  | _, [] => none
  | d, t :: ts =>
    if d = 0 && t.isRparen then some ([], ts)
    else (closing (t.depth d) ts).map fun p => (t :: p.1, p.2)

/-- What stands in the parentheses, if they are around the whole text. -/
def groupInner : List (Token α) → Option (List (Token α))
  | .lparen :: ts =>
    match closing 0 ts with
    | some (inner, []) => some inner
    | _ => none
  | _ => none

/-- How the parts without connectives are read. A part can hold a shorter clause, which is read about
another row. -/
structure AtomReader (α ρ : Type*) where
  read : (ρ → List (Token α) → Truth) → ρ → List (Token α) → Truth
  read_congr : ∀ {sub sub' : ρ → List (Token α) → Truth} {r : ρ} {ts : List (Token α)},
    (∀ r' ts', ts'.length < ts.length → sub r' ts' = sub' r' ts') → read sub r ts = read sub' r ts

namespace AtomReader
variable (atoms : AtomReader α ρ)

/-- A part between connectives. -/
def factor (sub : ρ → List (Token α) → Truth) (r : ρ) : List (Token α) → Truth
  | .not :: ts => (factor sub r ts).not
  | ts =>
    match groupInner ts with
    | some inner => sub r inner
    | none => atoms.read sub r ts

/-- The reading with a bound on how deep it goes into parentheses. -/
def eval : ℕ → ρ → List (Token α) → Truth
  | 0, _, _ => none
  | n + 1, r, ts => Truth.any ((splitTop Token.isOr 0 ts).map fun part =>
      Truth.all ((splitTop Token.isAnd 0 part).map (atoms.factor (eval n) r)))

/-- What the clause says about `r`. -/
def holds (r : ρ) (ts : List (Token α)) : Truth := atoms.eval (ts.length + 1) r ts

end AtomReader

section Splitting
variable {sep : Token α → Bool}

theorem splitTop_ne_nil (d : ℕ) (ts : List (Token α)) : splitTop sep d ts ≠ [] := by
  induction ts generalizing d with
  | nil => exact cons_ne_nil _ _
  | cons t ts ih =>
    rw [splitTop]
    split
    · exact cons_ne_nil _ _
    · intro h
      obtain ⟨part, parts, hparts⟩ := exists_cons_of_ne_nil (ih (t.depth d))
      rw [hparts] at h
      exact cons_ne_nil _ _ h

theorem length_le_of_mem_splitTop {d : ℕ} {ts part : List (Token α)}
    (h : part ∈ splitTop sep d ts) : part.length ≤ ts.length := by
  induction ts generalizing d part with
  | nil => exact Nat.le_of_eq (congrArg List.length (mem_singleton.mp h))
  | cons t ts ih =>
    rw [splitTop] at h
    split at h
    · rcases mem_cons.mp h with rfl | h
      · exact Nat.zero_le _
      · exact le_succ_of_le (ih h)
    · cases hparts : splitTop sep (t.depth d) ts with
      | nil => exact absurd hparts (splitTop_ne_nil _ _)
      | cons first parts =>
        rw [hparts, modifyHead_cons] at h
        rcases mem_cons.mp h with rfl | h
        · exact succ_le_succ (ih (hparts ▸ mem_cons_self))
        · exact le_succ_of_le (ih (hparts ▸ mem_cons_of_mem _ h))

theorem length_lt_of_closing {d : ℕ} {ts : List (Token α)} {p : List (Token α) × List (Token α)}
    (h : closing d ts = some p) : p.1.length < ts.length := by
  induction ts generalizing d p with
  | nil => exact nomatch h
  | cons t ts ih =>
    rw [closing] at h
    split at h
    · cases h
      exact succ_pos _
    · obtain ⟨q, hq, rfl⟩ := Option.map_eq_some_iff.mp h
      exact succ_lt_succ (ih hq)

theorem length_lt_of_groupInner {ts inner : List (Token α)} (h : groupInner ts = some inner) :
    inner.length < ts.length := by
  cases ts with
  | nil => exact nomatch h
  | cons t ts =>
    cases t with
    | lparen =>
      rw [groupInner] at h
      split at h
      · cases h
        exact lt_succ_of_lt (length_lt_of_closing ‹_›)
      · exact nomatch h
    | _ => exact nomatch h

end Splitting

/-- Parentheses are closed in the order they are opened, and outside of them all tokens are
allowed ones. -/
inductive Balanced : (Token α → Prop) → List (Token α) → Prop
  | nil {p : Token α → Prop} : Balanced p []
  | cons {p : Token α → Prop} {t : Token α} {ts : List (Token α)} (allowed : p t)
      (notParen : t.isParen = false) (rest : Balanced p ts) : Balanced p (t :: ts)
  | group {p : Token α → Prop} {inner ts : List (Token α)} (inside : Balanced (fun _ => True) inner)
      (rest : Balanced p ts) : Balanced p (.lparen :: inner ++ .rparen :: ts)

/-- A clause without an OR outside of parentheses. -/
abbrev Conjunctive : List (Token α) → Prop := Balanced fun t => t.isOr = false

/-- A clause without a connective outside of parentheses but NOT. -/
abbrev Atomic : List (Token α) → Prop := Balanced fun t => t.isOr = false ∧ t.isAnd = false

namespace Balanced
variable {p q : Token α → Prop} {ts ts' rest : List (Token α)} {sep : Token α → Bool}

theorem mono (hpq : ∀ t, p t → q t) (h : Balanced p ts) : Balanced q ts := by
  induction h with
  | nil => exact .nil
  | cons allowed notParen _ ih => exact .cons (hpq _ allowed) notParen (ih hpq)
  | group inside _ _ ih => exact .group inside (ih hpq)

theorem append (h : Balanced p ts) (h' : Balanced p ts') : Balanced p (ts ++ ts') := by
  induction h with
  | nil => exact h'
  | cons allowed notParen _ ih => exact .cons allowed notParen (ih h')
  | group inside _ _ ih =>
    rw [append_assoc, cons_append]
    exact .group inside (ih h')

/-- Balanced text stays in the part that it stands in, unless it has a separator of its own. -/
theorem splitTop_append (rest : List (Token α)) (hparen : ∀ t, t.isParen = true → sep t = false)
    (h : Balanced p ts) (d : ℕ) (hsep : d = 0 → ∀ t, p t → sep t = false) :
    splitTop sep d (ts ++ rest) = (splitTop sep d rest).modifyHead (ts ++ ·) := by
  induction h generalizing d rest with
  | nil => exact (congrFun modifyHead_id _).symm
  | @cons p t ts allowed notParen _ ih =>
    have hnot : (d = 0 && sep t) = false := by
      by_cases hd : d = 0
      · rw [hsep hd t allowed, Bool.and_false]
      · simp [hd]
    rw [cons_append, splitTop, hnot, if_neg Bool.false_ne_true,
      Token.depth_of_not_isParen notParen, ih rest d hsep, modifyHead_modifyHead]
    rfl
  | @group p inner ts _ _ ihinner ih =>
    have hinner := ihinner (.rparen :: (ts ++ rest)) (d + 1) fun h => absurd h d.succ_ne_zero
    have hopen : (d = 0 && sep .lparen) = false := by rw [hparen _ rfl, Bool.and_false]
    have hclose : (d + 1 = 0 && sep .rparen) = false := by rw [hparen _ rfl, Bool.and_false]
    rw [show .lparen :: inner ++ .rparen :: ts ++ rest =
        .lparen :: (inner ++ .rparen :: (ts ++ rest)) by simp, splitTop, hopen,
      if_neg Bool.false_ne_true, Token.depth, hinner, splitTop, hclose, if_neg Bool.false_ne_true,
      Token.depth, Nat.add_sub_cancel, ih rest d hsep]
    simp only [modifyHead_modifyHead]
    congr 1
    funext part
    simp

theorem splitTop_eq_singleton (hparen : ∀ t, t.isParen = true → sep t = false) (h : Balanced p ts)
    (hsep : ∀ t, p t → sep t = false) : splitTop sep 0 ts = [ts] := by
  have happend := splitTop_append [] hparen h 0 fun _ => hsep
  rwa [append_nil, splitTop, modifyHead_cons, append_nil] at happend

theorem splitTop_append_cons (hparen : ∀ t, t.isParen = true → sep t = false) (h : Balanced p ts)
    {t : Token α} (ht : sep t = true) :
    splitTop sep 0 (ts ++ t :: rest) = splitTop sep 0 ts ++ splitTop sep 0 rest := by
  induction h with
  | nil => simp [splitTop, ht]
  | @cons p t' ts _ notParen _ ih =>
    rw [cons_append, splitTop, splitTop, Token.depth_of_not_isParen notParen, ih]
    split
    · rfl
    · obtain ⟨part, parts, hparts⟩ := exists_cons_of_ne_nil (splitTop_ne_nil 0 ts)
      rw [hparts, cons_append, modifyHead_cons, modifyHead_cons, cons_append]
  | @group p inner ts inside _ _ ih =>
    have hgroup : Balanced (fun t => sep t = false) (.lparen :: inner ++ [.rparen]) :=
      .group inside .nil
    have hsplit (rest : List (Token α)) := splitTop_append rest hparen hgroup 0
      fun _ _ => id
    have hassoc : .lparen :: inner ++ .rparen :: ts = .lparen :: inner ++ [.rparen] ++ ts := by simp
    rw [hassoc, append_assoc _ ts, hsplit, hsplit, ih]
    obtain ⟨part, parts, hparts⟩ := exists_cons_of_ne_nil (splitTop_ne_nil 0 ts)
    rw [hparts]
    rfl

theorem closing_append (h : Balanced p ts) (d : ℕ) :
    closing d (ts ++ rest) = (closing d rest).map fun q => (ts ++ q.1, q.2) := by
  induction h generalizing d rest with
  | nil => simp
  | @cons p t ts _ notParen _ ih =>
    have hnot : (d = 0 && t.isRparen) = false := by
      cases t with
      | lparen | rparen => exact Bool.noConfusion notParen
      | _ => exact Bool.and_false _
    rw [cons_append, closing, hnot, if_neg Bool.false_ne_true,
      Token.depth_of_not_isParen notParen, ih d, Option.map_map]
    rfl
  | @group p inner ts _ _ ihinner ih =>
    have hclose : (d + 1 = 0 && (Token.rparen : Token α).isRparen) = false := by simp
    rw [show .lparen :: inner ++ .rparen :: ts ++ rest =
        .lparen :: (inner ++ .rparen :: (ts ++ rest)) by simp, closing]
    simp only [Token.isRparen, Bool.and_false, Bool.false_eq_true, if_false, Token.depth]
    rw [ihinner, closing, hclose, if_neg Bool.false_ne_true, Token.depth, Nat.add_sub_cancel, ih d,
      Option.map_map, Option.map_map, Option.map_map]
    congr 1
    funext q
    simp

theorem groupInner_group (h : Balanced p ts) :
    groupInner (.lparen :: ts ++ [.rparen]) = some ts := by
  rw [cons_append, groupInner, closing_append h 0, closing]
  simp [Token.isRparen]

end Balanced

namespace AtomReader
variable {atoms : AtomReader α ρ} {r : ρ} {ts ts' : List (Token α)}

theorem factor_congr {sub sub' : ρ → List (Token α) → Truth}
    (h : ∀ r' ts', ts'.length < ts.length → sub r' ts' = sub' r' ts') :
    atoms.factor sub r ts = atoms.factor sub' r ts := by
  induction ts with
  | nil => exact atoms.read_congr h
  | cons t ts ih =>
    have hpart : (match groupInner (t :: ts) with
        | some inner => sub r inner
        | none => atoms.read sub r (t :: ts)) = match groupInner (t :: ts) with
        | some inner => sub' r inner
        | none => atoms.read sub' r (t :: ts) := by
      cases hgroup : groupInner (t :: ts) with
      | some inner => exact h r inner (length_lt_of_groupInner hgroup)
      | none => exact atoms.read_congr h
    cases t with
    | not =>
      exact congrArg Truth.not (ih fun r' ts' hlt => h r' ts' (lt_succ_of_lt hlt))
    | _ => exact hpart

theorem eval_eq_holds {n : ℕ} (h : ts.length < n) : atoms.eval n r ts = atoms.holds r ts := by
  suffices hboth : ∀ k m, ts.length < k → ts.length < m → atoms.eval k r ts = atoms.eval m r ts from
    hboth n _ h (lt_succ_self _)
  clear h n
  induction hlength : ts.length using Nat.strong_induction_on generalizing r ts with
  | _ length ih =>
    subst hlength
    intro k m hk hm
    obtain ⟨k, rfl⟩ := exists_eq_succ_of_ne_zero (Nat.ne_zero_of_lt hk)
    obtain ⟨m, rfl⟩ := exists_eq_succ_of_ne_zero (Nat.ne_zero_of_lt hm)
    rw [eval, eval]
    refine congrArg Truth.any (map_congr_left fun part hpart => congrArg Truth.all
      (map_congr_left fun factor hfactor => factor_congr fun r' ts' hlt => ?_))
    have hle := Nat.le_trans (length_le_of_mem_splitTop hfactor) (length_le_of_mem_splitTop hpart)
    exact ih ts'.length (by omega) rfl k m (by omega) (by omega)

theorem holds_eq (ts : List (Token α)) : atoms.holds r ts = Truth.any ((splitTop Token.isOr 0 ts).map fun part =>
    Truth.all ((splitTop Token.isAnd 0 part).map (atoms.factor atoms.holds r))) := by
  rw [holds, eval]
  refine congrArg Truth.any (map_congr_left fun part hpart => congrArg Truth.all
    (map_congr_left fun factor hfactor => factor_congr fun r' ts' hlt => eval_eq_holds ?_))
  have hle := Nat.le_trans (length_le_of_mem_splitTop hfactor) (length_le_of_mem_splitTop hpart)
  exact Nat.lt_of_lt_of_le hlt hle

private theorem isOr_of_isParen (t : Token α) (h : t.isParen = true) : t.isOr = false := by
  cases t with
  | lparen | rparen => rfl
  | _ => exact Bool.noConfusion h

private theorem isAnd_of_isParen (t : Token α) (h : t.isParen = true) : t.isAnd = false := by
  cases t with
  | lparen | rparen => rfl
  | _ => exact Bool.noConfusion h

theorem holds_of_conjunctive (h : Conjunctive ts) : atoms.holds r ts =
    Truth.all ((splitTop Token.isAnd 0 ts).map (atoms.factor atoms.holds r)) := by
  rw [holds_eq, h.splitTop_eq_singleton isOr_of_isParen fun _ => id]
  exact Truth.or_false _

theorem holds_of_atomic (h : Atomic ts) : atoms.holds r ts = atoms.factor atoms.holds r ts := by
  rw [holds_of_conjunctive (h.mono fun _ => And.left),
    h.splitTop_eq_singleton isAnd_of_isParen fun _ => And.right]
  exact Truth.and_true _

theorem holds_or (h : Conjunctive ts) :
    atoms.holds r (ts ++ .or :: ts') = Truth.or (atoms.holds r ts) (atoms.holds r ts') := by
  rw [holds_eq (ts ++ _), h.splitTop_append_cons isOr_of_isParen rfl,
    h.splitTop_eq_singleton isOr_of_isParen fun _ => id, holds_of_conjunctive h, holds_eq ts']
  rfl

theorem holds_and (h : Conjunctive ts) (h' : Conjunctive ts') :
    atoms.holds r (ts ++ .and :: ts') = Truth.and (atoms.holds r ts) (atoms.holds r ts') := by
  have hand : Conjunctive (ts ++ .and :: ts') := h.append (.cons rfl rfl h')
  rw [holds_of_conjunctive hand, h.splitTop_append_cons isAnd_of_isParen rfl, map_append,
    Truth.all_append, holds_of_conjunctive h, holds_of_conjunctive h']

theorem holds_not (h : Atomic ts) : atoms.holds r (.not :: ts) = (atoms.holds r ts).not := by
  rw [holds_of_atomic (.cons ⟨rfl, rfl⟩ rfl h), holds_of_atomic h, factor]

theorem holds_group (h : Balanced (fun _ => True) ts) :
    atoms.holds r (.lparen :: ts ++ [.rparen]) = atoms.holds r ts := by
  rw [holds_of_atomic (.group h .nil), cons_append, factor.eq_def]
  simp only [← cons_append, Balanced.groupInner_group h]

theorem holds_leaf {a : α} (h : Atomic ts) :
    atoms.holds r (.leaf a :: ts) = atoms.read atoms.holds r (.leaf a :: ts) := by
  rw [holds_of_atomic (.cons ⟨rfl, rfl⟩ rfl h), factor.eq_def]
  rfl

theorem conjunctive_intercalate {conditions : List (List (Token α))}
    (h : ∀ c ∈ conditions, Conjunctive c) : Conjunctive ([.and].intercalate conditions) := by
  induction conditions with
  | nil => exact .nil
  | cons c conditions ih =>
    obtain ⟨hc, hconditions⟩ := forall_mem_cons.mp h
    by_cases hnil : conditions = []
    · rwa [hnil, intercalate_singleton]
    · rw [intercalate_cons_of_ne_nil hnil, append_assoc, singleton_append]
      exact hc.append (.cons rfl rfl (ih hconditions))

theorem holds_intercalate {conditions : List (List (Token α))} (hne : conditions ≠ [])
    (h : ∀ c ∈ conditions, Conjunctive c) :
    atoms.holds r ([.and].intercalate conditions) = Truth.all (conditions.map (atoms.holds r)) := by
  induction conditions with
  | nil => exact absurd rfl hne
  | cons c conditions ih =>
    obtain ⟨hc, hconditions⟩ := forall_mem_cons.mp h
    by_cases hnil : conditions = []
    · rw [hnil, intercalate_singleton]
      exact (Truth.and_true _).symm
    · rw [intercalate_cons_of_ne_nil hnil, append_assoc, singleton_append,
        holds_and hc (conjunctive_intercalate hconditions), ih hnil hconditions]
      rfl

end AtomReader

end Clauses
