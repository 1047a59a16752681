import Mathlib.Data.List.Infix
import Mathlib.Data.Set.Operations

/-! JSON values and their texts. The text of a value says where it ends: two values with the same text
are the same, and so are the values of two lists that are joined by a separator. -/

namespace Json

open List

def isNumberChar (c : Char) : Bool := c ∈ "+-.0123456789eE".toList

structure Number where
  chars : List Char
  ne_nil : chars ≠ []
  isNumber : ∀ c ∈ chars, isNumberChar c

mutual

inductive Value where
  | null
  | bool (b : Bool)
  | num (n : Number)
  | str (s : List Char)
  | arr (items : Items)
  | obj (members : Members)

inductive Items where
  | nil
  | cons (v : Value) (rest : Items)

inductive Members where
  | nil
  | cons (key : List Char) (v : Value) (rest : Members)

end

def control : ℕ → List Char
  | 8 => ['\\', 'b']
  | 9 => ['\\', 't']
  | 10 => ['\\', 'n']
  | 12 => ['\\', 'f']
  | 13 => ['\\', 'r']
  | n => ['\\', 'u', '0', '0', Nat.digitChar (n / 16), Nat.digitChar (n % 16)]

def escapeChar (c : Char) : List Char :=
  if c = '"' ∨ c = '\\' then ['\\', c] else if c.toNat < 32 then control c.toNat else [c]

def quote (s : List Char) : List Char := '"' :: (s.flatMap escapeChar ++ ['"'])

def comma (first : Bool) : List Char := if first then [] else [',']

mutual

def Value.stringify : Value → List Char
  | .null => "null".toList
  | .bool b => if b then "true".toList else "false".toList
  | .num n => n.chars
  | .str s => quote s
  | .arr items => '[' :: items.stringify true
  | .obj members => '\x7b' :: members.stringify true

def Items.stringify : Items → Bool → List Char
  | .nil, _ => [']']
  | .cons v rest, first => comma first ++ (v.stringify ++ rest.stringify false)

def Members.stringify : Members → Bool → List Char
  | .nil, _ => ['\x7d']
  | .cons k v rest, first => comma first ++ (quote k ++ ':' :: (v.stringify ++ rest.stringify false))

end

section Escapes

def escaped : List Char := '"' :: '\\' :: (List.range 32).map Char.ofNat

theorem escapeChar_of_notMem {c : Char} (hc : c ∉ escaped) : escapeChar c = [c] ∧ c ≠ '\\' ∧ c ≠ '"' := by
  have hquote : c ≠ '"' := fun h => hc (h ▸ mem_cons_self)
  have hslash : c ≠ '\\' := fun h => hc (h ▸ mem_cons_of_mem _ mem_cons_self)
  have hlarge : ¬ c.toNat < 32 := by
    intro h
    refine hc (mem_cons_of_mem _ (mem_cons_of_mem _ ?_))
    exact mem_map.mpr ⟨c.toNat, mem_range.mpr h, Char.ofNat_toNat c⟩
  refine ⟨?_, hslash, hquote⟩
  unfold escapeChar
  rw [if_neg (not_or.mpr ⟨hquote, hslash⟩), if_neg hlarge]

theorem escapeChar_of_mem {c : Char} (hc : c ∈ escaped) : ∃ l, escapeChar c = '\\' :: l := by
  have h : (escaped.all fun c => (escapeChar c).head? == some '\\') = true := by decide +kernel
  exact head?_eq_some_iff.mp (beq_iff_eq.mp (all_eq_true.mp h c hc))

/-- No form of a character begins the form of another one. -/
theorem escapeChar_prefix_inj {c d : Char} (h : escapeChar c <+: escapeChar d) : c = d := by
  by_cases hc : c ∈ escaped <;> by_cases hd : d ∈ escaped
  · have htable : (escaped.all fun c => escaped.all fun d =>
        c == d || !(escapeChar c).isPrefixOf (escapeChar d)) = true := by
      decide +kernel
    have hpair := all_eq_true.mp (all_eq_true.mp htable c hc) d hd
    simpa [List.isPrefixOf_iff_prefix.mpr h] using hpair
  · obtain ⟨l, hl⟩ := escapeChar_of_mem hc
    obtain ⟨hself, hslash, -⟩ := escapeChar_of_notMem hd
    rw [hl, hself] at h
    exact absurd (cons_prefix_cons.mp h).1.symm hslash
  · obtain ⟨l, hl⟩ := escapeChar_of_mem hd
    obtain ⟨hself, hslash, -⟩ := escapeChar_of_notMem hc
    rw [hl, hself] at h
    exact absurd (cons_prefix_cons.mp h).1 hslash
  · rw [(escapeChar_of_notMem hc).1, (escapeChar_of_notMem hd).1] at h
    exact (cons_prefix_cons.mp h).1

theorem exists_escapeChar (c : Char) : ∃ a l, escapeChar c = a :: l ∧ a ≠ '"' := by
  by_cases hc : c ∈ escaped
  · obtain ⟨l, hl⟩ := escapeChar_of_mem hc
    exact ⟨_, l, hl, by decide⟩
  · obtain ⟨hself, -, hquote⟩ := escapeChar_of_notMem hc
    exact ⟨c, [], hself, hquote⟩

theorem quote_append_inj {s t r r' : List Char} (h : quote s ++ r = quote t ++ r') : s = t ∧ r = r' := by
  simp only [quote, List.cons_append, List.append_assoc, List.nil_append, List.cons.injEq, true_and] at h
  induction s generalizing t with
  | nil =>
    cases t with
    | nil => exact ⟨rfl, (List.cons.inj h).2⟩
    | cons d t =>
      obtain ⟨a, l, hl, hne⟩ := exists_escapeChar d
      rw [List.flatMap_cons, hl] at h
      exact absurd (List.cons.inj h).1.symm hne
  | cons c s ih =>
    cases t with
    | nil =>
      obtain ⟨a, l, hl, hne⟩ := exists_escapeChar c
      rw [List.flatMap_cons, hl] at h
      exact absurd (List.cons.inj h).1 hne
    | cons d t =>
      rw [List.flatMap_cons, List.flatMap_cons, List.append_assoc, List.append_assoc] at h
      have heq : c = d := by
        rcases List.prefix_or_prefix_of_prefix (h ▸ List.prefix_append _ _) (List.prefix_append _ _)
          with hpre | hpre
        · exact escapeChar_prefix_inj hpre
        · exact (escapeChar_prefix_inj hpre).symm
      subst heq
      obtain ⟨rfl, hr⟩ := ih (List.append_cancel_left h)
      exact ⟨rfl, hr⟩

end Escapes

section Values

def kindOf (c : Char) : ℕ :=
  if isNumberChar c then 2
  else if c = 'n' then 0 else if c = 't' ∨ c = 'f' then 1 else if c = '"' then 3
  else if c = '[' then 4 else if c = '\x7b' then 5 else 6

def Value.kind : Value → ℕ
  | .null => 0
  | .bool _ => 1
  | .num _ => 2
  | .str _ => 3
  | .arr _ => 4
  | .obj _ => 5

theorem exists_stringify (v : Value) : ∃ a l, v.stringify = a :: l ∧ kindOf a = v.kind := by
  cases v with
  | null => exact ⟨_, _, rfl, by decide⟩
  | bool b => cases b <;> exact ⟨_, _, rfl, by decide⟩
  | num n =>
    obtain ⟨a, l, hl⟩ := exists_cons_of_ne_nil n.ne_nil
    exact ⟨a, l, hl, if_pos (n.isNumber a (hl ▸ mem_cons_self))⟩
  | str s => exact ⟨_, _, rfl, (by decide : kindOf '"' = 3)⟩
  | arr items => exact ⟨_, _, rfl, (by decide : kindOf '[' = 4)⟩
  | obj members => exact ⟨_, _, rfl, (by decide : kindOf '\x7b' = 5)⟩

theorem kind_eq {v w : Value} {r r' : List Char} (h : v.stringify ++ r = w.stringify ++ r') :
    v.kind = w.kind := by
  obtain ⟨a, l, hl, ha⟩ := exists_stringify v
  obtain ⟨b, m, hm, hb⟩ := exists_stringify w
  rw [hl, hm] at h
  rw [← ha, ← hb, (cons.inj h).1]

theorem stringify_ne_cons {v : Value} {r r' : List Char} {c : Char} (hc : kindOf c = 6) :
    v.stringify ++ r ≠ c :: r' := by
  intro h
  obtain ⟨a, l, hl, ha⟩ := exists_stringify v
  rw [hl] at h
  rw [(cons.inj h).1, hc] at ha
  cases v <;> simp [Value.kind] at ha

/-- The text goes on with something that is not part of a number. -/
def Delimited (r : List Char) : Prop := ∀ c ∈ r.head?, isNumberChar c = false

theorem Number.append_inj {n m : Number} {r r' : List Char} (h : n.chars ++ r = m.chars ++ r')
    (hr : Delimited r) (hr' : Delimited r') : n = m ∧ r = r' := by
  have htake : ∀ (n : Number) (r : List Char), Delimited r →
      (n.chars ++ r).takeWhile isNumberChar = n.chars := by
    intro n r hr
    rw [takeWhile_append_of_pos n.isNumber]
    cases r with
    | nil => exact append_nil _
    | cons c r => rw [takeWhile_cons_of_neg (by simp [hr c rfl]), append_nil]
  have hchars : n.chars = m.chars := by rw [← htake n r hr, h, htake m r' hr']
  rw [hchars] at h
  obtain ⟨chars, _, _⟩ := n
  obtain ⟨chars', _, _⟩ := m
  obtain rfl : chars = chars' := hchars
  exact ⟨rfl, append_cancel_left h⟩

theorem delimited_items (items : Items) (r : List Char) : Delimited (items.stringify false ++ r) := by
  cases items <;> intro c hc <;> obtain rfl := Option.some.inj hc <;> decide

theorem delimited_members (members : Members) (r : List Char) :
    Delimited (members.stringify false ++ r) := by
  cases members <;> intro c hc <;> obtain rfl := Option.some.inj hc <;> decide

mutual

theorem Value.stringify_append_inj : ∀ (v w : Value) {r r' : List Char},
    v.stringify ++ r = w.stringify ++ r' → Delimited r → Delimited r' → v = w ∧ r = r'
  | v, w, r, r', h, hr, hr' => by
    have hkind := kind_eq h
    match v, w with
    | .null, .null => exact ⟨rfl, append_cancel_left h⟩
    | .bool b, .bool b' => cases b <;> cases b' <;> simp_all [Value.stringify]
    | .num n, .num m =>
      obtain ⟨rfl, hrest⟩ := Number.append_inj h hr hr'
      exact ⟨rfl, hrest⟩
    | .str s, .str t =>
      obtain ⟨rfl, hrest⟩ := quote_append_inj h
      exact ⟨rfl, hrest⟩
    | .arr items, .arr items' =>
      obtain ⟨rfl, hrest⟩ := items.stringify_append_inj items' true (cons.inj h).2
      exact ⟨rfl, hrest⟩
    | .obj members, .obj members' =>
      obtain ⟨rfl, hrest⟩ := members.stringify_append_inj members' true (cons.inj h).2
      exact ⟨rfl, hrest⟩

theorem Items.stringify_append_inj : ∀ (l m : Items) (first : Bool) {r r' : List Char},
    l.stringify first ++ r = m.stringify first ++ r' → l = m ∧ r = r'
  | .nil, .nil, _, _, _, h => ⟨rfl, (List.cons.inj h).2⟩
  | .nil, .cons w m, first, _, _, h => by
    simp only [Items.stringify, List.append_assoc] at h
    cases first with
    | true => exact absurd h.symm (stringify_ne_cons (by decide))
    | false => exact absurd (List.cons.inj h).1 (by decide)
  | .cons v l, .nil, first, _, _, h => by
    simp only [Items.stringify, List.append_assoc] at h
    cases first with
    | true => exact absurd h (stringify_ne_cons (by decide))
    | false => exact absurd (List.cons.inj h).1 (by decide)
  | .cons v l, .cons w m, first, _, _, h => by
    simp only [Items.stringify, List.append_assoc] at h
    obtain ⟨rfl, hitems⟩ := v.stringify_append_inj w (append_cancel_left h)
      (delimited_items l _) (delimited_items m _)
    obtain ⟨rfl, hrest⟩ := l.stringify_append_inj m false hitems
    exact ⟨rfl, hrest⟩

theorem Members.stringify_append_inj : ∀ (l m : Members) (first : Bool) {r r' : List Char},
    l.stringify first ++ r = m.stringify first ++ r' → l = m ∧ r = r'
  | .nil, .nil, _, _, _, h => ⟨rfl, (List.cons.inj h).2⟩
  | .nil, .cons k w m, first, _, _, h => by
    cases first <;> exact absurd (List.cons.inj h).1 (by decide)
  | .cons k v l, .nil, first, _, _, h => by
    cases first <;> exact absurd (List.cons.inj h).1 (by decide)
  | .cons k v l, .cons k' w m, first, _, _, h => by
    simp only [Members.stringify, List.append_assoc, List.cons_append] at h
    obtain ⟨rfl, hvalue⟩ := quote_append_inj (append_cancel_left h)
    obtain ⟨rfl, hmembers⟩ := v.stringify_append_inj w (cons.inj hvalue).2
      (delimited_members l _) (delimited_members m _)
    obtain ⟨rfl, hrest⟩ := l.stringify_append_inj m false hmembers
    exact ⟨rfl, hrest⟩

end

theorem stringify_injective : Function.Injective Value.stringify := by
  intro v w h
  exact (@Value.stringify_append_inj v w [] [] (by rw [h]) nofun nofun).1

def joined (l : List (List Char)) : List Char := l.flatMap (';' :: ·)

theorem intercalate_cons (t : List Char) (l : List (List Char)) :
    List.intercalate [';'] (t :: l) = t ++ joined l := by
  induction l generalizing t with
  | nil => exact (intercalate_singleton).trans (append_nil _).symm
  | cons u l ih =>
    rw [intercalate_cons_cons, ih, append_assoc]
    rfl

theorem delimited_joined (l : List (List Char)) : Delimited (joined l) := by
  cases l with
  | nil => exact nofun
  | cons t l =>
    intro c hc
    obtain rfl := Option.some.inj hc
    decide

theorem joined_injective {l m : List (List Char)} (hl : ∀ t ∈ l, t ∈ Set.range Value.stringify)
    (hm : ∀ t ∈ m, t ∈ Set.range Value.stringify) (h : joined l = joined m) : l = m := by
  induction l generalizing m with
  | nil =>
    cases m with
    | nil => rfl
    | cons u m => exact absurd h nofun
  | cons t l ih =>
    cases m with
    | nil => exact absurd h nofun
    | cons u m =>
      obtain ⟨⟨v, rfl⟩, hl'⟩ := forall_mem_cons.mp hl
      obtain ⟨⟨w, rfl⟩, hm'⟩ := forall_mem_cons.mp hm
      have htexts : v.stringify ++ joined l = w.stringify ++ joined m := (cons.inj h).2
      obtain ⟨rfl, hrest⟩ :=
        v.stringify_append_inj w htexts (delimited_joined l) (delimited_joined m)
      rw [ih hl' hm' hrest]

theorem intercalate_ne_nil {t : List Char} {l : List (List Char)} (ht : t ∈ Set.range Value.stringify) :
    List.intercalate [';'] (t :: l) ≠ [] := by
  obtain ⟨v, rfl⟩ := ht
  obtain ⟨a, t, ht, -⟩ := exists_stringify v
  rw [intercalate_cons, ht]
  exact nofun

theorem intercalate_injective {l m : List (List Char)}
    (hl : ∀ t ∈ l, t ∈ Set.range Value.stringify) (hm : ∀ t ∈ m, t ∈ Set.range Value.stringify)
    (h : List.intercalate [';'] l = List.intercalate [';'] m) : l = m := by
  cases l with
  | nil =>
    cases m with
    | nil => rfl
    | cons u m => exact absurd h.symm (intercalate_ne_nil (hm u mem_cons_self))
  | cons t l =>
    cases m with
    | nil => exact absurd h (intercalate_ne_nil (hl t mem_cons_self))
    | cons u m =>
      rw [intercalate_cons, intercalate_cons] at h
      exact joined_injective hl hm (congrArg (';' :: ·) h)

end Values

end Json
