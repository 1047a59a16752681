import Mathlib.Algebra.Order.Ring.Star
import Mathlib.Data.Rat.Star
import Mathlib.Tactic.Linarith
import Scanopy.Viewer.LayoutGraph

/-! What a reflow keeps. An open container stays tall enough for its children, no two of which
overlap in a column, and the order from the top never changes. -/

namespace Scanopy

open List Option Function

namespace LayoutShape
variable (s : LayoutShape)

structure KeepsOrder (before after : String → LayoutPoint) : Prop where
  column : ∀ k, (after k).x = (before k).x
  order : ∀ c ∈ s.containers, ∀ a ∈ s.allChildren c, ∀ b ∈ s.allChildren c,
    (before a).x = (before b).x → (before a).y < (before b).y → (after a).y < (after b).y

section Layouts
variable (st : LayoutState)

/-- `a` is above `b`; what changes its size may reach into `b`. -/
def AboveBut (changed : Option String) (a b : String) : Prop :=
  (st.position a).y < (st.position b).y ∧
    (changed = some a ∨ (st.position a).y + s.height st a ≤ (st.position b).y)

def ApartBut (changed : Option String) (c : String) : Prop :=
  ∀ a ∈ s.allChildren c, ∀ b ∈ s.allChildren c, a ≠ b → (st.position a).x = (st.position b).x →
    s.AboveBut st changed a b ∨ s.AboveBut st changed b a

def Apart (c : String) : Prop := s.ApartBut st none c

structure Sound (c : String) : Prop where
  apart : s.Apart st c
  tall : ∀ k ∈ s.allChildren c, (st.position k).y + s.height st k ≤ (st.expandedSize c).height

def Laid : Prop := ∀ c ∈ s.containers, st.collapsed c = false → s.Sound st c

end Layouts

section Children
variable {s} {c d k : String}

theorem nodup_allChildren (c : String) : (s.allChildren c).Nodup :=
  s.nodup.sublist (filter_sublist.append filter_sublist)

theorem not_both (hk : k ∈ s.containers) : k ∉ s.elements :=
  fun h => (nodup_append.mp s.nodup).2.2 k hk k h rfl

theorem mem_allChildren : k ∈ s.allChildren c ↔
    (k ∈ s.containers ∧ s.parent k = some c) ∨ (k ∈ s.elements ∧ s.container k = some c) := by
  simp [allChildren, childContainers]

theorem eq_of_mem_allChildren (hc : k ∈ s.allChildren c) (hd : k ∈ s.allChildren d) : c = d := by
  rcases mem_allChildren.mp hc with ⟨hk, hparent⟩ | ⟨hk, hcontainer⟩
  · rcases mem_allChildren.mp hd with ⟨-, hparent'⟩ | ⟨hk', -⟩
    · exact some.inj (hparent.symm.trans hparent')
    · exact absurd hk' (not_both hk)
  · rcases mem_allChildren.mp hd with ⟨hk', -⟩ | ⟨-, hcontainer'⟩
    · exact absurd hk (not_both hk')
    · exact some.inj (hcontainer.symm.trans hcontainer')

theorem parent_of_mem_allChildren (hk : k ∈ s.containers) (h : k ∈ s.allChildren c) :
    s.parent k = some c := by
  rcases mem_allChildren.mp h with ⟨-, hparent⟩ | ⟨hk', -⟩
  · exact hparent
  · exact absurd hk' (not_both hk)

theorem parent_ne_self (h : s.parent c = some d) : d ≠ c := by
  rintro rfl
  exact lt_irrefl _ (s.depth_parent _ _ h)

theorem self_not_mem_allChildren (hc : c ∈ s.containers) : c ∉ s.allChildren c :=
  fun h => parent_ne_self (parent_of_mem_allChildren hc h) rfl

end Children

section Stacking
variable {s} {st : LayoutState} {c : String} {changed : Option String}
variable {l : List String} {k : String}

/-- An entry of a column lies above another one, and did so before. -/
def Placed (s : LayoutShape) (st : LayoutState) (e f : String × ℚ) : Prop :=
  (st.position e.1).y ≤ (st.position f.1).y ∧ e.2 < f.2 ∧ e.2 + s.height st e.1 ≤ f.2

theorem height_nonneg (s : LayoutShape) (st : LayoutState) (k : String) : 0 ≤ s.height st k := by
  unfold height
  split_ifs
  · exact LayoutSize.height_nonneg _
  · exact LayoutSize.height_nonneg _

theorem stack_spec (hl : l.Pairwise fun a b => (st.position a).y ≤ (st.position b).y)
    (y : ℚ) : (s.stack st y l).map Prod.fst = l ∧ (∀ e ∈ s.stack st y l, y ≤ e.2) ∧
      (s.stack st y l).Pairwise (Placed s st) := by
  induction l generalizing y with
  | nil => exact ⟨rfl, nofun, .nil⟩
  | cons k ks ih =>
    obtain ⟨hk, hks⟩ := pairwise_cons.mp hl
    obtain ⟨hids, hbelow, hplaced⟩ := ih hks (y + s.height st k + childSpacing)
    have hheight := s.height_nonneg st k
    have hnext : ∀ e ∈ s.stack st (y + s.height st k + childSpacing) ks, y + s.height st k + 30 ≤ e.2 :=
      hbelow
    refine ⟨congrArg (k :: ·) hids, forall_mem_cons.mpr ⟨le_rfl, fun e he => ?_⟩,
      pairwise_cons.mpr ⟨fun e he => ⟨hk _ ?_, ?_, ?_⟩, hplaced⟩⟩
    · linarith [hnext e he]
    · rw [← hids]
      exact List.mem_map_of_mem he
    · show y < e.2
      linarith [hnext e he]
    · show y + s.height st k ≤ e.2
      linarith [hnext e he]

theorem stackBelow_spec {id : String} (hl : l.Pairwise (s.AboveBut st (some id))) :
    (s.stackBelow st id l).map Prod.fst = l ∧
      (∀ e ∈ s.stackBelow st id l, ∃ k ∈ l, (st.position k).y ≤ e.2) ∧
        (s.stackBelow st id l).Pairwise (Placed s st) := by
  induction l with
  | nil => exact ⟨rfl, nofun, .nil⟩
  | cons k ks ih =>
    obtain ⟨hk, hks⟩ := pairwise_cons.mp hl
    have hheight := s.height_nonneg st k
    unfold stackBelow
    by_cases heq : k = id
    · have hsorted : ks.Pairwise fun a b => (st.position a).y ≤ (st.position b).y :=
        hks.imp fun h => h.1.le
      obtain ⟨hids, hbelow, hplaced⟩ :=
        s.stack_spec hsorted ((st.position k).y + s.height st k + childSpacing)
      have hnext : ∀ e ∈ s.stack st ((st.position k).y + s.height st k + childSpacing) ks,
          (st.position k).y + s.height st k + 30 ≤ e.2 := hbelow
      simp only [if_pos heq]
      refine ⟨congrArg (k :: ·) hids, forall_mem_cons.mpr ⟨⟨k, mem_cons_self, le_rfl⟩,
        fun e he => ⟨k, mem_cons_self, ?_⟩⟩,
        pairwise_cons.mpr ⟨fun e he => ⟨(hk e.1 ?_).1.le, ?_, ?_⟩, hplaced⟩⟩
      · linarith [hnext e he]
      · rw [← hids]
        exact List.mem_map_of_mem he
      · show (st.position k).y < e.2
        linarith [hnext e he]
      · show (st.position k).y + s.height st k ≤ e.2
        linarith [hnext e he]
    · obtain ⟨hids, hbelow, hplaced⟩ := ih hks
      simp only [if_neg heq]
      refine ⟨congrArg (k :: ·) hids, forall_mem_cons.mpr ⟨⟨k, mem_cons_self, le_rfl⟩,
        fun e he => ?_⟩, pairwise_cons.mpr ⟨fun e he => ?_, hplaced⟩⟩
      · obtain ⟨j, hj, hle⟩ := hbelow e he
        exact ⟨j, mem_cons_of_mem _ hj, hle⟩
      · have hmem : e.1 ∈ ks := by
          rw [← hids]
          exact List.mem_map_of_mem he
        obtain ⟨j, hj, hle⟩ := hbelow e he
        obtain ⟨hlt, hself | hbottom⟩ := hk j hj
        · exact absurd (some.inj hself).symm heq
        · exact ⟨(hk e.1 hmem).1.le, hlt.trans_le hle, hbottom.trans hle⟩

theorem mem_column {x : ℚ} :
    k ∈ s.column st c x ↔ k ∈ s.allChildren c ∧ (st.position k).x = x := by
  simp [column, mem_insertionSort]

theorem column_sorted (s : LayoutShape) (st : LayoutState) (c : String) (x : ℚ) :
    (s.column st c x).Pairwise fun a b => (st.position a).y ≤ (st.position b).y := by
  have : Std.Total fun a b : String => (st.position a).y ≤ (st.position b).y :=
    ⟨fun _ _ => le_total _ _⟩
  have : IsTrans String fun a b => (st.position a).y ≤ (st.position b).y := ⟨fun _ _ _ => le_trans⟩
  exact pairwise_insertionSort _ _

theorem stacked_spec (happart : s.ApartBut st changed c ∨ changed = none) (x : ℚ) :
    (s.stacked st c changed x).map Prod.fst = s.column st c x ∧
      (s.stacked st c changed x).Pairwise (Placed s st) := by
  have hsorted := s.column_sorted st c x
  have hnodup : (s.column st c x).Nodup :=
    (perm_insertionSort _ _).nodup_iff.mpr ((nodup_allChildren c).filter _)
  unfold stacked
  cases hfilter : changed.filter (· ≠ "") with
  | none =>
    cases hcolumn : s.column st c x with
    | nil => exact ⟨rfl, .nil⟩
    | cons k ks =>
      rw [hcolumn] at hsorted
      obtain ⟨hids, -, hplaced⟩ := s.stack_spec hsorted (st.position k).y
      exact ⟨hids, hplaced⟩
  | some id =>
    obtain ⟨rfl, -⟩ := filter_eq_some_iff.mp hfilter
    have hbut := happart.resolve_right nofun
    have habove : (s.column st c x).Pairwise (s.AboveBut st (some id)) := by
      refine (hsorted.and hnodup).imp_of_mem fun {a b} ha hb hab => ?_
      obtain ⟨ha, hax⟩ := mem_column.mp ha
      obtain ⟨hb, hbx⟩ := mem_column.mp hb
      rcases hbut a ha b hb hab.2 (hax.trans hbx.symm) with h | h
      · exact h
      · exact absurd hab.1 (not_le.mpr h.1)
    cases hcolumn : s.column st c x with
    | nil => exact ⟨rfl, .nil⟩
    | cons k ks =>
      rw [hcolumn] at habove
      obtain ⟨hids, -, hplaced⟩ := s.stackBelow_spec habove
      exact ⟨hids, hplaced⟩

theorem newY_spec (happart : s.ApartBut st changed c ∨ changed = none)
    (hk : k ∈ s.allChildren c) :
    (k, s.newY st c changed k) ∈ s.stacked st c changed (st.position k).x := by
  obtain ⟨hids, -⟩ := s.stacked_spec happart (st.position k).x
  have hcolumn : k ∈ s.column st c (st.position k).x := mem_column.mpr ⟨hk, rfl⟩
  rw [← hids] at hcolumn
  obtain ⟨e, he, hek⟩ := List.mem_map.mp hcolumn
  obtain ⟨⟨k', y⟩, hf⟩ := isSome_iff_exists.mp
    (find?_isSome (p := fun e : String × ℚ => e.1 = k).mpr ⟨e, he, decide_eq_true hek⟩)
  obtain rfl : k' = k := by simpa using find?_some hf
  have hnew : s.newY st c changed k' = y := by
    unfold newY
    rw [hf]
    rfl
  rw [hnew]
  exact mem_of_find?_eq_some hf

theorem placed_or {a b : String} (happart : s.ApartBut st changed c ∨ changed = none)
    (ha : a ∈ s.allChildren c) (hb : b ∈ s.allChildren c) (hne : a ≠ b)
    (hx : (st.position a).x = (st.position b).x) :
    Placed s st (a, s.newY st c changed a) (b, s.newY st c changed b) ∨
      Placed s st (b, s.newY st c changed b) (a, s.newY st c changed a) := by
  have hea := newY_spec happart ha
  have heb := newY_spec happart hb
  rw [← hx] at heb
  obtain ⟨-, hplaced⟩ := s.stacked_spec happart (st.position a).x
  have : Std.Symm fun e f => Placed s st e f ∨ Placed s st f e := ⟨fun _ _ => Or.symm⟩
  have hor : (s.stacked st c changed (st.position a).x).Pairwise
      fun e f => Placed s st e f ∨ Placed s st f e := hplaced.imp Or.inl
  exact hor.forall hea heb fun h => hne (congrArg Prod.fst h)

theorem bottom_le (happart : s.ApartBut st changed c ∨ changed = none)
    (hk : k ∈ s.allChildren c) :
    s.newY st c changed k + s.height st k ≤ s.maxColumnBottom st c changed := by
  have hentry := newY_spec happart hk
  obtain ⟨-, hplaced⟩ := s.stacked_spec happart (st.position k).x
  have hcolumn : s.columnBottom st c changed (st.position k).x ≤ s.maxColumnBottom st c changed := by
    refine (le_foldr_max _).2 _ (List.mem_map_of_mem (mem_dedup.mpr ?_))
    exact List.mem_map_of_mem hk
  refine le_trans ?_ hcolumn
  unfold columnBottom
  rcases eq_nil_or_concat (s.stacked st c changed (st.position k).x) with hnil | ⟨l, e, heq⟩
  · exact absurd (hnil ▸ hentry) not_mem_nil
  · rw [concat_eq_append] at heq
    rw [heq] at hentry hplaced ⊢
    rw [getLast?_concat]
    rcases mem_append.mp hentry with hmem | hmem
    · have h := (pairwise_append.mp hplaced).2.2 _ hmem e mem_cons_self
      exact h.2.2.trans (le_add_of_nonneg_right (s.height_nonneg st e.1))
    · rw [← mem_singleton.mp hmem]
      exact le_rfl

end Stacking

section Reflows
variable {s} {st st' : LayoutState} {c d : String} {changed : Option String}
variable {k : String}

theorem Sound.congr (h : s.Sound st d)
    (hposition : ∀ k ∈ s.allChildren d, st'.position k = st.position k)
    (hheight : ∀ k ∈ s.allChildren d, s.height st' k = s.height st k)
    (hexpanded : st'.expandedSize d = st.expandedSize d) : s.Sound st' d := by
  refine ⟨fun a ha b hb hne hx => ?_, fun k hk => ?_⟩
  · rw [hposition a ha, hposition b hb] at hx
    unfold AboveBut
    rw [hposition a ha, hposition b hb, hheight a ha, hheight b hb]
    exact h.apart a ha b hb hne hx
  · rw [hposition k hk, hheight k hk, hexpanded]
    exact h.tall k hk

theorem Sound.apartBut (h : s.Sound st d)
    (hposition : ∀ k ∈ s.allChildren d, st'.position k = st.position k)
    (hheight : ∀ k ∈ s.allChildren d, changed ≠ some k → s.height st' k = s.height st k) :
    s.ApartBut st' changed d := by
  have hbut : ∀ a ∈ s.allChildren d, ∀ b ∈ s.allChildren d, s.AboveBut st none a b →
      s.AboveBut st' changed a b := by
    intro a ha b hb hab
    unfold AboveBut
    rw [hposition a ha, hposition b hb]
    refine ⟨hab.1, or_iff_not_imp_left.mpr fun hne => ?_⟩
    rw [hheight a ha hne]
    exact hab.2.resolve_left nofun
  intro a ha b hb hne hx
  rw [hposition a ha, hposition b hb] at hx
  exact (h.apart a ha b hb hne hx).imp (hbut a ha b hb) (hbut b hb a ha)

theorem height_congr (helement : k ∉ s.containers → st'.elementSize k = st.elementSize k)
    (hsize : k ∈ s.containers → s.size st' k = s.size st k) : s.height st' k = s.height st k := by
  unfold height
  split_ifs with hk
  · rw [hsize hk]
  · rw [helement hk]

theorem position_reflow (hk : k ∉ s.allChildren c) :
    (s.reflowChildren st c changed).1.position k = st.position k := by
  unfold reflowChildren
  split_ifs
  · rfl
  · exact if_neg hk

theorem position_reflow_of_mem (hk : k ∈ s.allChildren c) :
    (s.reflowChildren st c changed).1.position k = ⟨(st.position k).x, s.newY st c changed k⟩ := by
  unfold reflowChildren
  rw [if_neg (ne_nil_of_mem hk)]
  exact if_pos hk

theorem height_reflow (hk : k ≠ c) :
    s.height (s.reflowChildren st c changed).1 k = s.height st k := by
  unfold reflowChildren
  split_ifs
  · rfl
  · simp [height, size, collapsedSize, update_of_ne hk]

theorem height_reflow_self (h : (s.reflowChildren st c changed).2 = 0) :
    s.height (s.reflowChildren st c changed).1 c = s.height st c := by
  unfold reflowChildren at h ⊢
  split_ifs at h ⊢
  · rfl
  · have heq := sub_eq_zero.mp h
    simp only [height, size, collapsedSize, update_self]
    split_ifs <;> first | rfl | exact heq

theorem expandedSize_reflow (hd : d ≠ c) :
    (s.reflowChildren st c changed).1.expandedSize d = st.expandedSize d := by
  unfold reflowChildren
  split_ifs
  · rfl
  · exact update_of_ne hd _ _

theorem keepsOrder_reflow (happart : s.ApartBut st changed c ∨ changed = none) :
    s.KeepsOrder st.position (s.reflowChildren st c changed).1.position := by
  refine ⟨fun k => ?_, fun d _ a ha b hb hx hlt => ?_⟩
  · by_cases hk : k ∈ s.allChildren c
    · rw [position_reflow_of_mem hk]
    · rw [position_reflow hk]
  · by_cases hd : d = c
    · subst hd
      rw [position_reflow_of_mem ha, position_reflow_of_mem hb]
      have hne : a ≠ b := fun h => lt_irrefl _ (h ▸ hlt)
      rcases placed_or happart ha hb hne hx with h | h
      · exact h.2.1
      · exact absurd hlt (not_lt.mpr h.1)
    · rwa [position_reflow fun h => hd (eq_of_mem_allChildren ha h),
        position_reflow fun h => hd (eq_of_mem_allChildren hb h)]

theorem sound_reflow_self (hc : c ∈ s.containers)
    (happart : s.ApartBut st changed c ∨ changed = none) :
    s.Sound (s.reflowChildren st c changed).1 c := by
  have hheight : ∀ k ∈ s.allChildren c,
      s.height (s.reflowChildren st c changed).1 k = s.height st k :=
    fun k hk => height_reflow fun h => self_not_mem_allChildren hc (h ▸ hk)
  refine ⟨fun a ha b hb hne hx => ?_, fun k hk => ?_⟩
  · rw [position_reflow_of_mem ha, position_reflow_of_mem hb] at hx
    unfold AboveBut
    rw [hheight a ha, hheight b hb, position_reflow_of_mem ha, position_reflow_of_mem hb]
    exact (placed_or happart ha hb hne hx).imp (fun h => ⟨h.2.1, .inr h.2.2⟩)
      fun h => ⟨h.2.1, .inr h.2.2⟩
  · rw [hheight k hk, position_reflow_of_mem hk]
    have hbottom := bottom_le happart hk
    have hpad : (0 : ℚ) ≤ (s.containerType c).paddingBottom := show (0 : ℚ) ≤ 25 by norm_num
    unfold reflowChildren
    rw [if_neg (ne_nil_of_mem hk)]
    dsimp only
    rw [update_self]
    show s.newY st c changed k + s.height st k ≤ s.maxColumnBottom st c changed + _
    linarith

theorem sound_reflow (hc : c ∈ s.containers) (happart : s.ApartBut st changed c ∨ changed = none)
    (hparent : s.parent c ≠ some d ∨ (s.reflowChildren st c changed).2 = 0)
    (h : d ≠ c → s.Sound st d) : s.Sound (s.reflowChildren st c changed).1 d := by
  by_cases hd : d = c
  · subst hd
    exact sound_reflow_self hc happart
  · refine (h hd).congr (fun k hk => position_reflow fun hk' => hd (eq_of_mem_allChildren hk hk'))
      (fun k hk => ?_) (expandedSize_reflow hd)
    by_cases hkc : k = c
    · subst hkc
      exact height_reflow_self (hparent.resolve_left fun hne => hne (parent_of_mem_allChildren hc hk))
    · exact height_reflow hkc

end Reflows

namespace KeepsOrder
variable {s} {before mid after : String → LayoutPoint}

theorem refl (s : LayoutShape) (before : String → LayoutPoint) : s.KeepsOrder before before :=
  ⟨fun _ => rfl, fun _ _ _ _ _ _ _ hlt => hlt⟩

theorem trans (h : s.KeepsOrder before mid) (h' : s.KeepsOrder mid after) :
    s.KeepsOrder before after := by
  refine ⟨fun k => (h'.column k).trans (h.column k), fun c hc a ha b hb hx hlt => ?_⟩
  refine h'.order c hc a ha b hb ?_ (h.order c hc a ha b hb hx hlt)
  rw [h.column, h.column, hx]

end KeepsOrder

section Calls
variable {s} {st : LayoutState} {c : String}
variable {k : String}

theorem propagateResize_spec (bound : ℕ) (hbound : s.depth c ≤ bound)
    (h : ∀ d ∈ s.containers, s.parent c ≠ some d → st.collapsed d = false → s.Sound st d) :
    s.Laid (s.propagateResize bound st c) ∧
      s.KeepsOrder st.position (s.propagateResize bound st c).position := by
  induction bound generalizing st c with
  | zero =>
    refine ⟨fun d hd hopen => h d hd (fun hparent => ?_) hopen, KeepsOrder.refl s _⟩
    exact absurd (s.depth_parent c d hparent) (by omega)
  | succ bound ih =>
    unfold propagateResize
    cases hparent : s.parent c with
    | none =>
      exact ⟨fun d hd hopen => h d hd (by rw [hparent]; rintro ⟨⟩) hopen, KeepsOrder.refl s _⟩
    | some p =>
      have hp := s.parent_mem c p hparent
      have hdepth := s.depth_parent c p hparent
      have hother : ∀ d, d ≠ p → s.parent c ≠ some d := by
        rw [hparent]
        exact fun d hne heq => hne (some.inj heq).symm
      dsimp only
      split_ifs with hclosed hdelta
      · refine ⟨fun d hd hopen => h d hd (fun heq => ?_) hopen, KeepsOrder.refl s _⟩
        rw [hparent] at heq
        rw [← some.inj heq, hclosed] at hopen
        cases hopen
      · have hmid : ∀ d ∈ s.containers, s.parent p ≠ some d →
            (s.reflowChildren st p none).1.collapsed d = false →
              s.Sound (s.reflowChildren st p none).1 d := by
          intro d hd hne hopen
          rw [collapsed_reflowChildren] at hopen
          exact sound_reflow hp (.inr rfl) (.inl hne) fun hdp => h d hd (hother d hdp) hopen
        obtain ⟨hlaid, horder⟩ := ih (by omega) hmid
        exact ⟨hlaid, (keepsOrder_reflow (.inr rfl)).trans horder⟩
      · refine ⟨fun d hd hopen => ?_, keepsOrder_reflow (.inr rfl)⟩
        rw [collapsed_reflowChildren] at hopen
        exact sound_reflow hp (.inr rfl) (.inr (not_not.mp hdelta)) fun hdp =>
          h d hd (hother d hdp) hopen

theorem reflowAround_spec {container : Option String}
    (hmem : ∀ p, container = some p → p ∈ s.containers)
    (h : ∀ d ∈ s.containers, container ≠ some d → st.collapsed d = false → s.Sound st d)
    (hbut : ∀ p, container = some p → st.collapsed p = false → s.ApartBut st (some k) p) :
    s.Laid (s.reflowAround st container k) ∧
      s.KeepsOrder st.position (s.reflowAround st container k).position := by
  unfold reflowAround
  cases container with
  | none => exact ⟨fun d hd hopen => h d hd nofun hopen, KeepsOrder.refl s _⟩
  | some p =>
    have hp := hmem p rfl
    have hother : ∀ d, d ≠ p → some p ≠ some d := fun d hne heq => hne (some.inj heq).symm
    dsimp only
    split_ifs with hclosed hdelta
    · refine ⟨fun d hd hopen => h d hd (fun heq => ?_) hopen, KeepsOrder.refl s _⟩
      rw [← some.inj heq, hclosed] at hopen
      exact absurd hopen nofun
    · have happart := hbut p rfl (Bool.eq_false_iff.mpr hclosed)
      have hmid : ∀ d ∈ s.containers, s.parent p ≠ some d →
          (s.reflowChildren st p (some k)).1.collapsed d = false →
            s.Sound (s.reflowChildren st p (some k)).1 d := by
        intro d hd hne hopen
        rw [collapsed_reflowChildren] at hopen
        exact sound_reflow hp (.inl happart) (.inl hne) fun hdp => h d hd (hother d hdp) hopen
      obtain ⟨hlaid, horder⟩ := propagateResize_spec (s.depth p) le_rfl hmid
      exact ⟨hlaid, (keepsOrder_reflow (.inl happart)).trans horder⟩
    · have happart := hbut p rfl (Bool.eq_false_iff.mpr hclosed)
      refine ⟨fun d hd hopen => ?_, keepsOrder_reflow (.inl happart)⟩
      rw [collapsed_reflowChildren] at hopen
      exact sound_reflow hp (.inl happart) (.inr (not_not.mp hdelta)) fun hdp =>
        h d hd (hother d hdp) hopen

theorem size_congr {f : String → Bool} (h : f k = st.collapsed k) :
    s.size { st with collapsed := f } k = s.size st k := by
  show (if f k then _ else _) = _
  rw [h]
  rfl

theorem collapse_spec (c : String) (h : s.Laid st) :
    s.Laid (s.collapse st c) ∧ s.KeepsOrder st.position (s.collapse st c).position := by
  unfold collapse
  split_ifs with hguard
  · exact ⟨h, KeepsOrder.refl s _⟩
  obtain ⟨hc, -⟩ := not_or.mp hguard
  have hc := not_not.mp hc
  let closed : String → Bool := fun k => k = c || (k ∈ s.childContainers c : Bool) || st.collapsed k
  have hheight : ∀ d, d ≠ c → ∀ k ∈ s.allChildren d, k ≠ c →
      s.height { st with collapsed := closed } k = s.height st k := by
    intro d hd k hk hkc
    refine height_congr (fun _ => rfl) fun hmem => size_congr ?_
    have hchild : k ∉ s.childContainers c := fun hchild =>
      hd (eq_of_mem_allChildren hk (mem_append_left _ hchild))
    simp [closed, hkc, hchild]
  have hopen : ∀ d, closed d = false → d ≠ c ∧ st.collapsed d = false := by
    intro d hd
    simp only [closed, Bool.or_eq_false_iff, decide_eq_false_iff_not] at hd
    exact ⟨hd.1.1, hd.2⟩
  refine reflowAround_spec (s.parent_mem c) (fun d hd hne hdopen => ?_) fun p hp hpopen => ?_
  · obtain ⟨hdc, hdopen⟩ := hopen d hdopen
    refine (h d hd hdopen).congr (fun _ _ => rfl) (fun k hk => hheight d hdc k hk ?_) rfl
    rintro rfl
    exact hne (parent_of_mem_allChildren hc hk)
  · obtain ⟨hpc, hpopen⟩ := hopen p hpopen
    refine (h p (s.parent_mem c p hp) hpopen).apartBut (fun _ _ => rfl) fun k hk hkc => ?_
    exact hheight p hpc k hk fun heq => hkc (congrArg some heq.symm)

theorem expand_spec (c : String) (h : s.Laid st) :
    s.Laid (s.expand st c) ∧ s.KeepsOrder st.position (s.expand st c).position := by
  unfold expand
  split_ifs with hguard
  · exact ⟨h, KeepsOrder.refl s _⟩
  obtain ⟨hc, -⟩ := not_or.mp hguard
  have hc := not_not.mp hc
  dsimp only
  have hheight : ∀ k, k ≠ c → s.height
      { st with collapsed := Function.update st.collapsed c false } k = s.height st k := by
    intro k hk
    exact height_congr (fun _ => rfl) fun _ => size_congr (update_of_ne hk _ _)
  have horder := @keepsOrder_reflow s
    { st with collapsed := Function.update st.collapsed c false } c none (.inr rfl)
  have hspec : s.Laid (s.reflowAround (s.reflowChildren
      { st with collapsed := Function.update st.collapsed c false } c none).1 (s.parent c) c) ∧ _ :=
    reflowAround_spec (s.parent_mem c) (fun d hd hne hdopen => ?_) fun p hp hpopen => ?_
  · exact ⟨hspec.1, horder.trans hspec.2⟩
  · rw [collapsed_reflowChildren] at hdopen
    refine sound_reflow hc (.inr rfl) (.inl hne) fun hdc => ?_
    have hdopen : st.collapsed d = false := (update_of_ne hdc _ _).symm.trans hdopen
    refine (h d hd hdopen).congr (fun _ _ => rfl) (fun k hk => hheight k ?_) rfl
    rintro rfl
    exact hne (parent_of_mem_allChildren hc hk)
  · have hpc := parent_ne_self hp
    rw [collapsed_reflowChildren] at hpopen
    have hpopen : st.collapsed p = false := (update_of_ne hpc _ _).symm.trans hpopen
    refine (h p (s.parent_mem c p hp) hpopen).apartBut (fun k hk => ?_) fun k hk hkc => ?_
    · exact position_reflow fun hk' => hpc (eq_of_mem_allChildren hk hk')
    · have hkc : k ≠ c := fun heq => hkc (congrArg some heq.symm)
      exact (height_reflow hkc).trans (hheight k hkc)

theorem updateElementSize_spec (e : String) (size : LayoutSize) (h : s.Laid st) :
    s.Laid (s.updateElementSize st e size) ∧
      s.KeepsOrder st.position (s.updateElementSize st e size).position := by
  unfold updateElementSize
  by_cases he : e ∈ s.elements
  swap
  · rw [if_pos he]
    exact ⟨h, KeepsOrder.refl s _⟩
  rw [if_neg (not_not.mpr he)]
  have hheight : ∀ k, k ≠ e → s.height
      { st with elementSize := Function.update st.elementSize e size } k = s.height st k := by
    intro k hk
    exact height_congr (fun _ => update_of_ne hk _ _) fun _ => rfl
  refine reflowAround_spec (s.container_mem e) (fun d hd hne hdopen => ?_) fun p hp hpopen => ?_
  · refine (h d hd hdopen).congr (fun _ _ => rfl) (fun k hk => hheight k ?_) rfl
    rintro rfl
    rcases mem_allChildren.mp hk with ⟨hk', -⟩ | ⟨-, hcontainer⟩
    · exact not_both hk' he
    · exact hne hcontainer
  · refine (h p (s.container_mem e p hp) hpopen).apartBut (fun _ _ => rfl) fun k hk hke => ?_
    exact hheight k fun heq => hke (congrArg some heq.symm)

end Calls

inductive LayoutOp where
  | collapse (c : String)
  | expand (c : String)
  | updateElementSize (e : String) (size : LayoutSize)

def step (st : LayoutState) : LayoutOp → LayoutState
  | .collapse c => s.collapse st c
  | .expand c => s.expand st c
  | .updateElementSize e size => s.updateElementSize st e size

def run (st : LayoutState) (ops : List LayoutOp) : LayoutState := ops.foldl s.step st

structure KeepsColumns (before after : LayoutState) : Prop where
  laid : s.Laid after
  order : s.KeepsOrder before.position after.position

theorem keepsColumns_step {st : LayoutState} (h : s.Laid st) (op : LayoutOp) :
    s.KeepsColumns st (s.step st op) := by
  cases op with
  | collapse c => exact ⟨(collapse_spec c h).1, (collapse_spec c h).2⟩
  | expand c => exact ⟨(expand_spec c h).1, (expand_spec c h).2⟩
  | updateElementSize e size =>
    exact ⟨(updateElementSize_spec e size h).1, (updateElementSize_spec e size h).2⟩

theorem keepsColumns_run {st : LayoutState} (h : s.Laid st) (ops : List LayoutOp) :
    s.KeepsColumns st (s.run st ops) := by
  induction ops generalizing st with
  | nil => exact ⟨h, KeepsOrder.refl s _⟩
  | cons op ops ih =>
    have hstep := keepsColumns_step s h op
    have hrun := ih hstep.laid
    exact ⟨hrun.laid, hstep.order.trans hrun.order⟩

def hostBox : LayoutShape where
  containers := ["lan"]
  elements := ["nas", "tv"]
  nodup := by decide
  parent _ := none
  container _ := some "lan"
  containerType _ := .subnet
  depth _ := 0
  depth_parent := nofun
  parent_mem := nofun
  container_mem _ _ h := Option.some.inj h ▸ List.mem_cons_self

def stackedHosts (closed : Bool) : LayoutState where
  position k := ⟨0, if k = "tv" then 130 else 0⟩
  elementSize := blank.elementSize
  expandedSize _ := ⟨250, 255, by norm_num⟩
  measuredCollapsedSize _ := none
  collapsed _ := closed

theorem sound_stackedHosts (closed : Bool) :
    ∀ c ∈ hostBox.containers, hostBox.Sound (stackedHosts closed) c := by
  intro c hc
  obtain rfl := mem_singleton.mp hc
  have hchildren : hostBox.allChildren "lan" = ["nas", "tv"] := by decide
  have habove : hostBox.AboveBut (stackedHosts closed) none "nas" "tv" :=
    ⟨show (0 : ℚ) < 130 by norm_num, .inr (show (0 : ℚ) + 100 ≤ 130 by norm_num)⟩
  refine ⟨?_, ?_⟩
  · unfold Apart ApartBut
    rw [hchildren]
    simp [habove]
  · rw [hchildren]
    refine forall_mem_cons.mpr ⟨?_, forall_mem_singleton.mpr ?_⟩
    · show (0 : ℚ) + 100 ≤ 255
      norm_num
    · show (130 : ℚ) + 100 ≤ 255
      norm_num

theorem keepsColumns_run_hosts : hostBox.KeepsColumns (stackedHosts false)
    (hostBox.run (stackedHosts false) [.updateElementSize "nas" ⟨250, 200, by norm_num⟩]) :=
  keepsColumns_run hostBox (fun c hc _ => sound_stackedHosts false c hc) _

/-- The subnet is not reflowed while it is collapsed. -/
theorem not_apart_run : ¬ ∀ (s : LayoutShape) (st : LayoutState) (ops : List LayoutOp),
    (∀ c ∈ s.containers, s.Sound st c) → ∀ c ∈ s.containers, ∀ a ∈ s.allChildren c,
      ∀ b ∈ s.allChildren c, a ≠ b → ((s.run st ops).position a).x = ((s.run st ops).position b).x →
          ((s.run st ops).position a).y + s.height (s.run st ops) a ≤ ((s.run st ops).position b).y ∨
            ((s.run st ops).position b).y + s.height (s.run st ops) b ≤
              ((s.run st ops).position a).y := by
  intro h
  have hchildren : hostBox.allChildren "lan" = ["nas", "tv"] := by decide
  rcases h hostBox (stackedHosts true) [.updateElementSize "nas" ⟨250, 200, by norm_num⟩]
    (sound_stackedHosts true) "lan" mem_cons_self "nas" (by simp [hchildren]) "tv"
    (by simp [hchildren]) (by decide) rfl with hle | hle
  · have hle : (0 : ℚ) + 200 ≤ 130 := hle
    norm_num at hle
  · have hle : (130 : ℚ) + 100 ≤ 0 := hle
    norm_num at hle

end LayoutShape

end Scanopy
