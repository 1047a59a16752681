import Mathlib.Data.Char
import Scanopy.Lib.Json
import Scanopy.Viewer.LayoutGraph

/-! When the sizes of the cards are forgotten. What is drawn is written into a key, and the sizes
are cleared if one of two segments has changed; but a text in the key is cut at the bars it has
itself, so what is compared is the second and the third piece. -/

namespace Scanopy

open List Option Function

namespace CardView

abbrev Text := List Char

def join (c : Char) (l : List Text) : Text := List.intercalate [c] l

def sortTexts (l : List Text) : List Text := l.insertionSort (· ≤ ·)

structure DrawnNode where
  id : Text
  parent : Option Text

structure Input where
  topologyId : Text
  nodes : List DrawnNode
  edges : ℕ
  collection : Text → Option (List Json.Value)
  tagHiddenNodeIds : List Text
  hiddenEntityIdsByType : List (Text × List Text)
  hideMetadataValues : List (Text × List (Text × List Text))

inductive HiddenEntry where
  | ids (type : Text) (ids : List Text)
  | values (type : Text) (fields : List (Text × List Text))
  deriving DecidableEq

namespace HiddenEntry

def type : HiddenEntry → Text
  | ids t _ | values t _ => t

def fieldText (f : Text × List Text) : Text := join '=' [f.1, join '+' f.2]

def text : HiddenEntry → Text
  | ids t l => join ':' [['e'], t, join ',' l]
  | values t fields => join ':' [['m'], join '.' [t, join ',' (fields.map fieldText)]]

end HiddenEntry

/-- An element of `split('|')`, empty if there is none. -/
def segment (i : ℕ) (key : Text) : Text := (key.splitOn '|')[i]?.getD []

def cardsMayHaveResized (last next : Text) : Bool :=
  last = [] || segment 1 last ≠ segment 1 next || segment 2 last ≠ segment 2 next

structure SizeCaches where
  viewSizeCache : Text → Text → Option LayoutPoint
  containerSizeCache : Text → Option (Option LayoutPoint × Option LayoutPoint)

namespace SizeCaches

def cleared : SizeCaches := ⟨fun _ _ => none, fun _ => none⟩

def surviving (caches : SizeCaches) (ids : List Text) : SizeCaches where
  viewSizeCache key id := if id ∈ ids then caches.viewSizeCache key id else none
  containerSizeCache id := if id ∈ ids then caches.containerSizeCache id else none

end SizeCaches

structure PrepareState where
  lastRenderedTopoKey : Text
  lastSeenTopologyId : Text
  sessionBaseKey : Text
  caches : SizeCaches

end CardView

structure CardView where
  name : List Char
  inlineTypes : List (List Char)
  localeCompare : List Char → List Char → Bool

namespace CardView
variable (v : CardView) (x prev next : Input)

def sortEntries {α : Type} (l : List (Text × α)) : List (Text × α) :=
  l.insertionSort fun a b => v.localeCompare a.1 b.1

def inlined : List Json.Value := v.inlineTypes.flatMap fun t => (x.collection t).getD []

def getInlineContentKey : Text := join ';' (sortTexts ((v.inlined x).map Json.Value.stringify))

def hiddenEntries : List HiddenEntry :=
  (x.hiddenEntityIdsByType.filter (·.2 ≠ [])).map (fun e => .ids e.1 (sortTexts e.2)) ++
    (v.sortEntries x.hideMetadataValues).map fun e =>
      .values e.1 ((v.sortEntries e.2).map fun f => (f.1, sortTexts f.2))

def resizing : List HiddenEntry := (v.hiddenEntries x).filter (·.type ∈ v.inlineTypes)

def structural : List Text :=
  (if x.tagHiddenNodeIds = [] then [] else [join ':' [['n'], join ',' (sortTexts x.tagHiddenNodeIds)]]) ++
    ((v.hiddenEntries x).filter (·.type ∉ v.inlineTypes)).map HiddenEntry.text

def nodesKey : Text :=
  join ':' [(toString x.nodes.length).toList, (toString x.edges).toList,
    join ',' (sortTexts (x.nodes.map fun n => n.id ++ '@' :: n.parent.getD []))]

def getStructureKey : Text :=
  join '|' [nodesKey x, v.getInlineContentKey x, join '|' ((v.resizing x).map HiddenEntry.text),
    join '|' (v.structural x)]

/-- What `prepareTopologyData` leaves of the sizes, in the view of the run before. -/
def prepareTopologyData (st : PrepareState) : SizeCaches :=
  let topoKey := v.getStructureKey x
  let caches :=
    if topoKey = st.lastRenderedTopoKey then st.caches
    else if cardsMayHaveResized st.lastRenderedTopoKey topoKey then .cleared
    else st.caches.surviving (x.nodes.map (·.id))
  let caches :=
    if x.topologyId ≠ st.lastSeenTopologyId ∧ st.lastSeenTopologyId ≠ [] then
      { caches with containerSizeCache := fun _ => none }
    else caches
  -- a new base structure takes all sizes of the view with it
  if v.name ++ ':' :: topoKey = st.sessionBaseKey then caches
  else { caches with
    viewSizeCache := Function.update caches.viewSizeCache (v.name ++ ':' :: x.topologyId) fun _ => none }

def rendered (caches : SizeCaches) : PrepareState :=
  ⟨v.getStructureKey x, x.topologyId, v.name ++ ':' :: v.getStructureKey x, caches⟩

def SameInlined : Prop := (v.inlined prev).Perm (v.inlined next)

def SameHidden : Prop := ∀ t ∈ v.inlineTypes,
  (∀ i, (∃ e ∈ prev.hiddenEntityIdsByType, e.1 = t ∧ i ∈ e.2) ↔
    ∃ e ∈ next.hiddenEntityIdsByType, e.1 = t ∧ i ∈ e.2) ∧
  ∀ f a, (∃ e ∈ prev.hideMetadataValues, e.1 = t ∧ ∃ g ∈ e.2, g.1 = f ∧ a ∈ g.2) ↔
    ∃ e ∈ next.hideMetadataValues, e.1 = t ∧ ∃ g ∈ e.2, g.1 = f ∧ a ∈ g.2

structure SizesFollow : Prop where
  stale : ¬ (v.SameInlined prev next ∧ v.SameHidden prev next) → ∀ caches,
    cardsMayHaveResized (v.getStructureKey prev) (v.getStructureKey next) = true ∧
      v.prepareTopologyData next (v.rendered prev caches) = .cleared
  kept : v.SameInlined prev next → v.SameHidden prev next → ∀ caches, ∀ n ∈ next.nodes,
    let after := v.prepareTopologyData next (v.rendered prev caches)
    (∀ key, after.viewSizeCache key n.id = caches.viewSizeCache key n.id) ∧
      after.containerSizeCache n.id = caches.containerSizeCache n.id

/-- The texts, each cut at the bars in it. No text at all leaves an empty piece. -/
def cut (texts : List Text) : List Text :=
  if texts = [] then [[]] else texts.flatMap (·.splitOn '|')

def pieces : List Text :=
  cut [nodesKey x, v.getInlineContentKey x] ++ cut ((v.resizing x).map HiddenEntry.text) ++
    cut (v.structural x)

/-- Where what is on the cards changes, so does the second piece or the third; and where it stays,
nothing else of the structure changes. -/
structure KeyTells : Prop where
  changed : ¬ (v.SameInlined prev next ∧ v.SameHidden prev next) →
    (v.pieces prev)[1]? ≠ (v.pieces next)[1]? ∨ (v.pieces prev)[2]? ≠ (v.pieces next)[2]?
  rest : v.SameInlined prev next → v.SameHidden prev next → next.nodes = [] ∨
    v.getStructureKey next = v.getStructureKey prev ∧
      (next.topologyId = prev.topologyId ∨ prev.topologyId = [])

/-- No bar is written between the bars. -/
structure Plain : Prop where
  nodes : '|' ∉ nodesKey x
  inlined : ∀ e ∈ v.inlined x, '|' ∉ e.stringify
  entries : ∀ e ∈ v.resizing x, '|' ∉ e.text

/-- No two entries are written alike. -/
def Distinct : Prop := ∀ e ∈ v.resizing prev, ∀ f ∈ v.resizing next, e.text = f.text → e = f

section Segments
variable {v x prev next}

theorem HiddenEntry.text_ne_nil (e : HiddenEntry) : e.text ≠ [] := by
  cases e <;> exact nofun

theorem notMem_join {c d : Char} {l : List Text} (hdc : d ≠ c) (hl : ∀ t ∈ l, d ∉ t) :
    d ∉ join c l := by
  induction l with
  | nil => exact not_mem_nil
  | cons t l ih =>
    obtain ⟨ht, hl'⟩ := forall_mem_cons.mp hl
    cases l with
    | nil => rwa [join, intercalate_singleton]
    | cons u l =>
      have hrest := ih hl'
      rw [join] at hrest ⊢
      simp [ht, hdc, hrest]

theorem notMem_getInlineContentKey (h : ∀ e ∈ v.inlined x, '|' ∉ e.stringify) :
    '|' ∉ v.getInlineContentKey x := by
  refine notMem_join (by decide) fun t ht => ?_
  obtain ⟨e, he, rfl⟩ := List.mem_map.mp ((mem_insertionSort _).mp ht)
  exact h e he

theorem getInlineContentKey_eq_iff :
    v.getInlineContentKey prev = v.getInlineContentKey next ↔ v.SameInlined prev next := by
  have hsorted : ∀ x, (sortTexts ((v.inlined x).map Json.Value.stringify)).Perm
      ((v.inlined x).map Json.Value.stringify) := fun x => perm_insertionSort _ _
  constructor
  · intro h
    have htexts : ∀ x, ∀ t ∈ sortTexts ((v.inlined x).map Json.Value.stringify),
        t ∈ Set.range Json.Value.stringify := by
      intro x t ht
      obtain ⟨e, -, he⟩ := List.mem_map.mp ((hsorted x).mem_iff.mp ht)
      exact ⟨e, he⟩
    have hlists := Json.intercalate_injective (htexts prev) (htexts next) h
    refine (map_perm_map_iff Json.stringify_injective).mp ?_
    exact (hsorted prev).symm.trans (hlists ▸ hsorted next)
  · intro h
    have hperm := (hsorted prev).trans ((h.map Json.Value.stringify).trans (hsorted next).symm)
    exact congrArg (join ';') (hperm.eq_of_pairwise' (pairwise_insertionSort _ _)
      (pairwise_insertionSort _ _))

theorem splitOn_join (texts : List Text) : (join '|' texts).splitOn '|' = cut texts := by
  induction texts with
  | nil => rfl
  | cons t texts ih =>
    cases texts with
    | nil => simp [join, cut]
    | cons u texts =>
      have hjoin : join '|' (t :: u :: texts) = t ++ '|' :: join '|' (u :: texts) := by simp [join]
      rw [hjoin, splitOn_append_cons_self, ih]
      simp [cut]

theorem splitOn_getStructureKey : (v.getStructureKey x).splitOn '|' = v.pieces x := by
  rw [getStructureKey, splitOn_join, cut, if_neg (cons_ne_nil _ _)]
  simp only [flatMap_cons, flatMap_nil, splitOn_join, pieces, append_nil, append_assoc]
  simp [cut]

theorem cut_ne_nil (texts : List Text) : cut texts ≠ [] := by
  rw [← splitOn_join]
  exact splitOn_ne_nil _ _

theorem length_pieces : 3 ≤ (v.pieces x).length := by
  have hkeys : 2 ≤ (cut [nodesKey x, v.getInlineContentKey x]).length := by
    have hnodes := length_pos_of_ne_nil (splitOn_ne_nil '|' (nodesKey x))
    have hinlined := length_pos_of_ne_nil (splitOn_ne_nil '|' (v.getInlineContentKey x))
    simp only [cut, cons_ne_nil, if_false, flatMap_cons, flatMap_nil, append_nil, length_append]
    omega
  have hresizing := length_pos_of_ne_nil (cut_ne_nil ((v.resizing x).map HiddenEntry.text))
  rw [pieces, length_append, length_append]
  omega

theorem segment_eq_iff {i : ℕ} (hi : i < 3) :
    segment i (v.getStructureKey prev) = segment i (v.getStructureKey next) ↔
      (v.pieces prev)[i]? = (v.pieces next)[i]? := by
  have hprev : i < (v.pieces prev).length := hi.trans_le length_pieces
  have hnext : i < (v.pieces next).length := hi.trans_le length_pieces
  rw [segment, segment, splitOn_getStructureKey, splitOn_getStructureKey,
    getElem?_eq_getElem hprev, getElem?_eq_getElem hnext, getD_some, getD_some,
    some.injEq]

theorem resized_iff :
    cardsMayHaveResized (v.getStructureKey prev) (v.getStructureKey next) = true ↔
      (v.pieces prev)[1]? ≠ (v.pieces next)[1]? ∨ (v.pieces prev)[2]? ≠ (v.pieces next)[2]? := by
  have hnonempty : v.getStructureKey prev ≠ [] := by
    simp [getStructureKey, join]
  unfold cardsMayHaveResized
  simp only [hnonempty, decide_false, Bool.false_or, Bool.or_eq_true, decide_eq_true_eq, ne_eq,
    segment_eq_iff (show 1 < 3 by decide), segment_eq_iff (show 2 < 3 by decide)]

/-- Of the entries that are joined between two bars, only the first is in its place. -/
theorem pieces_of_plain (h : v.Plain x) : ∃ rest, v.pieces x = nodesKey x ::
    v.getInlineContentKey x :: ((v.resizing x).head?.map HiddenEntry.text).getD [] :: rest := by
  have hkeys : cut [nodesKey x, v.getInlineContentKey x] =
    [nodesKey x, v.getInlineContentKey x] := by
    simp only [cut, cons_ne_nil, if_false, flatMap_cons, flatMap_nil, splitOn_eq_singleton h.nodes,
      splitOn_eq_singleton (notMem_getInlineContentKey h.inlined)]
    rfl
  rw [pieces, hkeys]
  cases hentries : v.resizing x with
  | nil => exact ⟨_, rfl⟩
  | cons e entries =>
    have he : '|' ∉ e.text := h.entries e (hentries ▸ mem_cons_self)
    simp only [cut, map_cons, cons_ne_nil, if_false, flatMap_cons, splitOn_eq_singleton he]
    exact ⟨_, rfl⟩

/-- Without bars in the texts, a change of what is hidden is told exactly if it changes the first
entry. -/
theorem tells_iff_of_plain (hprev : v.Plain prev) (hnext : v.Plain next)
    (hentries : v.Distinct prev next) :
    ((v.pieces prev)[1]? ≠ (v.pieces next)[1]? ∨ (v.pieces prev)[2]? ≠ (v.pieces next)[2]?) ↔
      (v.SameInlined prev next → (v.resizing prev).head? ≠ (v.resizing next).head?) := by
  have hheads : ((v.resizing prev).head?.map HiddenEntry.text).getD [] =
      ((v.resizing next).head?.map HiddenEntry.text).getD [] ↔
        (v.resizing prev).head? = (v.resizing next).head? := by
    cases hhead : (v.resizing prev).head? <;> cases hhead' : (v.resizing next).head?
    · simp
    · simp [(HiddenEntry.text_ne_nil _).symm]
    · simp [HiddenEntry.text_ne_nil]
    · refine ⟨fun htext => congrArg some ?_, fun heq => by rw [heq]⟩
      exact hentries _ (mem_of_mem_head? hhead) _ (mem_of_mem_head? hhead') htext
  obtain ⟨rest, hpieces⟩ := pieces_of_plain hprev
  obtain ⟨rest', hpieces'⟩ := pieces_of_plain hnext
  rw [hpieces, hpieces', ← getInlineContentKey_eq_iff]
  simp only [getElem?_cons_succ, getElem?_cons_zero, ne_eq, some.injEq, hheads]
  exact imp_iff_not_or.symm

end Segments

section Caches
variable {v x prev next}

theorem cleared_of_resized
    (h : cardsMayHaveResized (v.getStructureKey prev) (v.getStructureKey next) = true)
    (hkey : v.getStructureKey next ≠ v.getStructureKey prev) (caches : SizeCaches) :
    v.prepareTopologyData next (v.rendered prev caches) = .cleared := by
  have hbase : v.name ++ ':' :: v.getStructureKey next ≠ v.name ++ ':' :: v.getStructureKey prev :=
    fun heq => hkey (cons.inj (append_cancel_left heq)).2
  simp only [prepareTopologyData, rendered, hkey, hbase, h, if_false, if_true]
  split_ifs
  · exact congrArg (SizeCaches.mk · _) (update_eq_self _ _)
  · exact congrArg (SizeCaches.mk · _) (update_eq_self _ _)

theorem kept_iff : (∀ caches : SizeCaches, ∀ n ∈ next.nodes,
      let after := v.prepareTopologyData next (v.rendered prev caches)
      (∀ key, after.viewSizeCache key n.id = caches.viewSizeCache key n.id) ∧
        after.containerSizeCache n.id = caches.containerSizeCache n.id) ↔
    next.nodes = [] ∨ v.getStructureKey next = v.getStructureKey prev ∧
      (next.topologyId = prev.topologyId ∨ prev.topologyId = []) := by
  constructor
  · intro h
    refine or_iff_not_imp_left.mpr fun hnodes => ?_
    obtain ⟨n, hn⟩ := exists_mem_of_ne_nil _ hnodes
    obtain ⟨hview, hcontainer⟩ := h ⟨fun _ _ => some ⟨0, 0⟩, fun _ => some (none, none)⟩ n hn
    have hkey : v.getStructureKey next = v.getStructureKey prev := by
      by_contra hne
      have hsome := hview (v.name ++ ':' :: next.topologyId)
      have hbase : v.name ++ ':' :: v.getStructureKey next ≠ v.name ++ ':' :: v.getStructureKey prev :=
        fun heq => hne (cons.inj (append_cancel_left heq)).2
      simp only [prepareTopologyData, rendered, hbase, if_false, update_self] at hsome
      exact absurd hsome nofun
    refine ⟨hkey, or_iff_not_imp_left.mpr fun hid => ?_⟩
    by_contra hprev
    simp [prepareTopologyData, rendered, hkey, hid, hprev] at hcontainer
  · rintro (hnodes | ⟨hkey, hid⟩) caches n hn
    · rw [hnodes] at hn
      exact absurd hn not_mem_nil
    · have hsame : ¬ (next.topologyId ≠ prev.topologyId ∧ prev.topologyId ≠ []) :=
        fun h => hid.elim h.1 h.2
      simp [prepareTopologyData, rendered, hkey, hsame]

end Caches

def logical : CardView := ⟨"L3Logical".toList, ["Service".toList], fun a b => a ≤ b⟩

def office (id category : Text) (nodes : List DrawnNode) : Input where
  topologyId := "office".toList
  nodes := nodes
  edges := 0
  collection _ := some []
  tagHiddenNodeIds := []
  hiddenEntityIdsByType := [("Service".toList, [id])]
  hideMetadataValues := [("Service".toList, [("Category".toList, [category])])]

end CardView

end Scanopy
