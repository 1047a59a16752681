import Scanopy.Graph.Forest

/-! Boxes without elements. The walk up from an element takes one step at most; a box goes exactly
if neither it nor one of its subcontainers has an element. -/

namespace Scanopy.Graph

open List Option

/-- The containers are boxes of hosts, or in what is no subcontainer. The box may be missing. -/
structure Boxed (nodes : List Node) : Prop where
  nodup : (nodes.map (·.id)).Nodup
  hostBox : ∀ n ∈ nodes, n.isContainer → (n.isHostBox ↔ n.parentId = none)
  flat : ∀ n ∈ nodes, n.isContainer → ∀ m ∈ nodes, m.isContainer → n.parentId = some m.id →
    m.parentId = none

theorem Node.isContainer_of_isHostBox {n : Node} (h : n.isHostBox) : n.isContainer := by
  obtain ⟨id, nodeType, header⟩ := n
  cases nodeType with
  | container data => rfl
  | element data => exact nomatch h

section Walks
variable {nodes : List Node} {n : Node} {id parentId : Uuid}

theorem containerParent_eq_some : containerParent nodes id = some parentId →
    ∃ n ∈ nodes, n.isContainer ∧ n.id = id ∧ n.parentId = some parentId := by
  intro h
  obtain ⟨n, hn, hparent⟩ := bind_eq_some_iff.mp h
  have hn' := find?_some hn
  simp only [Bool.and_eq_true, decide_eq_true_eq] at hn'
  exact ⟨n, mem_of_find?_eq_some hn, hn'.1, hn'.2, hparent⟩

theorem containerParent_of_mem (hnodup : (nodes.map (·.id)).Nodup) (hn : n ∈ nodes)
    (hcont : n.isContainer) : containerParent nodes n.id = n.parentId := by
  rw [containerParent]
  cases hfind : nodes.find? fun m => m.isContainer && m.id = n.id with
  | none => exact absurd (by simp [hcont]) (find?_eq_none.mp hfind n hn)
  | some m =>
    have hm := find?_some hfind
    simp only [Bool.and_eq_true, decide_eq_true_eq] at hm
    rw [inj_on_of_nodup_map hnodup (mem_of_find?_eq_some hfind) hn hm.2, bind_some]

theorem isHostBoxId_iff : isHostBoxId nodes id = true ↔ ∃ n ∈ nodes, n.isHostBox ∧ n.id = id := by
  simp [isHostBoxId]

theorem length_pos_of_mem (hn : n ∈ nodes) : ∃ fuel, nodes.length = fuel + 1 :=
  Nat.exists_eq_succ_of_ne_zero (List.length_pos_of_mem hn).ne'

namespace Boxed
variable (h : Boxed nodes)
include h

theorem containerParent_eq_none (hn : n ∈ nodes) (hcont : n.isContainer)
    (hparent : n.parentId = some parentId) : containerParent nodes parentId = none := by
  cases hp : containerParent nodes parentId with
  | none => rfl
  | some p =>
    obtain ⟨m, hm, hmcont, rfl, hmparent⟩ := containerParent_eq_some hp
    rw [h.flat n hn hcont m hm hmcont hparent] at hmparent
    exact nomatch hmparent

theorem walkToTop_eq (hn : n ∈ nodes) (hcont : n.isContainer) (hparent : n.parentId = some parentId) :
    walkToTop nodes nodes.length n.id = parentId := by
  obtain ⟨fuel, hfuel⟩ := length_pos_of_mem hn
  rw [hfuel, walkToTop, containerParent_of_mem h.nodup hn hcont, hparent]
  cases fuel with
  | zero => rfl
  | succ fuel =>
    dsimp only
    rw [walkToTop, h.containerParent_eq_none hn hcont hparent]

theorem not_isHostBoxId_of_parent (hn : n ∈ nodes) (hcont : n.isContainer)
    (hparent : n.parentId = some parentId) : isHostBoxId nodes n.id = false := by
  rw [Bool.eq_false_iff, Ne, isHostBoxId_iff]
  rintro ⟨m, hm, hbox, hid⟩
  obtain rfl := inj_on_of_nodup_map h.nodup hm hn hid
  rw [(h.hostBox m hm hcont).mp hbox] at hparent
  exact nomatch hparent

theorem walkToHostBox_of_parent (hn : n ∈ nodes) (hcont : n.isContainer)
    (hparent : n.parentId = some parentId) :
    walkToHostBox nodes nodes.length n.id = parentId := by
  obtain ⟨fuel, hfuel⟩ := length_pos_of_mem hn
  rw [hfuel, walkToHostBox, h.not_isHostBoxId_of_parent hn hcont hparent,
    containerParent_of_mem h.nodup hn hcont, hparent, if_neg Bool.false_ne_true]
  cases fuel with
  | zero => rfl
  | succ fuel =>
    dsimp only
    rw [walkToHostBox, h.containerParent_eq_none hn hcont hparent]
    split <;> rfl

theorem walkToHostBox_eq (hbox : isHostBoxId nodes id) {containerId : Uuid} :
    walkToHostBox nodes nodes.length containerId = id ↔ containerId = id ∨
        ∃ c ∈ nodes, c.isContainer ∧ c.id = containerId ∧ c.parentId = some id := by
  obtain ⟨b, hb, hbbox, rfl⟩ := isHostBoxId_iff.mp hbox
  have hbcont := Node.isContainer_of_isHostBox hbbox
  constructor
  · intro hwalk
    cases hp : containerParent nodes containerId with
    | some p =>
      obtain ⟨c, hc, hcont, rfl, hparent⟩ := containerParent_eq_some hp
      rw [h.walkToHostBox_of_parent hc hcont hparent] at hwalk
      exact .inr ⟨c, hc, hcont, rfl, hwalk ▸ hparent⟩
    | none =>
      obtain ⟨fuel, hfuel⟩ := length_pos_of_mem hb
      rw [hfuel, walkToHostBox, hp] at hwalk
      left
      simpa using hwalk
  · rintro (rfl | ⟨c, hc, hcont, rfl, hparent⟩)
    · obtain ⟨fuel, hfuel⟩ := length_pos_of_mem hb
      rw [hfuel, walkToHostBox, if_pos hbox]
    · exact h.walkToHostBox_of_parent hc hcont hparent

end Boxed

def Holds (nodes : List Node) (id : Uuid) (n : Node) : Prop :=
  ∃ containerId, n.containerId = some containerId ∧ (containerId = id ∨
    ∃ c ∈ nodes, c.isContainer ∧ c.id = containerId ∧ c.parentId = some id)

theorem Boxed.isOccupied_iff (h : Boxed nodes) : isOccupied nodes id = true ↔
    isHostBoxId nodes id ∧ ∃ n ∈ nodes, Holds nodes id n := by
  rw [isOccupied, Bool.and_eq_true]
  refine and_congr_right fun hbox => ?_
  simp only [List.any_eq_true, Option.any_eq_true, decide_eq_true_eq, h.walkToHostBox_eq hbox, Holds]

end Walks

section Removed
variable {nodes : List Node} {n : Node} {id parentId : Uuid}

theorem not_isRemoved_of_element (helem : n.isContainer = false) : isRemoved nodes n = false := by
  obtain ⟨id, nodeType, header⟩ := n
  cases nodeType with
  | container data => exact nomatch helem
  | element data => rfl

theorem isRemoved_of_container (hcont : n.isContainer) : isRemoved nodes n =
    ((n.isHostBox && !isOccupied nodes n.id) ||
      (n.parentId.isSome && isHostBoxId nodes (walkToTop nodes nodes.length n.id) &&
        !isOccupied nodes (walkToTop nodes nodes.length n.id))) := by
  obtain ⟨id, nodeType, header⟩ := n
  cases nodeType with
  | container data => rfl
  | element data => exact nomatch hcont

theorem mem_idsToRemove (hnodup : (nodes.map (·.id)).Nodup) (hn : n ∈ nodes) :
    n.id ∈ idsToRemove nodes ↔ isRemoved nodes n := by
  rw [idsToRemove, List.mem_map]
  constructor
  · rintro ⟨m, hm, hid⟩
    obtain ⟨hm, hremoved⟩ := mem_filter.mp hm
    rwa [inj_on_of_nodup_map hnodup hm hn hid] at hremoved
  · exact fun hremoved => ⟨n, mem_filter.mpr ⟨hn, hremoved⟩, rfl⟩

namespace Boxed
variable (h : Boxed nodes)
include h

theorem mem_idsToRemove_box (hn : n ∈ nodes) (hbox : n.isHostBox) :
    n.id ∈ idsToRemove nodes ↔ ∀ m ∈ nodes, ¬Holds nodes n.id m := by
  have hcont := Node.isContainer_of_isHostBox hbox
  have hroot := (h.hostBox n hn hcont).mp hbox
  have hid : isHostBoxId nodes n.id = true := isHostBoxId_iff.mpr ⟨n, hn, hbox, rfl⟩
  rw [mem_idsToRemove h.nodup hn, isRemoved_of_container hcont, hbox, hroot]
  simp only [Bool.true_and, isSome_none, Bool.false_and, Bool.or_false, Bool.not_eq_true']
  rw [Bool.eq_false_iff, Ne, h.isOccupied_iff]
  simp only [hid, true_and, not_exists, not_and]

theorem mem_idsToRemove_sub (hn : n ∈ nodes) (hcont : n.isContainer)
    (hparent : n.parentId = some parentId) :
    n.id ∈ idsToRemove nodes ↔
      isHostBoxId nodes parentId ∧ ∀ m ∈ nodes, ¬Holds nodes parentId m := by
  have hbox : n.isHostBox = false := by
    rw [Bool.eq_false_iff, Ne, h.hostBox n hn hcont, hparent]
    exact nofun
  rw [mem_idsToRemove h.nodup hn, isRemoved_of_container hcont, h.walkToTop_eq hn hcont hparent, hbox,
    hparent]
  simp only [Bool.false_and, Bool.false_or, isSome_some, Bool.true_and, Bool.and_eq_true,
    Bool.not_eq_true']
  refine and_congr_right fun hid => ?_
  rw [Bool.eq_false_iff, Ne, h.isOccupied_iff]
  simp only [hid, true_and, not_exists, not_and]

theorem not_mem_idsToRemove_element (hn : n ∈ nodes) (helem : n.isContainer = false) :
    n.id ∉ idsToRemove nodes := by
  rw [mem_idsToRemove h.nodup hn, not_isRemoved_of_element helem]
  exact Bool.false_ne_true

end Boxed

theorem Layered.removal (hlayered : Layered nodes) (h : Boxed nodes) :
    Layered (nodes.filter fun n => n.id ∉ idsToRemove nodes) := by
  have hkeep : ∀ m ∈ nodes, m.id ∉ idsToRemove nodes →
      m ∈ nodes.filter fun n => n.id ∉ idsToRemove nodes :=
    fun m hm hkept => mem_filter.mpr ⟨hm, decide_eq_true hkept⟩
  refine ⟨hlayered.nodup.sublist (filter_sublist.map _), ?_, ?_⟩
  · intro n hn hcont parentId hparent
    obtain ⟨hn, hkept⟩ := mem_filter.mp hn
    obtain ⟨m, hm, rfl, hmcont, hroot⟩ := hlayered.container n hn hcont parentId hparent
    have hmbox := (h.hostBox m hm hmcont).mpr hroot
    refine ⟨m, hkeep m hm fun hremoved => ?_, rfl, hmcont, hroot⟩
    have hempty := (h.mem_idsToRemove_box hm hmbox).mp hremoved
    have hid : isHostBoxId nodes m.id = true := isHostBoxId_iff.mpr ⟨m, hm, hmbox, rfl⟩
    exact of_decide_eq_true hkept ((h.mem_idsToRemove_sub hn hcont hparent).mpr ⟨hid, hempty⟩)
  · intro n hn helem parentId hparent
    obtain ⟨hn, -⟩ := mem_filter.mp hn
    obtain ⟨m, hm, rfl, hmcont⟩ := hlayered.element n hn helem parentId hparent
    have hcontainer := (Node.containerId_eq_parentId helem).trans hparent
    refine ⟨m, hkeep m hm fun hremoved => ?_, rfl, hmcont⟩
    cases hmparent : m.parentId with
    | none =>
      have hempty := (h.mem_idsToRemove_box hm ((h.hostBox m hm hmcont).mpr hmparent)).mp hremoved
      exact hempty n hn ⟨m.id, hcontainer, .inl rfl⟩
    | some p =>
      have hempty := ((h.mem_idsToRemove_sub hm hmcont hmparent).mp hremoved).2
      exact hempty n hn ⟨m.id, hcontainer, .inr ⟨m, hm, hmcont, rfl, hmparent⟩⟩

theorem Layered.filter_elements (hlayered : Layered nodes) {p : Node → Bool}
    (hkeep : ∀ n ∈ nodes, n.isContainer → p n) : Layered (nodes.filter p) := by
  refine ⟨hlayered.nodup.sublist (filter_sublist.map _), ?_, ?_⟩
  · intro n hn hcont parentId hparent
    obtain ⟨m, hm, hid, hmcont, hroot⟩ :=
      hlayered.container n (mem_of_mem_filter hn) hcont parentId hparent
    exact ⟨m, mem_filter.mpr ⟨hm, hkeep m hm hmcont⟩, hid, hmcont, hroot⟩
  · intro n hn helem parentId hparent
    obtain ⟨m, hm, hid, hmcont⟩ :=
      hlayered.element n (mem_of_mem_filter hn) helem parentId hparent
    exact ⟨m, mem_filter.mpr ⟨hm, hkeep m hm hmcont⟩, hid, hmcont⟩

end Removed

section Kept
variable {nodes nodes' : List Node}

theorem Boxed.filter (h : Boxed nodes) (p : Node → Bool) : Boxed (nodes.filter p) where
  nodup := h.nodup.sublist (filter_sublist.map _)
  hostBox n hn := h.hostBox n (mem_of_mem_filter hn)
  flat n hn hcont m hm := h.flat n (mem_of_mem_filter hn) hcont m (mem_of_mem_filter hm)

theorem Boxed.of_shape (hshape : nodes'.map Node.shape = nodes.map Node.shape) (h : Boxed nodes) :
    Boxed nodes' where
  nodup := by
    rw [map_id_of_shape hshape]
    exact h.nodup
  hostBox n' hn' hcont := by
    obtain ⟨n, hn, -, hcont', hparent, hbox⟩ := exists_of_shape hshape.symm hn'
    rw [← hbox, ← hparent]
    exact h.hostBox n hn (hcont'.trans hcont)
  flat n' hn' hcont m' hm' hmcont hparent := by
    obtain ⟨n, hn, -, hcont', hparent', -⟩ := exists_of_shape hshape.symm hn'
    obtain ⟨m, hm, hmid, hmcont', hmparent, -⟩ := exists_of_shape hshape.symm hm'
    rw [← hmparent]
    rw [← hparent', ← hmid] at hparent
    exact h.flat n hn (hcont'.trans hcont) m hm (hmcont'.trans hmcont) hparent

end Kept

section Attached

theorem Node.shape_pushInlineGroup (g : InlineGroup) (n : Node) :
    (n.pushInlineGroup g).shape = n.shape := by
  obtain ⟨id, nodeType, header⟩ := n
  cases nodeType with
  | container data => rfl
  | element data => rfl

theorem shape_attachInlineGroup (nodeId : Uuid) (g : InlineGroup) (nodes : List Node) :
    (attachInlineGroup nodeId g nodes).map Node.shape = nodes.map Node.shape := by
  induction nodes with
  | nil => rfl
  | cons n nodes ih =>
    rw [attachInlineGroup]
    split
    · rw [map_cons, map_cons, Node.shape_pushInlineGroup]
    · rw [map_cons, map_cons, ih]

theorem shape_attachInlineGroups (decisions : Placements) (nodes : List Node) :
    (attachInlineGroups nodes decisions).map Node.shape = nodes.map Node.shape := by
  rw [attachInlineGroups]
  induction decisions generalizing nodes with
  | nil => rfl
  | cons e decisions ih =>
    obtain ⟨id, decision⟩ := e
    rw [foldl_cons, ih]
    dsimp only
    split
    · exact shape_attachInlineGroup _ _ nodes
    · rfl

end Attached

end Scanopy.Graph
