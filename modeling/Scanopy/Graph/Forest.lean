import Scanopy.Graph.BuildGraph
import Scanopy.Graph.Placing
import Scanopy.Lib.Ancestry
import Scanopy.Lib.Lookup

/-! Graphs as forests. The builders make two layers of containers: boxes that are in no container, and
the subcontainers of rules within them; every element is in one or the other. -/

namespace Scanopy.Graph

open List Bool Function

section Forests

def parentOf (nodes : List Node) (id : Uuid) : Option Uuid :=
  (nodes.find? fun n => n.id = id).bind (·.parentId)

structure TopologyGraph.IsForest (graph : TopologyGraph) : Prop where
  nodup : (graph.nodes.map (·.id)).Nodup
  parent_container : ∀ n ∈ graph.nodes, ∀ parentId, n.parentId = some parentId →
    ∃ m ∈ graph.nodes, m.id = parentId ∧ m.isContainer
  acyclic : Ancestry.Acyclic (parentOf graph.nodes)
  edge_ends : ∀ edge ∈ graph.edges,
    (∃ n ∈ graph.nodes, n.id = edge.source) ∧ ∃ n ∈ graph.nodes, n.id = edge.target

structure Layered (nodes : List Node) : Prop where
  nodup : (nodes.map (·.id)).Nodup
  container : ∀ n ∈ nodes, n.isContainer → ∀ parentId, n.parentId = some parentId →
    ∃ m ∈ nodes, m.id = parentId ∧ m.isContainer ∧ m.parentId = none
  element : ∀ n ∈ nodes, n.isContainer = false → ∀ parentId, n.parentId = some parentId →
    ∃ m ∈ nodes, m.id = parentId ∧ m.isContainer

variable {nodes : List Node}

def layer (nodes : List Node) (id : Uuid) : ℕ :=
  match nodes.find? fun n => n.id = id with
  | none => 0
  | some n => if n.isContainer then (if n.parentId = none then 0 else 1) else 2

theorem layer_of_mem {n : Node} (hnodup : (nodes.map (·.id)).Nodup) (hn : n ∈ nodes) :
    layer nodes n.id = if n.isContainer then (if n.parentId = none then 0 else 1) else 2 := by
  rw [layer, Lookup.find?_key_of_nodup hnodup hn]

theorem Layered.acyclic (h : Layered nodes) : Ancestry.Acyclic (parentOf nodes) := by
  refine Ancestry.acyclic_of_depth (layer nodes) fun id parentId hparent => ?_
  obtain ⟨n, hn, hparent⟩ := Option.bind_eq_some_iff.mp hparent
  obtain ⟨hmem, hid⟩ := Lookup.mem_of_find?_key hn
  rw [← hid, layer_of_mem h.nodup hmem]
  cases hcont : n.isContainer with
  | true =>
    obtain ⟨m, hm, rfl, hmcont, hroot⟩ := h.container n hmem hcont parentId hparent
    rw [layer_of_mem h.nodup hm]
    simp [hmcont, hroot, hparent]
  | false =>
    obtain ⟨m, hm, rfl, hmcont⟩ := h.element n hmem hcont parentId hparent
    rw [layer_of_mem h.nodup hm]
    simp only [hmcont, if_true, false_eq_true, if_false]
    split <;> omega

theorem Layered.parent_container (h : Layered nodes) {n : Node} (hn : n ∈ nodes) {parentId : Uuid}
    (hparent : n.parentId = some parentId) : ∃ m ∈ nodes, m.id = parentId ∧ m.isContainer := by
  cases hcont : n.isContainer with
  | true =>
    obtain ⟨m, hm, hid, hmcont, -⟩ := h.container n hn hcont parentId hparent
    exact ⟨m, hm, hid, hmcont⟩
  | false => exact h.element n hn hcont parentId hparent

theorem isForest_of_layered {edges : List Edge} (h : Layered nodes) :
    (⟨nodes, addEdgesToGraph nodes edges⟩ : TopologyGraph).IsForest where
  nodup := h.nodup
  parent_container _ hn _ hparent := h.parent_container hn hparent
  acyclic := h.acyclic
  edge_ends edge hedge := by
    have hends := (mem_filter.mp hedge).2
    simpa using hends

end Forests

section Shapes

/-- What the layers depend on. -/
def Node.shape (n : Node) : Uuid × Bool × Option Uuid × Bool :=
  (n.id, n.isContainer, n.parentId, n.isHostBox)

variable {nodes nodes' : List Node}

theorem exists_of_shape (h : nodes'.map Node.shape = nodes.map Node.shape) {n : Node}
    (hn : n ∈ nodes) :
    ∃ n' ∈ nodes', n'.id = n.id ∧ n'.isContainer = n.isContainer ∧ n'.parentId = n.parentId ∧
      n'.isHostBox = n.isHostBox := by
  have hmem : n.shape ∈ nodes'.map Node.shape := h ▸ mem_map_of_mem hn
  obtain ⟨n', hn', heq⟩ := mem_map.mp hmem
  simp only [Node.shape, Prod.mk.injEq] at heq
  exact ⟨n', hn', heq⟩

theorem map_id_of_shape (h : nodes'.map Node.shape = nodes.map Node.shape) :
    nodes'.map (·.id) = nodes.map (·.id) := by
  have hid := congrArg (List.map Prod.fst) h
  rw [map_map, map_map] at hid
  exact hid

theorem Layered.of_shape (hshape : nodes'.map Node.shape = nodes.map Node.shape)
    (h : Layered nodes) : Layered nodes' := by
  refine ⟨?_, ?_, ?_⟩
  · rw [map_id_of_shape hshape]
    exact h.nodup
  · intro n' hn' hcont parentId hparent
    obtain ⟨n, hn, -, hcont', hparent', -⟩ := exists_of_shape hshape.symm hn'
    obtain ⟨m, hm, hid, hmcont, hroot⟩ :=
      h.container n hn (hcont'.trans hcont) parentId (hparent'.trans hparent)
    obtain ⟨m', hm', hid', hmcont', hroot', -⟩ := exists_of_shape hshape hm
    exact ⟨m', hm', hid'.trans hid, hmcont'.trans hmcont, hroot'.trans hroot⟩
  · intro n' hn' helem parentId hparent
    obtain ⟨n, hn, -, helem', hparent', -⟩ := exists_of_shape hshape.symm hn'
    obtain ⟨m, hm, hid, hmcont⟩ :=
      h.element n hn (helem'.trans helem) parentId (hparent'.trans hparent)
    obtain ⟨m', hm', hid', hmcont', -⟩ := exists_of_shape hshape hm
    exact ⟨m', hm', hid'.trans hid, hmcont'.trans hmcont⟩

theorem shape_applyStackRuntimeLogos (nodes : List Node) (services : List Service) :
    (applyStackRuntimeLogos nodes services).map Node.shape = nodes.map Node.shape := by
  rw [applyStackRuntimeLogos, map_map]
  refine map_congr_left fun n _ => ?_
  obtain ⟨id, nodeType, header⟩ := n
  cases nodeType with
  | container data =>
    dsimp only [comp_apply]
    split <;> rfl
  | element data => rfl

end Shapes

section Reassigned
variable {reassignments : List (Uuid × Uuid)} {n : Node}

@[simp] theorem Node.reassign_id : (n.reassign reassignments).id = n.id := by
  rw [Node.reassign]
  split <;> rfl

@[simp] theorem Node.reassign_isContainer :
    (n.reassign reassignments).isContainer = n.isContainer := by
  obtain ⟨id, nodeType, header⟩ := n
  rw [Node.reassign]
  cases nodeType with
  | container data => rfl
  | element data => split <;> rfl

theorem Node.reassign_of_isContainer (h : n.isContainer) : n.reassign reassignments = n := by
  obtain ⟨id, nodeType, header⟩ := n
  cases nodeType with
  | container data => rfl
  | element data => exact nomatch h

theorem Node.reassign_parentId {parentId : Uuid}
    (h : (n.reassign reassignments).parentId = some parentId) :
    n.parentId = some parentId ∨ (n.isContainer = false ∧ (n.id, parentId) ∈ reassignments) := by
  obtain ⟨id, nodeType, header⟩ := n
  rw [Node.reassign] at h
  split at h
  · rename_i data containerId hdata hget
    obtain rfl := Option.some.inj h
    obtain rfl : nodeType = .element data := hdata
    exact .inr ⟨rfl, Inserts.mem_of_get hget⟩
  · exact .inl h

theorem Node.exists_parentId (h : n.isContainer = false) : ∃ parentId, n.parentId = some parentId := by
  obtain ⟨id, nodeType, header⟩ := n
  cases nodeType with
  | container data => exact nomatch h
  | element data => exact ⟨data.containerId, rfl⟩

theorem Node.exists_reassign_parentId (h : n.isContainer = false) :
    ∃ parentId, (n.reassign reassignments).parentId = some parentId ∧
      (n.parentId = some parentId ∨ (n.id, parentId) ∈ reassignments) := by
  have helem : (n.reassign reassignments).isContainer = false := Node.reassign_isContainer.trans h
  obtain ⟨parentId, hparent⟩ := Node.exists_parentId helem
  obtain hkept | ⟨-, hmoved⟩ := Node.reassign_parentId hparent
  · exact ⟨parentId, hparent, .inl hkept⟩
  · exact ⟨parentId, hparent, .inr hmoved⟩

theorem Node.containerId_eq_parentId (h : n.isContainer = false) : n.containerId = n.parentId := by
  obtain ⟨id, nodeType, header⟩ := n
  cases nodeType with
  | container data => exact nomatch h
  | element data => rfl

theorem Node.isContainer_of_containerId {containerId : Uuid} (h : n.containerId = some containerId) :
    n.isContainer = false := by
  obtain ⟨id, nodeType, header⟩ := n
  cases nodeType with
  | container data => exact nomatch h
  | element data => rfl

end Reassigned

section Rules

structure Rooted (nodes : List Node) : Prop where
  nodup : (nodes.map (·.id)).Nodup
  container : ∀ n ∈ nodes, n.isContainer → n.parentId = none
  element : ∀ n ∈ nodes, ∀ containerId, n.containerId = some containerId →
    ∃ m ∈ nodes, m.id = containerId ∧ m.isContainer

variable {input : RuleInput} {rules : List (IdentifiedRule ElementRule)}

variable {n : Node} {containerId : Uuid}

theorem mem_applyElementRules : n ∈ (applyElementRules input rules).1 ↔
    (∃ m ∈ input.nodes, m.reassign (input.runRules rules).reassignments = n) ∨
      n ∈ (input.runRules rules).newContainers := by
  rw [applyElementRules]
  exact mem_append.trans (or_congr_left mem_map)

theorem matchData_of_mem (hnodup : (input.nodes.map (·.id)).Nodup) (hn : n ∈ input.nodes)
    (helem : n.isContainer = false) : input.matchData n.id = input.resolveElement n := by
  rw [RuleInput.matchData]
  cases hfind : input.nodes.find? fun m => !m.isContainer && m.id = n.id with
  | none => exact absurd (by simp [helem]) (find?_eq_none.mp hfind n hn)
  | some m =>
    have hm := find?_some hfind
    simp only [and_eq_true, decide_eq_true_eq] at hm
    rw [inj_on_of_nodup_map hnodup (mem_of_find?_eq_some hfind) hn hm.2, Option.bind_some]

theorem map_id_applyElementRules : (applyElementRules input rules).1.map (·.id) =
    input.nodes.map (·.id) ++ (input.runRules rules).newContainers.map (·.id) := by
  rw [applyElementRules, map_append, map_map]
  simp only [comp_def, Node.reassign_id]

theorem nodup_applyElementRules (hnodup : (input.nodes.map (·.id)).Nodup)
    (hrules : (rules.map (·.id)).Nodup)
    (hnames : Set.InjOn input.env.newV5 (input.MadeNames rules))
    (hfresh : ∀ name ∈ input.MadeNames rules, ∀ n ∈ input.nodes, n.id ≠ input.env.newV5 name) :
    ((applyElementRules input rules).1.map (·.id)).Nodup := by
  rw [map_id_applyElementRules, nodup_append]
  refine ⟨hnodup, RuleInput.nodup_newContainers hrules hnames, ?_⟩
  intro id hid id' hid' heq
  obtain ⟨n, hn, rfl⟩ := mem_map.mp hid
  obtain ⟨c, hc, rfl⟩ := mem_map.mp hid'
  obtain ⟨-, r, hr, g, hg, hcid, -⟩ := RuleInput.exists_group_of_mem_newContainers hc
  exact hfresh _ ⟨r, hr, g, hg, rfl⟩ n hn (heq.trans hcid)

theorem layered_applyElementRules (h : Rooted input.nodes) (hrules : (rules.map (·.id)).Nodup)
    (hnames : Set.InjOn input.env.newV5 (input.MadeNames rules))
    (hfresh : ∀ name ∈ input.MadeNames rules, ∀ n ∈ input.nodes, n.id ≠ input.env.newV5 name) :
    Layered (applyElementRules input rules).1 := by
  have hkept : ∀ m ∈ input.nodes, m.isContainer → m ∈ (applyElementRules input rules).1 := by
    intro m hm hcont
    exact mem_applyElementRules.mpr (.inl ⟨m, hm, Node.reassign_of_isContainer hcont⟩)
  -- the container of an element before the rules is there after them
  have hroot : ∀ id parentId, input.IsIn id parentId →
      ∃ m ∈ (applyElementRules input rules).1, m.id = parentId ∧ m.isContainer ∧ m.parentId = none := by
    rintro id parentId ⟨n, hn, hparent, -⟩
    obtain ⟨m, hm, hid, hcont⟩ := h.element n hn parentId hparent
    exact ⟨m, hkept m hm hcont, hid, hcont, h.container m hm hcont⟩
  refine ⟨nodup_applyElementRules h.nodup hrules hnames hfresh, ?_, ?_⟩
  · intro n hn hcont parentId hparent
    obtain ⟨m, hm, rfl⟩ | hn := mem_applyElementRules.mp hn
    · rw [Node.reassign_isContainer] at hcont
      obtain hparent | ⟨helem, -⟩ := Node.reassign_parentId hparent
      · rw [h.container m hm hcont] at hparent
        exact nomatch hparent
      · rw [helem] at hcont
        exact nomatch hcont
    · obtain ⟨-, r, -, g, ⟨id, d, hin, -⟩, -, hg⟩ := RuleInput.exists_group_of_mem_newContainers hn
      rw [hparent] at hg
      obtain rfl := Option.some.inj hg
      exact hroot id g.parentId hin
  · intro n hn helem parentId hparent
    obtain ⟨m, hm, rfl⟩ | hn := mem_applyElementRules.mp hn
    · rw [Node.reassign_isContainer] at helem
      obtain hparent | ⟨-, hmoved⟩ := Node.reassign_parentId hparent
      · rw [← Node.containerId_eq_parentId helem] at hparent
        obtain ⟨m', hm', hid, hcont, -⟩ := hroot m.id parentId ⟨m, hm, hparent, rfl⟩
        exact ⟨m', hm', hid, hcont⟩
      · obtain ⟨c, hc, hid, -⟩ := RuleInput.exists_container_of_mem_reassignments hmoved
        exact ⟨c, mem_applyElementRules.mpr (.inr hc), hid,
          (RuleInput.exists_group_of_mem_newContainers hc).1⟩
    · rw [(RuleInput.exists_group_of_mem_newContainers hn).1] at helem
      exact nomatch helem

theorem reassign_cases (hcontainer : n.containerId = some containerId)
    (hunique : ∀ parentId, input.IsIn n.id parentId → parentId = containerId) :
    (n.reassign (input.runRules rules).reassignments).parentId = some containerId ∨
      ∃ c ∈ (input.runRules rules).newContainers,
        (n.reassign (input.runRules rules).reassignments).parentId = some c.id ∧
          c.parentId = some containerId := by
  have helem := Node.isContainer_of_containerId hcontainer
  obtain ⟨parentId, hparent, hkept | hmoved⟩ := Node.exists_reassign_parentId helem
  · rw [← Node.containerId_eq_parentId helem, hcontainer] at hkept
    exact .inl (hparent.trans hkept.symm)
  · obtain ⟨c, hc, rfl, parentId', hcparent, hin⟩ :=
      RuleInput.exists_container_of_mem_reassignments hmoved
    rw [hunique parentId' hin] at hcparent
    exact .inr ⟨c, hc, hparent, hcparent⟩

theorem exists_container_of_parents
    (hparents : ∀ n ∈ (applyElementRules input rules).1, ∀ parentId, n.parentId = some parentId →
      ∃ m ∈ (applyElementRules input rules).1, m.id = parentId ∧ m.isContainer)
        (hn : n ∈ input.nodes) (hcontainer : n.containerId = some containerId)
    (hunique : ∀ parentId, input.IsIn n.id parentId → parentId = containerId) :
    ∃ m ∈ (applyElementRules input rules).1, m.id = containerId ∧ m.isContainer := by
  obtain hkept | ⟨c, hc, -, hcparent⟩ := @reassign_cases input rules n containerId hcontainer hunique
  · exact hparents _ (mem_applyElementRules.mpr (.inl ⟨n, hn, rfl⟩)) containerId hkept
  · exact hparents c (mem_applyElementRules.mpr (.inr hc)) containerId hcparent

end Rules

end Scanopy.Graph
