import Scanopy.Viewer.FlowEdges

/-! Whether a drawing shows every edge once: as itself, in a bundle, or among the originals of an
aggregated edge, which goes by the outermost collapsed ancestors of the endpoints. -/

namespace Scanopy

open List BuildFlowEdgesParams

variable {nodes : List ViewNode} {n : ViewNode}

theorem find?_id_of_mem (hnodup : (nodes.map (·.id)).Nodup)
    (hn : n ∈ nodes) : nodes.find? (fun m => m.id = n.id) = some n := by
  induction nodes with
  | nil => exact nomatch hn
  | cons m nodes ih =>
    obtain ⟨hm, hnodup⟩ := nodup_cons.mp hnodup
    obtain rfl | hn := mem_cons.mp hn
    · exact find?_cons_of_pos (by simp)
    · have hne : m.id ≠ n.id := fun h => hm (mem_map.mpr ⟨n, hn, h.symm⟩)
      rw [find?_cons_of_neg (by simpa using hne)]
      exact ih hnodup hn

theorem parentIn_of_mem (hnodup : (nodes.map (·.id)).Nodup)
    (hn : n ∈ nodes) : parentIn nodes n.id = n.parentId := by
  rw [parentIn, find?_id_of_mem hnodup hn, Option.bind_some]

theorem mem_ids_of_parentIn (id p : String)
    (h : parentIn nodes id = some p) : id ∈ nodes.map (·.id) := by
  obtain ⟨n, hn, -⟩ := Option.bind_eq_some_iff.mp h
  have hid : n.id = id := by simpa using find?_some hn
  exact hid ▸ mem_map_of_mem (mem_of_find?_eq_some hn)

section Lists
variable {A B : Type*}
variable {a : A} {b : B} {l : List A} {C : Type*} {f : ℕ → A → B}

theorem flatMap_mapIdx_of_forall {g : B → List C}
    {h : A → List C} (hfg : ∀ i, ∀ a ∈ l, g (f i a) = h a) : (l.mapIdx f).flatMap g = l.flatMap h := by
  induction l generalizing f with
  | nil => rfl
  | cons a l ih =>
    rw [mapIdx_cons, flatMap_cons, flatMap_cons, hfg 0 a mem_cons_self,
      ih fun i b hb => hfg (i + 1) b (mem_cons_of_mem _ hb)]

theorem exists_mem_mapIdx (f : ℕ → A → B) (ha : a ∈ l) :
    ∃ i, f i a ∈ l.mapIdx f := by
  obtain ⟨i, hi, rfl⟩ := mem_iff_getElem.mp ha
  exact ⟨i, mem_mapIdx.mpr ⟨i, hi, rfl⟩⟩

theorem exists_of_mem_mapIdx (hb : b ∈ l.mapIdx f) :
    ∃ i, ∃ a ∈ l, f i a = b := by
  obtain ⟨i, hi, heq⟩ := mem_mapIdx.mp hb
  exact ⟨i, l[i], getElem_mem hi, heq⟩

theorem flatMap_filterMap (f : A → Option B) (g : B → List C) (l : List A) :
    (l.filterMap f).flatMap g = l.flatMap fun a => ((f a).map g).getD [] := by
  induction l with
  | nil => rfl
  | cons a l ih =>
    rw [flatMap_cons, ← ih]
    cases hf : f a with
    | none => rw [filterMap_cons_none hf, Option.map_none, Option.getD_none, nil_append]
    | some b =>
      rw [filterMap_cons_some hf, flatMap_cons, Option.map_some, Option.getD_some]

theorem lookup_of_mem [DecidableEq A] {l : List (A × B)} (hnodup : (l.map Prod.fst).Nodup)
    (h : (a, b) ∈ l) : l.lookup a = some b := by
  induction l with
  | nil => exact nomatch h
  | cons p l ih =>
    obtain ⟨hp, hnodup⟩ := nodup_cons.mp hnodup
    obtain rfl | h := mem_cons.mp h
    · exact lookup_cons_self
    · have hne : a ≠ p.1 := by
        rintro rfl
        exact hp (mem_map.mpr ⟨_, h, rfl⟩)
      rw [lookup_cons, beq_false_of_ne hne]
      exact ih hnodup h

theorem count_map_filter [DecidableEq B] {key : A → B} (hnodup : (l.map key).Nodup) (ha : a ∈ l)
    (p : A → Bool) :
    ((l.filter p).map key).count (key a) = if p a then 1 else 0 := by
  have hsub : ((l.filter p).map key).Sublist (l.map key) := filter_sublist.map key
  split
  · rename_i hp
    exact count_eq_one_of_mem (hnodup.sublist hsub)
      (mem_map_of_mem (mem_filter.mpr ⟨ha, hp⟩))
  · rename_i hp
    refine count_eq_zero_of_not_mem fun hmem => hp ?_
    obtain ⟨b, hb, hkey⟩ := mem_map.mp hmem
    obtain ⟨hb, hpb⟩ := mem_filter.mp hb
    exact inj_on_of_nodup_map hnodup hb ha hkey ▸ hpb

end Lists

section Elevation

theorem elevateEdge_id {acceptsEdges : Finset String} {nodes : List ViewNode} {e e' : ViewEdge}
    (h : elevateEdge acceptsEdges nodes e = some e') : e'.id = e.id := by
  unfold elevateEdge at h
  dsimp only at h
  split at h
  · rw [Option.some.inj h]
  · split at h
    · exact nomatch h
    · rw [← Option.some.inj h]

theorem elevateEdges_ids_sublist (acceptsEdges : Finset String) (nodes : List ViewNode)
    (edges : List ViewEdge) :
    ((elevateEdgesToContainers acceptsEdges nodes edges).map (·.id)).Sublist
      (edges.map (·.id)) := by
  unfold elevateEdgesToContainers
  split
  · exact .refl _
  · rename_i hmap
    clear hmap
    induction edges with
    | nil => exact .refl _
    | cons e edges ih =>
      cases he : elevateEdge acceptsEdges nodes e with
      | none =>
        rw [filterMap_cons_none he]
        exact ih.cons _
      | some e' =>
        rw [filterMap_cons_some he, map_cons, map_cons, elevateEdge_id he]
        exact ih.cons_cons _

theorem FlowInput.elevatedEdges_nodup (input : FlowInput) :
    (input.elevatedEdges.map (·.id)).Nodup := by
  have hsub := elevateEdges_ids_sublist input.acceptsEdges input.layoutNodes input.edges
  exact input.edges_nodup.sublist ((filter_sublist.map _).trans hsub)

end Elevation

section Bundles
variable (toContainer : String → Option String)

theorem bundleOf_eq {key : BundleKey} {edges : List ViewEdge} {b : BundledEdge}
    (h : bundleOf toContainer key edges = some b) : b.edges = edges ∧ 2 ≤ edges.length := by
  unfold bundleOf at h
  split at h
  · rw [← Option.some.inj h]
    exact ⟨rfl, by simp⟩
  · exact nomatch h

theorem bundleOf_isSome (key : BundleKey) (edges : List ViewEdge) :
    (bundleOf toContainer key edges).isSome = !decide (edges.length < 2) := by
  match edges with
  | [] => rfl
  | [_] => rfl
  | _ :: _ :: _ => simp [bundleOf]

theorem bundleEdges_perm (edges : List ViewEdge) :
    ((bundleEdges toContainer edges).2 ++
      (bundleEdges toContainer edges).1.flatMap (·.edges)).Perm edges := by
  have hgroups : ((bundleGroups toContainer edges).flatMap Prod.snd).Perm
      (edges.filter (isBundled toContainer)) := Groups.groupOn_perm _ _
  -- a group goes as a whole to one of the two
  have hsplit : (bundleGroups toContainer edges).flatMap Prod.snd =
      (bundleGroups toContainer edges).flatMap fun g =>
        (if g.2.length < 2 then g.2 else []) ++
          ((bundleOf toContainer g.1 g.2).map (·.edges)).getD [] := by
    refine flatMap_congr fun g _ => ?_
    have hsome := bundleOf_isSome toContainer g.1 g.2
    cases hb : bundleOf toContainer g.1 g.2 with
    | none =>
      rw [hb] at hsome
      have hlt : g.2.length < 2 := by simpa using hsome
      simp [hlt]
    | some b =>
      obtain ⟨heq, hlen⟩ := bundleOf_eq toContainer hb
      simp [heq, Nat.not_lt.mpr hlen]
  rw [bundleEdges, flatMap_filterMap, append_assoc]
  refine (Perm.append_left _ (flatMap_append_perm _ _ _)).trans ?_
  rw [← hsplit]
  refine (hgroups.append_left _).trans ?_
  refine perm_append_comm.trans ?_
  exact filter_append_perm _ _

end Bundles

namespace FlowInput
variable (input : FlowInput)

def parent : String → Option String := parentIn input.topology.nodes

def Represents (id r : String) : Prop :=
  Ancestry.Represents input.parent (· ∈ input.collapsed) id r

def Hides (id : String) : Prop := Ancestry.Hidden input.parent (· ∈ input.collapsed) id

def shows (e : ViewEdge) : Bool := e.edgeType ∉ input.hiddenEdgeTypes

def Touches (e : ViewEdge) : Prop :=
  (∃ a ∈ input.collapsed, Ancestry.AtOrAbove input.parent e.source a) ∨
    ∃ a ∈ input.collapsed, Ancestry.AtOrAbove input.parent e.target a

/-- The endpoints have different representatives. -/
def Crosses (e : ViewEdge) : Prop :=
  ∀ r r', input.Represents e.source r → input.Represents e.target r' → r ≠ r'

section Representatives
variable {input} {id r : String} {e : ViewEdge}

theorem resolve_eq_some :
    resolveCollapsedAncestor input.collapsed input.topology.nodes id = some r ↔
      Ancestry.Outermost input.parent (· ∈ input.collapsed) id r :=
  Ancestry.outermost_eq_some input.acyclic mem_ids_of_parentIn

theorem resolve_eq_none :
    resolveCollapsedAncestor input.collapsed input.topology.nodes id = none ↔
      ∀ a, Ancestry.AtOrAbove input.parent id a → a ∉ input.collapsed :=
  Ancestry.outermost_eq_none input.acyclic mem_ids_of_parentIn

theorem resolve_isSome :
    (resolveCollapsedAncestor input.collapsed input.topology.nodes id).isSome ↔
      ∃ a ∈ input.collapsed, Ancestry.AtOrAbove input.parent id a := by
  rw [← Option.ne_none_iff_isSome, Ne, resolve_eq_none]
  push Not
  exact exists_congr fun a => and_comm

theorem represents_iff :
    input.Represents id r ↔ collapsedEndpoint input.collapsed input.topology.nodes id = r := by
  unfold collapsedEndpoint Represents Ancestry.Represents
  rw [← resolve_eq_some, ← resolve_eq_none]
  cases resolveCollapsedAncestor input.collapsed input.topology.nodes id with
  | none => simp [eq_comm]
  | some r' => simp

theorem crosses_iff :
    input.Crosses e ↔ collapsedEndpoint input.collapsed input.topology.nodes e.source ≠
      collapsedEndpoint input.collapsed input.topology.nodes e.target := by
  constructor
  · exact fun h => h _ _ (represents_iff.mpr rfl) (represents_iff.mpr rfl)
  · intro h r r' hr hr'
    rw [← represents_iff.mp hr, ← represents_iff.mp hr']
    exact h

theorem isRemapped_iff :
    isRemapped input.collapsed input.topology.nodes e ↔ input.Touches e ∧ input.Crosses e := by
  rw [isRemapped, Bool.and_eq_true, Bool.or_eq_true, resolve_isSome, resolve_isSome, crosses_iff,
    decide_eq_true_eq]
  rfl

theorem Crosses.ne (h : input.Crosses e) : e.source ≠ e.target := fun heq =>
  crosses_iff.mp h (congrArg _ heq)

end Representatives

section Aggregates

theorem filter_flatMap_snd {K A : Type*} (groups : List (K × List A)) :
    (groups.filter fun g => !g.2.isEmpty).flatMap Prod.snd = groups.flatMap Prod.snd := by
  induction groups with
  | nil => rfl
  | cons g groups ih =>
    cases hg : g.2 with
    | nil => simp [hg, ih]
    | cons a as => simp [hg, ih]

def isAggregated (e : ViewEdge) : Bool :=
  isRemapped input.collapsed input.topology.nodes e && input.shows e

theorem collapsedGroups_perm :
    ((collapsedGroups input.collapsed input.topology.nodes input.elevatedEdges
      input.hiddenEdgeTypes).flatMap Prod.snd).Perm
      (input.elevatedEdges.filter input.isAggregated) := by
  unfold collapsedGroups
  dsimp only
  rw [filter_flatMap_snd, flatMap_map]
  have hperm := Groups.groupOn_perm (aggregateKey input.collapsed input.topology.nodes)
    (input.elevatedEdges.filter (isRemapped input.collapsed input.topology.nodes))
  have hfilter := hperm.filter input.shows
  rw [filter_flatMap, filter_filter] at hfilter
  have hswap : (fun e => input.shows e && isRemapped input.collapsed input.topology.nodes e) =
      input.isAggregated := by
    funext e
    exact Bool.and_comm _ _
  rw [hswap] at hfilter
  exact hfilter

theorem not_isAggregated_of_empty (h : input.collapsed = ∅) (e : ViewEdge) :
    input.isAggregated e = false := by
  have hnot : ¬isRemapped input.collapsed input.topology.nodes e := by
    rw [isRemapped_iff]
    rintro ⟨⟨a, ha, -⟩ | ⟨a, ha, -⟩, -⟩
    · exact absurd (h ▸ ha) (Finset.notMem_empty a)
    · exact absurd (h ▸ ha) (Finset.notMem_empty a)
  rw [isAggregated, Bool.eq_false_iff.mpr hnot, Bool.false_and]

theorem aggregatedEdges_perm :
    (input.aggregatedEdges.flatMap (·.originalEdges)).Perm
      (input.elevatedEdges.filter input.isAggregated) := by
  unfold aggregatedEdges computeCollapsedEdges
  split
  · rename_i h
    rw [filter_eq_nil_iff.mpr fun e _ => by simp [input.not_isAggregated_of_empty h e]]
    rfl
  · refine .trans (.of_eq ?_) input.collapsedGroups_perm
    exact flatMap_mapIdx_of_forall fun _ _ _ => rfl

theorem aggregatedEdges_ids_nodup : (input.aggregatedEdges.map (·.id)).Nodup := by
  unfold aggregatedEdges computeCollapsedEdges
  split
  · exact .nil
  · rw [mapIdx_eq_zipIdx_map, map_map]
    refine List.Nodup.of_map (fun id => match id with | .edge i => i | .collapsedEdge i => i) ?_
    rw [map_map]
    have hidx : (fun id => match id with | .edge i => i | .collapsedEdge i => i) ∘
        (fun agg : AggregatedEdge => agg.id) ∘ (fun x : ((String × String) × List ViewEdge) × ℕ =>
          (⟨.collapsedEdge x.2, x.1.1.1, x.1.1.2, x.1.2.length, x.1.2⟩ : AggregatedEdge)) =
        Prod.snd := rfl
    rw [hidx, zipIdx_map_snd]
    exact nodup_range'

theorem aggregatedEdges_spec {agg : AggregatedEdge} (h : agg ∈ input.aggregatedEdges) :
    agg.originalEdges ≠ [] ∧ ¬input.Hides agg.source ∧ ¬input.Hides agg.target := by
  unfold aggregatedEdges computeCollapsedEdges at h
  split at h
  · exact nomatch h
  obtain ⟨i, hi, rfl⟩ := mem_mapIdx.mp h
  have hg := getElem_mem hi
  generalize (collapsedGroups _ _ _ _)[i] = g at hg
  obtain ⟨hg, hne⟩ := mem_filter.mp hg
  obtain ⟨g', hg', rfl⟩ := mem_map.mp hg
  obtain ⟨hne', hkey⟩ := Groups.groupOn_spec hg'
  obtain ⟨e, he⟩ := exists_mem_of_ne_nil _ hne'
  have hsource : ∀ id, ¬input.Hides (collapsedEndpoint input.collapsed input.topology.nodes id) :=
    fun id => (represents_iff.mpr rfl).not_hidden
  refine ⟨by simpa using hne, ?_⟩
  dsimp only
  rw [← hkey e he, aggregateKey, sortedPair]
  split
  · exact ⟨hsource _, hsource _⟩
  · exact ⟨hsource _, hsource _⟩

end Aggregates

end FlowInput

namespace BuildFlowEdgesResult
variable (result : BuildFlowEdgesResult)

def represents (f : FlowEdge) : List ViewEdge :=
  match f.kind with
  | .plain => f.edge.toList
  | .fanned .. => f.edge.toList
  | .bundle _ _ edges => edges
  | .aggregated _ => (result.originalsMap.lookup f.id).getD []

def represented : List ViewEdge := result.flowEdges.flatMap result.represents

end BuildFlowEdgesResult

def FlowEdge.isCounting (f : FlowEdge) : Bool :=
  match f.kind with
  | .plain => false
  | .fanned .. => false
  | .bundle .. => true
  | .aggregated _ => true

namespace FlowInput
variable (input : FlowInput)

section Drawing

def behind : ViewEdge × FlowEdgeKind → List ViewEdge
  | (_, .bundle _ _ edges) => edges
  | (_, .aggregated _) => []
  | (e, _) => [e]

theorem behind_drawBundle (expanded : Finset BundleKey) (b : BundledEdge) :
    (drawBundle expanded b).flatMap behind = b.edges := by
  unfold drawBundle
  split
  · rw [flatMap_mapIdx_of_forall (h := fun e => [e]) fun _ _ _ => rfl, flatMap_singleton']
  · cases hb : b.edges with
    | nil => rfl
    | cons e edges => simp [behind]

theorem behind_drawnEdges :
    (input.params.drawnEdges.flatMap behind).Perm input.params.visibleEdges := by
  have hplain : ∀ edges : List ViewEdge,
      (edges.map (·, FlowEdgeKind.plain)).flatMap behind = edges := by
    intro edges
    rw [flatMap_map]
    exact flatMap_singleton' edges
  unfold drawnEdges
  split
  · dsimp only
    rw [flatMap_append, hplain, flatMap_assoc]
    simp only [behind_drawBundle]
    exact bundleEdges_perm _ _
  · rw [hplain]

variable {d : ViewEdge × FlowEdgeKind}

theorem mem_behind_of_mem_drawnEdges
    (h : d ∈ input.params.drawnEdges) : d.1 ∈ behind d := by
  unfold drawnEdges at h
  split at h
  · dsimp only at h
    obtain h | h := mem_append.mp h
    · obtain ⟨e, -, rfl⟩ := mem_map.mp h
      exact mem_singleton_self e
    · obtain ⟨b, -, h⟩ := mem_flatMap.mp h
      unfold drawBundle at h
      split at h
      · obtain ⟨i, hi, rfl⟩ := mem_mapIdx.mp h
        exact mem_singleton_self _
      · split at h
        · exact nomatch h
        · rename_i representative rest hedges
          rw [mem_singleton.mp h, hedges]
          exact mem_cons_self
  · obtain ⟨e, -, rfl⟩ := mem_map.mp h
    exact mem_singleton_self e

theorem mem_visibleEdges_of_behind
    (h : d ∈ input.params.drawnEdges) {e : ViewEdge} (he : e ∈ behind d) :
    e ∈ input.params.visibleEdges :=
  input.behind_drawnEdges.mem_iff.mp (mem_flatMap.mpr ⟨d, h, he⟩)

theorem represents_createFlowEdge (h : d.1 ∈ behind d)
    (result : BuildFlowEdgesResult) (index : ℕ) :
    result.represents (createFlowEdge d.1 d.2 index) = behind d := by
  obtain ⟨e, kind⟩ := d
  cases kind with
  | plain => rfl
  | fanned => rfl
  | bundle => rfl
  | aggregated => exact nomatch h

theorem aggregatedEdges_of_not_aggregates (h : input.params.aggregates = false) :
    input.aggregatedEdges = [] := by
  rw [aggregates, Bool.and_eq_false_iff] at h
  obtain h | h := h
  · have hempty : input.params.collapsed = ∅ := by simpa using h
    exact if_pos hempty
  · have hempty : input.params.aggregatedEdges = [] := by simpa using h
    exact hempty

theorem represents_aggregated (h : input.params.aggregates = true) {agg : AggregatedEdge}
    (hagg : agg ∈ input.aggregatedEdges) (index : ℕ) :
    input.drawing.represents (createAggregatedFlowEdge index agg) = agg.originalEdges := by
  have hmap : input.drawing.originalsMap =
      input.aggregatedEdges.map fun agg => (agg.id, agg.originalEdges) := if_pos h
  have hnodup : (input.drawing.originalsMap.map Prod.fst).Nodup := by
    rw [hmap, map_map]
    exact input.aggregatedEdges_ids_nodup
  have hmem : (agg.id, agg.originalEdges) ∈ input.drawing.originalsMap := by
    rw [hmap]
    exact mem_map_of_mem hagg
  show (input.drawing.originalsMap.lookup agg.id).getD [] = agg.originalEdges
  rw [lookup_of_mem hnodup hmem, Option.getD_some]

theorem represented_perm :
    input.drawing.represented.Perm (input.params.visibleEdges ++ input.params.hiddenEdges ++
      input.elevatedEdges.filter input.isAggregated) := by
  have hdrawn : ∀ d ∈ input.params.drawnEdges ++
      input.params.hiddenEdges.map (·, FlowEdgeKind.plain), d.1 ∈ behind d := by
    intro d hd
    obtain hd | hd := mem_append.mp hd
    · exact input.mem_behind_of_mem_drawnEdges hd
    · obtain ⟨e, -, rfl⟩ := mem_map.mp hd
      exact mem_singleton_self e
  have hextra : input.params.extraFlowEdges.flatMap input.drawing.represents =
      input.aggregatedEdges.flatMap (·.originalEdges) := by
    unfold extraFlowEdges
    split
    · rename_i h
      exact flatMap_mapIdx_of_forall fun i agg hagg => input.represents_aggregated h hagg i
    · rename_i h
      rw [input.aggregatedEdges_of_not_aggregates (by simpa using h)]
      rfl
  show ((List.mapIdx _ _ ++ _).flatMap _).Perm _
  rw [flatMap_append, hextra, flatMap_mapIdx_of_forall (h := behind)
    (fun i d hd => represents_createFlowEdge (hdrawn d hd) _ i), flatMap_append]
  refine .append (.append input.behind_drawnEdges ?_) input.aggregatedEdges_perm
  rw [flatMap_map]
  exact .of_eq (flatMap_singleton' _)

def isCaught (e : ViewEdge) : Bool :=
  input.params.inCollapsed e.source || input.params.inCollapsed e.target

def isBase (e : ViewEdge) : Bool := !(input.params.aggregates && input.isCaught e)

theorem nonDisabledEdges_eq : input.params.nonDisabledEdges =
    input.elevatedEdges.filter fun e => input.isBase e && !e.isDisabledEdge := by
  unfold nonDisabledEdges baseEdges isBase isCaught
  split
  · rename_i h
    rw [filter_filter]
    refine filter_congr fun e _ => ?_
    rw [h, Bool.true_and, Bool.not_or, Bool.and_comm]
  · rename_i h
    rw [Bool.eq_false_iff.mpr h]
    simp [params]

def isVisible (e : ViewEdge) : Bool :=
  input.isBase e && !e.isDisabledEdge && input.shows e && e.source ≠ e.target

theorem visibleEdges_eq : input.params.visibleEdges =
    (input.elevatedEdges.filter input.isVisible).map input.params.stripLabel := by
  rw [visibleEdges, nonDisabledEdges_eq, filter_filter, filter_filter]
  congr 2
  funext e
  rw [Bool.eq_iff_iff]
  simp only [isVisible, shows, Bool.and_eq_true, decide_eq_true_eq]
  simp only [params]
  tauto

theorem hiddenEdges_eq : input.params.hiddenEdges =
    input.elevatedEdges.filter fun e => input.isBase e && !e.isDisabledEdge && !input.shows e := by
  rw [hiddenEdges, nonDisabledEdges_eq, filter_filter]
  refine filter_congr fun e _ => ?_
  rw [Bool.eq_iff_iff]
  simp only [shows, Bool.and_eq_true, Bool.not_eq_true', decide_eq_true_eq,
    decide_eq_false_iff_not, not_not]
  simp only [params]
  tauto

end Drawing

section Containers
variable {input} {id c : String}

theorem mem_nodes_of_mem_layoutNodes {n : ViewNode} (h : n ∈ input.layoutNodes) :
    n ∈ input.topology.nodes :=
  mem_of_mem_filter (mem_of_mem_filter h)

theorem elementToContainer_spec (h : elementToContainer input.layoutNodes id = some c) :
    c = id ∨ input.parent id = some c := by
  obtain ⟨n, hfind, hc⟩ := Option.bind_eq_some_iff.mp h
  have hid : n.id = id := by simpa using find?_some hfind
  have hn := mem_nodes_of_mem_layoutNodes (mem_of_find?_eq_some hfind)
  cases htype : n.nodeType with
  | element =>
    rw [htype] at hc
    rw [parent, ← hid, parentIn_of_mem input.nodup hn]
    exact .inr hc
  | container =>
    rw [htype] at hc
    exact .inl (hid ▸ (Option.some.inj hc).symm)

theorem inCollapsed_iff : input.params.inCollapsed id = true ↔
    ∃ c, elementToContainer input.layoutNodes id = some c ∧ c ∈ input.collapsed := by
  show Option.any _ _ = true ↔ _
  rw [Option.any_eq_true]
  exact exists_congr fun c => and_congr_right fun _ => decide_eq_true_iff

theorem resolves_of_inCollapsed (h : input.params.inCollapsed id = true) :
    ∃ a ∈ input.collapsed, Ancestry.AtOrAbove input.parent id a := by
  obtain ⟨c, hc, hmem⟩ := inCollapsed_iff.mp h
  refine ⟨c, hmem, Ancestry.atOrAbove_iff.mpr ?_⟩
  exact (elementToContainer_spec hc).imp_right .of_parent

theorem touches_of_isCaught {e : ViewEdge} (h : input.isCaught e = true) : input.Touches e := by
  rw [isCaught, Bool.or_eq_true] at h
  exact h.imp resolves_of_inCollapsed resolves_of_inCollapsed

theorem Hides.of_above {a : String} (h : input.Hides a) (ha : Ancestry.AtOrAbove input.parent id a) :
    input.Hides id := by
  obtain ⟨b, hb, hmem⟩ := h
  exact ⟨b, Relation.TransGen.trans_right ha hb, hmem⟩

theorem Hides.of_container (h : input.Hides c)
    (hc : elementToContainer input.layoutNodes id = some c) : input.Hides id :=
  h.of_above (Ancestry.atOrAbove_iff.mpr ((elementToContainer_spec hc).imp_right .of_parent))

theorem Hides.container (h : input.Hides id)
    (hc : elementToContainer input.layoutNodes id = some c) : c ∈ input.collapsed ∨ input.Hides c := by
  obtain rfl | hparent := elementToContainer_spec hc
  · exact .inr h
  · obtain ⟨a, ha, hmem⟩ := h
    obtain rfl | ha := Ancestry.atOrAbove_iff.mp ((Ancestry.above_iff_of_parent hparent).mp ha)
    · exact .inl hmem
    · exact .inr ⟨a, ha, hmem⟩

/-- Of two edges between the same two containers, the second has a hidden endpoint if the first has
one, unless the first leaves a collapsed container that nothing hides. -/
theorem hides_of_sameContainers {x x' y y' c' : String}
    (hx : elementToContainer input.layoutNodes x = some c)
    (hx' : elementToContainer input.layoutNodes x' = some c')
    (hy : elementToContainer input.layoutNodes y = some c)
    (hy' : elementToContainer input.layoutNodes y' = some c') (hne : c ≠ c')
    (hhides : input.Hides x)
    (hsame : c ∈ input.collapsed → ¬input.Hides c → Ancestry.AtOrAbove input.parent x' c) :
    input.Hides y ∨ input.Hides y' := by
  obtain hmem | hc := hhides.container hx
  · by_cases hc : input.Hides c
    · exact .inl (hc.of_container hy)
    obtain hyc | hyc := elementToContainer_spec hy
    · -- the other edge ends at the collapsed container itself
      subst hyc
      refine .inr (Hides.of_container ?_ hy')
      obtain heq | habove := Ancestry.atOrAbove_iff.mp (hsame hmem hc)
      · subst heq
        exact absurd (Option.some.inj (hy.symm.trans hx')) hne
      · obtain rfl | hparent := elementToContainer_spec hx'
        · exact ⟨c, habove, hmem⟩
        · obtain heq | habove := Ancestry.atOrAbove_iff.mp
            ((Ancestry.above_iff_of_parent hparent).mp habove)
          · exact absurd heq hne
          · exact ⟨c, habove, hmem⟩
    · exact .inl ⟨c, .of_parent hyc, hmem⟩
  · exact .inl (hc.of_container hy)

end Containers

section Mates
variable {input}
variable {e : ViewEdge}

theorem isAggregated_iff :
    input.isAggregated e = true ↔ (input.Touches e ∧ input.Crosses e) ∧ input.shows e = true := by
  rw [isAggregated, Bool.and_eq_true, isRemapped_iff]

theorem aggregates_iff :
    input.params.aggregates = true ↔
      ∃ e ∈ input.elevatedEdges, input.shows e = true ∧ input.Touches e ∧ input.Crosses e := by
  have hperm := input.aggregatedEdges_perm
  constructor
  · intro h
    have hne : input.aggregatedEdges ≠ [] := by
      rw [aggregates, Bool.and_eq_true] at h
      simpa [params] using h.2
    obtain ⟨agg, hagg⟩ := exists_mem_of_ne_nil _ hne
    obtain ⟨e, he⟩ := exists_mem_of_ne_nil _ (input.aggregatedEdges_spec hagg).1
    obtain ⟨he, haggregated⟩ := mem_filter.mp (hperm.mem_iff.mp (mem_flatMap.mpr ⟨agg, hagg, he⟩))
    obtain ⟨hremapped, hshows⟩ := isAggregated_iff.mp haggregated
    exact ⟨e, he, hshows, hremapped⟩
  · rintro ⟨e, he, hshows, hremapped⟩
    have haggregated := isAggregated_iff.mpr ⟨hremapped, hshows⟩
    obtain ⟨agg, hagg, -⟩ := mem_flatMap.mp (hperm.mem_iff.mpr (mem_filter.mpr ⟨he, haggregated⟩))
    by_contra hnot
    rw [input.aggregatedEdges_of_not_aggregates (Bool.eq_false_iff.mpr hnot)] at hagg
    exact nomatch hagg

theorem stripLabel_id (e : ViewEdge) : (input.params.stripLabel e).id = e.id := by
  unfold stripLabel
  split <;> rfl

theorem stripLabel_source (e : ViewEdge) : (input.params.stripLabel e).source = e.source := by
  unfold stripLabel
  split <;> rfl

theorem stripLabel_target (e : ViewEdge) : (input.params.stripLabel e).target = e.target := by
  unfold stripLabel
  split <;> rfl

theorem stripLabel_isDisabledEdge (e : ViewEdge) :
    (input.params.stripLabel e).isDisabledEdge = e.isDisabledEdge := by
  unfold stripLabel
  split <;> rfl

theorem stripLabel_shows (e : ViewEdge) :
    input.shows (input.params.stripLabel e) = input.shows e := by
  unfold stripLabel
  split <;> rfl

theorem sortedPair_eq {a b c d : String} (h : sortedPair a b = sortedPair c d) :
    a = c ∧ b = d ∨ a = d ∧ b = c := by
  unfold sortedPair at h
  split at h <;> split at h <;> simp_all

theorem isBundled_iff {toContainer : String → Option String} :
    isBundled toContainer e = true ↔
      ∃ c c', toContainer e.source = some c ∧ toContainer e.target = some c' ∧ c ≠ c' := by
  unfold isBundled
  cases toContainer e.source <;> cases toContainer e.target <;> simp

theorem behind_sameGroup {d : ViewEdge × FlowEdgeKind} (hd : d ∈ input.params.drawnEdges)
    {e' : ViewEdge} (he : e ∈ behind d) (he' : e' ∈ behind d) :
    e = e' ∨ isBundled (elementToContainer input.layoutNodes) e = true ∧
      isBundled (elementToContainer input.layoutNodes) e' = true ∧
      containerPair (elementToContainer input.layoutNodes) e =
        containerPair (elementToContainer input.layoutNodes) e' := by
  have hsingle : ∀ {a : ViewEdge}, e ∈ [a] → e' ∈ [a] → e = e' := fun h h' =>
    (mem_singleton.mp h).trans (mem_singleton.mp h').symm
  unfold drawnEdges at hd
  split at hd
  · dsimp only at hd
    obtain hd | hd := mem_append.mp hd
    · obtain ⟨a, -, rfl⟩ := mem_map.mp hd
      exact .inl (hsingle he he')
    · obtain ⟨b, hb, hd⟩ := mem_flatMap.mp hd
      obtain ⟨g, hg, hb⟩ := mem_filterMap.mp hb
      obtain ⟨hedges, -⟩ := bundleOf_eq _ hb
      unfold drawBundle at hd
      split at hd
      · obtain ⟨i, hi, rfl⟩ := mem_mapIdx.mp hd
        exact .inl (hsingle he he')
      · split at hd
        · exact nomatch hd
        · -- one edge for the whole group
          rw [mem_singleton.mp hd] at he he'
          have hmem : ∀ {a : ViewEdge}, a ∈ b.edges → a ∈ g.2 := fun ha => hedges ▸ ha
          have hbundled : ∀ {a : ViewEdge}, a ∈ b.edges →
              isBundled (elementToContainer input.layoutNodes) a = true := fun ha =>
            (mem_filter.mp (Groups.mem_of_mem_groupOn hg (hmem ha))).2
          have hkey := (Groups.groupOn_spec hg).2
          have heq := (hkey e (hmem he)).trans (hkey e' (hmem he')).symm
          exact .inr ⟨hbundled he, hbundled he', congrArg BundleKey.containerIds heq⟩
  · obtain ⟨a, -, rfl⟩ := mem_map.mp hd
    exact .inl (hsingle he he')

theorem exists_drawn (he : e ∈ input.params.visibleEdges) :
    ∃ d ∈ input.params.drawnEdges, d.1 = e ∨
      ∃ c c', c ≠ c' ∧ elementToContainer input.layoutNodes e.source = some c ∧
        elementToContainer input.layoutNodes e.target = some c' ∧
        (elementToContainer input.layoutNodes d.1.source = some c ∧
            elementToContainer input.layoutNodes d.1.target = some c' ∨
          elementToContainer input.layoutNodes d.1.source = some c' ∧
            elementToContainer input.layoutNodes d.1.target = some c) := by
  obtain ⟨d, hd, hbehind⟩ := mem_flatMap.mp (input.behind_drawnEdges.mem_iff.mpr he)
  refine ⟨d, hd, ?_⟩
  obtain heq | ⟨hbundled, hbundled', hpair⟩ :=
    behind_sameGroup hd (input.mem_behind_of_mem_drawnEdges hd) hbehind
  · exact .inl heq
  · obtain ⟨k, k', hk, hk', -⟩ := isBundled_iff.mp hbundled
    obtain ⟨c, c', hc, hc', hne⟩ := isBundled_iff.mp hbundled'
    rw [containerPair, containerPair, hk, hk', hc, hc'] at hpair
    refine .inr ⟨c, c', hne, hc, hc', ?_⟩
    rw [hk, hk']
    obtain ⟨rfl, rfl⟩ | ⟨rfl, rfl⟩ := sortedPair_eq hpair
    · exact .inl ⟨rfl, rfl⟩
    · exact .inr ⟨rfl, rfl⟩

end Mates

/-- Every enabled edge of a shown type between different representatives is in the drawing once, no
flow edge ends inside a collapsed container, and what counts edges counts none that is disabled or of
a hidden type. -/
structure ConservesEdges : Prop where
  once : ∀ e ∈ input.elevatedEdges, e.isDisabledEdge = false → input.shows e = true →
    input.Crosses e → (input.drawing.represented.map (·.id)).count e.id = 1
  visible : ∀ f ∈ input.drawing.flowEdges, ¬input.Hides f.source ∧ ¬input.Hides f.target
  counted : ∀ f ∈ input.drawing.flowEdges, f.isCounting = true →
    ∀ e ∈ input.drawing.represents f, e.isDisabledEdge = false ∧ input.shows e = true

/-- The passes agree on what is collapsed. An edge of a shown type that is aggregated is enabled,
and the container next to an endpoint, or the endpoint itself, is collapsed; so it is for every
enabled edge that ends inside a collapsed container, and where there is such an edge, some edge is
aggregated. A loop of a shown type is not drawn at all. -/
structure AgreesOnCollapse : Prop where
  enabled : ∀ e ∈ input.elevatedEdges, input.shows e = true → input.Touches e → input.Crosses e →
    e.isDisabledEdge = false
  caught : ∀ e ∈ input.elevatedEdges, e.isDisabledEdge = false → input.shows e = true →
    input.Touches e → input.Crosses e → input.isCaught e = true
  inside : ∀ e ∈ input.elevatedEdges, e.isDisabledEdge = false →
    e.source ≠ e.target ∨ input.shows e = false → input.Hides e.source ∨ input.Hides e.target →
    input.isCaught e = true ∧
      ∃ e' ∈ input.elevatedEdges, input.shows e' = true ∧ input.Touches e' ∧ input.Crosses e'

section Conservation
variable {input}
variable {e : ViewEdge}

theorem count_represented (he : e ∈ input.elevatedEdges)
    (henabled : e.isDisabledEdge = false) (hshows : input.shows e = true)
    (hne : e.source ≠ e.target) :
    (input.drawing.represented.map (·.id)).count e.id =
      (if input.isBase e then 1 else 0) + if input.isAggregated e then 1 else 0 := by
  have hperm := (input.represented_perm.map (·.id)).count_eq e.id
  have hstrip : (fun e : ViewEdge => e.id) ∘ input.params.stripLabel = fun e => e.id :=
    funext stripLabel_id
  rw [hperm, map_append, map_append, count_append, count_append,
    visibleEdges_eq, hiddenEdges_eq, map_map, hstrip,
    count_map_filter input.elevatedEdges_nodup he, count_map_filter input.elevatedEdges_nodup he,
    count_map_filter input.elevatedEdges_nodup he]
  simp [isVisible, henabled, hshows, hne]

theorem once_iff :
    (∀ e ∈ input.elevatedEdges, e.isDisabledEdge = false → input.shows e = true →
      input.Crosses e → (input.drawing.represented.map (·.id)).count e.id = 1) ↔
    ∀ e ∈ input.elevatedEdges, e.isDisabledEdge = false → input.shows e = true →
      input.Touches e → input.Crosses e → input.isCaught e = true := by
  constructor
  · intro h e he henabled hshows htouches hcrosses
    have hcount := h e he henabled hshows hcrosses
    have haggregates := aggregates_iff.mpr ⟨e, he, hshows, htouches, hcrosses⟩
    rw [count_represented he henabled hshows hcrosses.ne,
      isAggregated_iff.mpr ⟨⟨htouches, hcrosses⟩, hshows⟩, isBase, haggregates] at hcount
    simpa using hcount
  · intro h e he henabled hshows hcrosses
    rw [count_represented he henabled hshows hcrosses.ne]
    by_cases htouches : input.Touches e
    · have haggregates := aggregates_iff.mpr ⟨e, he, hshows, htouches, hcrosses⟩
      rw [isAggregated_iff.mpr ⟨⟨htouches, hcrosses⟩, hshows⟩, isBase, haggregates,
        h e he henabled hshows htouches hcrosses]
      rfl
    · have hcaught : input.isCaught e = false :=
        Bool.eq_false_iff.mpr fun hcaught => htouches (touches_of_isCaught hcaught)
      have hnot : input.isAggregated e = false :=
        Bool.eq_false_iff.mpr fun haggregated => htouches (isAggregated_iff.mp haggregated).1.1
      rw [isBase, hcaught, hnot]
      simp

theorem flowEdges_cases {f : FlowEdge} (hf : f ∈ input.drawing.flowEdges) :
    (∃ i, ∃ d ∈ input.params.drawnEdges, createFlowEdge d.1 d.2 i = f) ∨
      (∃ i, ∃ e ∈ input.params.hiddenEdges, createFlowEdge e .plain i = f) ∨
      input.params.aggregates = true ∧
        ∃ i, ∃ agg ∈ input.aggregatedEdges, createAggregatedFlowEdge i agg = f := by
  obtain hf | hf := mem_append.mp hf
  · obtain ⟨i, d, hd, rfl⟩ := exists_of_mem_mapIdx hf
    obtain hd | hd := mem_append.mp hd
    · exact .inl ⟨i, d, hd, rfl⟩
    · obtain ⟨e, he, rfl⟩ := mem_map.mp hd
      exact .inr (.inl ⟨i, e, he, rfl⟩)
  · unfold extraFlowEdges at hf
    split at hf
    · rename_i haggregates
      exact .inr (.inr ⟨haggregates, exists_of_mem_mapIdx hf⟩)
    · exact nomatch hf

theorem exists_flowEdge_of_drawn {d : ViewEdge × FlowEdgeKind} (hd : d ∈ input.params.drawnEdges) :
    ∃ i, createFlowEdge d.1 d.2 i ∈ input.drawing.flowEdges := by
  obtain ⟨i, hi⟩ := exists_mem_mapIdx
    (fun index (d : ViewEdge × FlowEdgeKind) => createFlowEdge d.1 d.2 index)
    (mem_append_left (input.params.hiddenEdges.map fun e => (e, FlowEdgeKind.plain)) hd)
  exact ⟨i, mem_append_left _ hi⟩

theorem exists_flowEdge_of_hidden (he : e ∈ input.params.hiddenEdges) :
    ∃ i, createFlowEdge e .plain i ∈ input.drawing.flowEdges := by
  obtain ⟨i, hi⟩ := exists_mem_mapIdx
    (fun index (d : ViewEdge × FlowEdgeKind) => createFlowEdge d.1 d.2 index)
    (mem_append_right input.params.drawnEdges
      (mem_map_of_mem (f := fun e => (e, FlowEdgeKind.plain)) he))
  exact ⟨i, mem_append_left _ hi⟩

theorem exists_flowEdge_of_aggregated (h : input.params.aggregates = true) {agg : AggregatedEdge}
    (hagg : agg ∈ input.aggregatedEdges) :
    ∃ i, createAggregatedFlowEdge i agg ∈ input.drawing.flowEdges := by
  obtain ⟨i, hi⟩ := exists_mem_mapIdx createAggregatedFlowEdge hagg
  refine ⟨i, mem_append_right _ ?_⟩
  rw [extraFlowEdges, if_pos h]
  exact hi

theorem exists_of_mem_visibleEdges (he : e ∈ input.params.visibleEdges) :
    ∃ e₀ ∈ input.elevatedEdges, input.isVisible e₀ = true ∧ input.params.stripLabel e₀ = e := by
  rw [visibleEdges_eq] at he
  obtain ⟨e₀, he₀, heq⟩ := mem_map.mp he
  obtain ⟨hmem, hvisible⟩ := mem_filter.mp he₀
  exact ⟨e₀, hmem, hvisible, heq⟩

theorem isVisible_iff :
    input.isVisible e = true ↔ ((input.isBase e = true ∧ e.isDisabledEdge = false) ∧
      input.shows e = true) ∧ e.source ≠ e.target := by
  simp [isVisible]

theorem counted_iff :
    (∀ f ∈ input.drawing.flowEdges, f.isCounting = true →
      ∀ e ∈ input.drawing.represents f, e.isDisabledEdge = false ∧ input.shows e = true) ↔
    ∀ e ∈ input.elevatedEdges, input.shows e = true → input.Touches e → input.Crosses e →
      e.isDisabledEdge = false := by
  have hperm := input.aggregatedEdges_perm
  constructor
  · intro h e he hshows htouches hcrosses
    have haggregates := aggregates_iff.mpr ⟨e, he, hshows, htouches, hcrosses⟩
    have haggregated := isAggregated_iff.mpr ⟨⟨htouches, hcrosses⟩, hshows⟩
    obtain ⟨agg, hagg, horiginal⟩ :=
      mem_flatMap.mp (hperm.mem_iff.mpr (mem_filter.mpr ⟨he, haggregated⟩))
    obtain ⟨i, hi⟩ := exists_flowEdge_of_aggregated haggregates hagg
    refine (h _ hi rfl e ?_).1
    rw [input.represents_aggregated haggregates hagg]
    exact horiginal
  · intro h f hf hcounting e he
    obtain ⟨i, d, hd, rfl⟩ | ⟨i, e', -, rfl⟩ | ⟨haggregates, i, agg, hagg, rfl⟩ :=
      flowEdges_cases hf
    · rw [represents_createFlowEdge (input.mem_behind_of_mem_drawnEdges hd)] at he
      obtain ⟨e₀, -, hvisible, rfl⟩ :=
        exists_of_mem_visibleEdges (input.mem_visibleEdges_of_behind hd he)
      obtain ⟨⟨⟨-, henabled⟩, hshows⟩, -⟩ := isVisible_iff.mp hvisible
      rw [stripLabel_isDisabledEdge, stripLabel_shows]
      exact ⟨henabled, hshows⟩
    · exact nomatch hcounting
    · rw [input.represents_aggregated haggregates hagg] at he
      obtain ⟨hmem, haggregated⟩ :=
        mem_filter.mp (hperm.mem_iff.mp (mem_flatMap.mpr ⟨agg, hagg, he⟩))
      obtain ⟨⟨htouches, hcrosses⟩, hshows⟩ := isAggregated_iff.mp haggregated
      exact ⟨h e hmem hshows htouches hcrosses, hshows⟩

theorem atOrAbove_of_isBase (he : e ∈ input.elevatedEdges)
    (hbase : input.isBase e = true) (hshows : input.shows e = true) {x x' c : String}
    (hends : x = e.source ∧ x' = e.target ∨ x = e.target ∧ x' = e.source)
    (hx : elementToContainer input.layoutNodes x = some c) (hmem : c ∈ input.collapsed)
    (hc : ¬input.Hides c) : Ancestry.AtOrAbove input.parent x' c := by
  have hin : input.params.inCollapsed x = true := inCollapsed_iff.mpr ⟨c, hx, hmem⟩
  have hcaught : input.isCaught e = true := by
    rw [isCaught, Bool.or_eq_true]
    obtain ⟨rfl, -⟩ | ⟨rfl, -⟩ := hends
    · exact .inl hin
    · exact .inr hin
  have hnot : ¬input.Crosses e := by
    intro hcrosses
    have haggregates := aggregates_iff.mpr ⟨e, he, hshows, touches_of_isCaught hcaught, hcrosses⟩
    rw [isBase, haggregates, hcaught] at hbase
    exact nomatch hbase
  have hrep : input.Represents x c := .inl {
    holds := hmem
    atOrAbove := Ancestry.atOrAbove_iff.mpr ((elementToContainer_spec hx).imp_right .of_parent)
    last := fun a ha hcollapsed => hc ⟨a, ha, hcollapsed⟩ }
  have hrep' : input.Represents x' c := by
    rw [crosses_iff, not_not] at hnot
    rw [represents_iff] at hrep ⊢
    obtain ⟨rfl, rfl⟩ | ⟨rfl, rfl⟩ := hends
    · exact hnot ▸ hrep
    · exact hnot.trans hrep
  obtain h | ⟨rfl, -⟩ := hrep'
  · exact h.atOrAbove
  · exact .refl

theorem exists_hidden_flowEdge (he : e ∈ input.elevatedEdges)
    (hvisible : input.isVisible e = true) (hhides : input.Hides e.source ∨ input.Hides e.target) :
    ∃ f ∈ input.drawing.flowEdges, input.Hides f.source ∨ input.Hides f.target := by
  obtain ⟨⟨⟨hbase, -⟩, hshows⟩, -⟩ := isVisible_iff.mp hvisible
  have hmem : input.params.stripLabel e ∈ input.params.visibleEdges := by
    rw [visibleEdges_eq]
    exact mem_map_of_mem (mem_filter.mpr ⟨he, hvisible⟩)
  obtain ⟨d, hd, hends⟩ := exists_drawn hmem
  obtain ⟨i, hi⟩ := exists_flowEdge_of_drawn hd
  refine ⟨_, hi, ?_⟩
  show input.Hides d.1.source ∨ input.Hides d.1.target
  rw [stripLabel_source, stripLabel_target] at hends
  obtain heq | ⟨c, c', hne, hc, hc', hends⟩ := hends
  · rw [heq, stripLabel_source, stripLabel_target]
    exact hhides
  · obtain hhides | hhides := hhides
    · have hsame := atOrAbove_of_isBase he hbase hshows (.inl ⟨rfl, rfl⟩) hc
      obtain ⟨hy, hy'⟩ | ⟨hy', hy⟩ := hends
      · exact hides_of_sameContainers hc hc' hy hy' hne hhides hsame
      · exact (hides_of_sameContainers hc hc' hy hy' hne hhides hsame).symm
    · have hsame := atOrAbove_of_isBase he hbase hshows (.inr ⟨rfl, rfl⟩) hc'
      obtain ⟨hy', hy⟩ | ⟨hy, hy'⟩ := hends
      · exact (hides_of_sameContainers hc' hc hy hy' hne.symm hhides hsame).symm
      · exact hides_of_sameContainers hc' hc hy hy' hne.symm hhides hsame

theorem visible_iff :
    (∀ f ∈ input.drawing.flowEdges, ¬input.Hides f.source ∧ ¬input.Hides f.target) ↔
    ∀ e ∈ input.elevatedEdges, e.isDisabledEdge = false →
      e.source ≠ e.target ∨ input.shows e = false → input.Hides e.source ∨ input.Hides e.target →
      input.isCaught e = true ∧
        ∃ e' ∈ input.elevatedEdges, input.shows e' = true ∧ input.Touches e' ∧
          input.Crosses e' := by
  have hbase_iff : ∀ e, input.isBase e = false ↔ input.isCaught e = true ∧
      ∃ e' ∈ input.elevatedEdges, input.shows e' = true ∧ input.Touches e' ∧ input.Crosses e' := by
    intro e
    rw [← aggregates_iff, isBase, Bool.not_eq_false', Bool.and_eq_true, and_comm]
  simp only [← hbase_iff]
  constructor
  · intro h e he henabled hdrawn hhides
    by_contra hbase
    rw [Bool.not_eq_false] at hbase
    have hflow : ∃ f ∈ input.drawing.flowEdges, input.Hides f.source ∨ input.Hides f.target := by
      cases hshows : input.shows e with
      | false =>
        have hmem : e ∈ input.params.hiddenEdges := by
          rw [hiddenEdges_eq]
          exact mem_filter.mpr ⟨he, by rw [hbase, henabled, hshows]; rfl⟩
        obtain ⟨i, hi⟩ := exists_flowEdge_of_hidden hmem
        exact ⟨_, hi, hhides⟩
      | true =>
        have hne := hdrawn.resolve_right fun h => nomatch h.symm.trans hshows
        exact exists_hidden_flowEdge he (isVisible_iff.mpr ⟨⟨⟨hbase, henabled⟩, hshows⟩, hne⟩) hhides
    obtain ⟨f, hf, hhides⟩ := hflow
    exact hhides.elim (h f hf).1 (h f hf).2
  · intro h f hf
    rw [← not_or]
    intro hhides
    obtain ⟨i, d, hd, rfl⟩ | ⟨i, e, he, rfl⟩ | ⟨-, i, agg, hagg, rfl⟩ := flowEdges_cases hf
    · obtain ⟨e, he, hvisible, heq⟩ := exists_of_mem_visibleEdges
        (input.mem_visibleEdges_of_behind hd (input.mem_behind_of_mem_drawnEdges hd))
      obtain ⟨⟨⟨hbase, henabled⟩, -⟩, hne⟩ := isVisible_iff.mp hvisible
      change input.Hides d.1.source ∨ input.Hides d.1.target at hhides
      rw [← heq, stripLabel_source, stripLabel_target] at hhides
      exact Bool.false_ne_true ((h e he henabled (.inl hne) hhides).symm.trans hbase)
    · rw [hiddenEdges_eq] at he
      obtain ⟨he, hhidden⟩ := mem_filter.mp he
      simp only [Bool.and_eq_true, Bool.not_eq_true'] at hhidden
      obtain ⟨⟨hbase, henabled⟩, hshows⟩ := hhidden
      exact Bool.false_ne_true ((h e he henabled (.inr hshows) hhides).symm.trans hbase)
    · obtain ⟨-, hsource, htarget⟩ := input.aggregatedEdges_spec hagg
      exact hhides.elim hsource htarget

end Conservation

theorem conservesEdges_iff_agreesOnCollapse : input.ConservesEdges ↔ input.AgreesOnCollapse := by
  constructor
  · exact fun h => ⟨counted_iff.mp h.counted, once_iff.mp h.once, visible_iff.mp h.visible⟩
  · exact fun h => ⟨once_iff.mpr h.caught, visible_iff.mpr h.inside, counted_iff.mpr h.enabled⟩

def nestedCable : ViewEdge where
  id := "cable"
  source := "port"
  target := "uplink"
  edgeType := .physicalLink
  viewConfig := some (.active false)

/-- A port in a group of its host, and a port of another host that it is linked to. The host is
collapsed, the group in it is not. -/
def nestedPorts : FlowInput where
  topology := {
    id := "topology"
    nodes := [
      { id := "host", nodeType := .container },
      { id := "up", nodeType := .container, parentId := some "host" },
      { id := "port", nodeType := .element, parentId := some "up" },
      { id := "switch", nodeType := .container },
      { id := "uplink", nodeType := .element, parentId := some "switch" }]
    infraRuleId := none
    containerTypes := fun _ => ⟨true, false, false⟩ }
  edges := [nestedCable]
  collapsed := {"host"}
  nodup := by decide
  acyclic := Ancestry.acyclic_of_depth
    (fun id => if id = "port" then 2 else if id = "up" ∨ id = "uplink" then 1 else 0) (by
      intro n p h
      have hn := mem_ids_of_parentIn n p h
      simp only [List.map_cons, List.map_nil, List.mem_cons, List.not_mem_nil, or_false] at hn
      obtain rfl | rfl | rfl | rfl | rfl := hn <;> simp [parentIn] at h <;> subst h <;> decide)
  edges_nodup := by decide

/-- The cable is drawn from the port, which is hidden, and once more from the host. -/
theorem not_conservesEdges_nestedPorts : ¬nestedPorts.ConservesEdges := by
  intro h
  have hmem : nestedCable ∈ nestedPorts.elevatedEdges := by decide
  have hremapped : nestedPorts.Touches nestedCable ∧ nestedPorts.Crosses nestedCable :=
    isRemapped_iff.mp (by decide)
  have hcount := h.once nestedCable hmem (by decide) (by decide) hremapped.2
  exact absurd hcount (by decide)

end FlowInput

end Scanopy
