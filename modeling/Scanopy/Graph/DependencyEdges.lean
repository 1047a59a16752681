import Scanopy.Graph.BuildGraph
import Scanopy.Lib.Pairing

/-! The edges of a dependency in the views that draw it. Two views pair the members and leave out
the pairs that are not drawn; that of the workloads leaves members out before it pairs them. -/

namespace Scanopy.Graph

open List Option Function

structure Rendered where
  hasNode : Uuid → Bool
  serviceNode : Uuid → Option Uuid

def Rendered.draws (r : Rendered) (e : Edge) : Bool := r.hasNode e.source && r.hasNode e.target

namespace Dependency
variable (d : Dependency)

def memberIds : List Uuid :=
  match d.members with
  | .services serviceIds => serviceIds
  | .bindings bindingIds => bindingIds

def merges (view : TopologyView) : Bool :=
  match d.members, view with
  | .bindings _, .application | .bindings _, .workloads => true
  | _, _ => false

def edgeType (sourceId targetId : Uuid) : EdgeType :=
  match d.dependencyType with
  | .hubAndSpoke => .hubAndSpoke d.id sourceId targetId
  | .requestPath => .requestPath d.id sourceId targetId

def serviceEdge (p : Uuid × Uuid) : Edge where
  source := p.1
  target := p.2
  edgeType := d.edgeType Uuid.nil Uuid.nil
  label := some d.name

def pairs (ids : List Uuid) : List (Uuid × Uuid) :=
  match d.dependencyType, ids with
  | .requestPath, ids => Pairing.windows ids
  | .hubAndSpoke, [] => []
  | .hubAndSpoke, hub :: spokes => spokes.map fun spoke => (hub, spoke)

end Dependency

namespace Inventory
variable (inv : Inventory) (r : Rendered) (d : Dependency) {view : TopologyView}

section Edges

def l3DependencyEdges : List Edge :=
  match d.dependencyType, d.bindingIds with
  | .requestPath, bindingIds =>
    (windows bindingIds).filterMap fun (source, target) =>
      inv.edgeFromServiceBindings source target d
  | .hubAndSpoke, [] => []
  | .hubAndSpoke, hub :: spokes =>
    spokes.reverse.filterMap fun spoke => inv.edgeFromServiceBindings hub spoke d

def dependencyEdges : TopologyView → List Edge
  | .l3Logical => (inv.l3DependencyEdges d).filter r.draws
  | .application => ((serviceEdges d (inv.applicationMembers d)).filter fun edge =>
      inv.hasServiceNode edge.source && inv.hasServiceNode edge.target).filter r.draws
  | .workloads => (if (inv.workloadMembers r.serviceNode d).length < 2 then []
      else serviceEdges d (inv.workloadMembers r.serviceNode d)).filter r.draws
  | .l2Physical => []

def rendered (env : BuildEnv) (grouping : GroupingConfig) (view : TopologyView) : Rendered where
  hasNode id := (buildView env inv grouping view).1.any fun n => n.id = id
  serviceNode := inv.serviceToNode (inv.workloadsPlacements env grouping)
    (((inv.workloadsNodes env grouping).filter fun n => !n.isContainer).map (·.id))

end Edges

section Members

def memberService (member : Uuid) : Option Uuid :=
  match d.members with
  | .services _ => some member
  | .bindings _ => inv.bindingToService member

def pairedAs : TopologyView → Uuid → Option Uuid
  | .l3Logical, member => match d.members with
    | .services _ => none
    | .bindings _ => some member
  | .application, member => inv.memberService d member
  | .workloads, member => (inv.memberService d member).bind r.serviceNode
  | .l2Physical, _ => none

def shownBy : TopologyView → Uuid → Option Uuid
  | .l3Logical, bindingId => (inv.bindingAddress bindingId).filter r.hasNode
  | .application, serviceId =>
    if inv.hasServiceNode serviceId && r.hasNode serviceId then some serviceId else none
  | .workloads, nodeId => if r.hasNode nodeId then some nodeId else none
  | .l2Physical, _ => none

def memberNode (view : TopologyView) (member : Uuid) : Option Uuid :=
  (inv.pairedAs r d view member).bind (inv.shownBy r view)

/-- An edge between the nodes of two members. Edges between addresses name their bindings as well. -/
structure JoinsMembers (view : TopologyView) (e : Edge) (a b : Uuid) : Prop where
  source : inv.memberNode r d view a = some e.source
  target : inv.memberNode r d view b = some e.target
  names : view = .l3Logical → e.edgeType = d.edgeType a b

structure DependencyFaithful (view : TopologyView) : Prop where
  path : d.dependencyType = .requestPath → ∀ e ∈ inv.dependencyEdges r d view,
    ∃ a b, [a, b] <:+: d.memberIds ∧ inv.JoinsMembers r d view e a b
  hub : d.dependencyType = .hubAndSpoke → ∀ e ∈ inv.dependencyEdges r d view,
    ∃ hub spokes, d.memberIds = hub :: spokes ∧
      ∃ spoke ∈ spokes, inv.JoinsMembers r d view e hub spoke
  apart : ∀ e ∈ inv.dependencyEdges r d view, e.source ≠ e.target
  once : (inv.dependencyEdges r d view).Pairwise fun e e' =>
    ∀ a b, inv.JoinsMembers r d view e a b → ¬inv.JoinsMembers r d view e' a b

end Members

section Conditions
variable (view : TopologyView)

def IsDrawnPair (p : Uuid × Uuid) : Bool :=
  (!d.merges view || p.1 ≠ p.2) && (inv.shownBy r view p.1).isSome && (inv.shownBy r view p.2).isSome

/-- No member is left out between two that are paired, the two have different nodes, and no pair
comes up twice. -/
structure StraightPath : Prop where
  noGap : ∀ p skipped, Pairing.Spans (inv.pairedAs r d view) d.memberIds p skipped →
    inv.IsDrawnPair r d view p → skipped = []
  apart : ∀ p, Pairing.Spans (inv.pairedAs r d view) d.memberIds p [] →
    inv.IsDrawnPair r d view p → inv.shownBy r view p.1 ≠ inv.shownBy r view p.2
  once : (((Pairing.windows d.memberIds).filterMap (Pairing.both (inv.pairedAs r d view))).filter
    (inv.IsDrawnPair r d view)).Nodup

/-- The first of the paired members is the first of all if it gets an edge. Its node is that of no
spoke, and no two spokes are paired as the same; where neighbours are merged, only neighbours are. -/
structure StraightHub (hub : Uuid) (spokes : List Uuid) : Prop where
  first : (∃ spoke ∈ spokes, inv.IsDrawnPair r d view (hub, spoke)) →
    ∃ member ∈ d.memberIds.head?, inv.pairedAs r d view member = some hub
  apart : d.merges view = false → ∀ spoke ∈ spokes, inv.shownBy r view spoke ≠ inv.shownBy r view hub
  once : d.merges view = false → (spokes.filter fun spoke => (inv.shownBy r view spoke).isSome).Nodup
  merged : d.merges view → ∀ id, (inv.shownBy r view id).isSome →
    ¬∃ between, between ≠ id ∧ List.Sublist [id, between, id] (hub :: spokes)

/-- The condition for the edges of a dependency to be faithful. -/
def StraightMembers : Prop :=
  match d.dependencyType with
  | .requestPath => inv.StraightPath r d view
  | .hubAndSpoke => ∀ hub spokes, d.memberIds.filterMap (inv.pairedAs r d view) = hub :: spokes →
      (inv.shownBy r view hub).isSome → inv.StraightHub r d view hub spokes

end Conditions

section Keys
variable {inv : Inventory} {r : Rendered} {d : Dependency} {view : TopologyView} {p : Uuid × Uuid}
  {e : Edge}
variable {a b id node : Uuid}

theorem shownBy_eq_some (hview : view ≠ .l3Logical)
    (h : inv.shownBy r view id = some node) : node = id := by
  cases view with
  | l3Logical => exact absurd rfl hview
  | l2Physical => exact nomatch h
  | application =>
    simp only [shownBy, ite_none_right_eq_some] at h
    exact (some.inj h.2).symm
  | workloads =>
    simp only [shownBy, ite_none_right_eq_some] at h
    exact (some.inj h.2).symm

theorem merges_ne_l3Logical (h : d.merges view) : view ≠ .l3Logical := by
  rintro rfl
  unfold Dependency.merges at h
  cases hmembers : d.members <;> simp [hmembers] at h

variable (inv r d view) in
def keys : List Uuid :=
  if d.merges view then (d.memberIds.filterMap (inv.pairedAs r d view)).destutter (· ≠ ·)
  else d.memberIds.filterMap (inv.pairedAs r d view)

variable (inv r d view) in
def edgeOf (p : Uuid × Uuid) : Option Edge :=
  (match view with
    | .l3Logical => inv.edgeFromServiceBindings p.1 p.2 d
    | .application | .workloads | .l2Physical => some (d.serviceEdge p)).filter fun _ =>
      (inv.shownBy r view p.1).isSome && (inv.shownBy r view p.2).isSome

theorem foldl_pushDistinct (ids l : List Uuid) (id : Uuid) :
    l.foldl pushDistinct (ids ++ [id]) = ids ++ l.destutter' (· ≠ ·) id := by
  induction l generalizing ids id with
  | nil => rfl
  | cons a l ih =>
    rw [foldl_cons, pushDistinct, getLast?_append_of_ne_nil _ (by simp)]
    by_cases h : id = a
    · subst h
      rw [destutter'_cons_neg l (by simp), ← ih]
      simp
    · rw [destutter'_cons_pos l h, if_neg (by simpa using h), ih, append_assoc]
      rfl

theorem foldl_pushDistinct_nil (l : List Uuid) :
    l.foldl pushDistinct [] = l.destutter (· ≠ ·) := by
  cases l with
  | nil => rfl
  | cons a l => exact foldl_pushDistinct [] l a

theorem serviceEdges_eq (ids : List Uuid) : serviceEdges d ids = (d.pairs ids).map d.serviceEdge := by
  unfold serviceEdges Dependency.pairs Dependency.serviceEdge Dependency.edgeType
  cases d.dependencyType with
  | requestPath => rfl
  | hubAndSpoke =>
    cases ids with
    | nil => rfl
    | cons hub spokes => simp

theorem l3DependencyEdges_perm : (inv.l3DependencyEdges d).Perm
    ((d.pairs d.bindingIds).filterMap fun p => inv.edgeFromServiceBindings p.1 p.2 d) := by
  unfold l3DependencyEdges Dependency.pairs
  cases d.dependencyType with
  | requestPath => exact .refl _
  | hubAndSpoke =>
    cases d.bindingIds with
    | nil => exact .refl _
    | cons hub spokes =>
      simp only [filterMap_map]
      exact (reverse_perm spokes).filterMap _

theorem keys_l3Logical : inv.keys r d .l3Logical = d.bindingIds := by
  unfold keys
  rw [if_neg fun h => merges_ne_l3Logical h rfl]
  unfold pairedAs Dependency.memberIds Dependency.bindingIds
  cases d.members <;> simp

theorem keys_application : inv.keys r d .application = inv.applicationMembers d := by
  unfold keys pairedAs memberService Dependency.memberIds applicationMembers Dependency.merges
  cases d.members with
  | services serviceIds => simp
  | bindings bindingIds => simp [foldl_pushDistinct_nil]

theorem keys_workloads : inv.keys r d .workloads = inv.workloadMembers r.serviceNode d := by
  unfold keys pairedAs memberService Dependency.memberIds workloadMembers Dependency.merges
  cases d.members with
  | services serviceIds => simp
  | bindings bindingIds => simp [foldl_pushDistinct_nil]

theorem of_edgeFromServiceBindings (h : inv.edgeFromServiceBindings p.1 p.2 d = some e) :
    inv.bindingAddress p.1 = some e.source ∧ inv.bindingAddress p.2 = some e.target ∧
      e.edgeType = d.edgeType p.1 p.2 := by
  unfold edgeFromServiceBindings at h
  split at h
  · rename_i source target hsource htarget
    cases h
    exact ⟨hsource, htarget, rfl⟩
  · exact nomatch h

theorem isSome_shownBy_l3Logical {address : Uuid} (h : inv.bindingAddress id = some address) :
    (inv.shownBy r .l3Logical id).isSome = r.hasNode address := by
  rw [shownBy, h, filter_some]
  cases r.hasNode address <;> rfl

theorem edgeFromServiceBindings_filter :
    (inv.edgeFromServiceBindings p.1 p.2 d).filter r.draws = inv.edgeOf r d .l3Logical p := by
  unfold edgeOf
  cases h : inv.edgeFromServiceBindings p.1 p.2 d with
  | none => rfl
  | some e =>
    obtain ⟨hsource, htarget, -⟩ := of_edgeFromServiceBindings h
    simp only [isSome_shownBy_l3Logical hsource, isSome_shownBy_l3Logical htarget]
    rfl

theorem isSome_shownBy_application (id : Uuid) :
    (inv.shownBy r .application id).isSome = (inv.hasServiceNode id && r.hasNode id) := by
  simp only [shownBy]
  cases inv.hasServiceNode id && r.hasNode id <;> rfl

theorem isSome_shownBy_workloads (id : Uuid) :
    (inv.shownBy r .workloads id).isSome = r.hasNode id := by
  simp only [shownBy]
  cases r.hasNode id <;> rfl

theorem pairs_of_length_lt {ids : List Uuid} (h : ids.length < 2) : d.pairs ids = [] := by
  unfold Dependency.pairs
  match ids with
  | [] => cases d.dependencyType <;> rfl
  | [id] => cases d.dependencyType <;> rfl
  | id :: id' :: ids =>
    have hlength : 2 ≤ (id :: id' :: ids).length := by simp
    omega

theorem dependencyEdges_perm (view : TopologyView) : (inv.dependencyEdges r d view).Perm
    ((d.pairs (inv.keys r d view)).filterMap (inv.edgeOf r d view)) := by
  cases view with
  | l3Logical =>
    refine (l3DependencyEdges_perm.filter _).trans ?_
    rw [filter_filterMap, keys_l3Logical]
    simp only [edgeFromServiceBindings_filter]
    exact .refl _
  | application =>
    refine .of_eq ?_
    rw [dependencyEdges, serviceEdges_eq, keys_application, List.filter_filter, ← filterMap_eq_map,
      filter_filterMap]
    refine congrArg (fun f => List.filterMap f _) (funext fun p => ?_)
    rw [edgeOf, isSome_shownBy_application, isSome_shownBy_application]
    simp only [comp_apply, filter_some, Rendered.draws, Dependency.serviceEdge]
    ac_rfl
  | workloads =>
    refine .of_eq ?_
    have hedges : (if (inv.workloadMembers r.serviceNode d).length < 2 then []
        else serviceEdges d (inv.workloadMembers r.serviceNode d)) =
          (d.pairs (inv.keys r d .workloads)).map d.serviceEdge := by
      rw [serviceEdges_eq, keys_workloads]
      split_ifs with h
      · rw [pairs_of_length_lt h, map_nil]
      · rfl
    rw [dependencyEdges, hedges, ← filterMap_eq_map, filter_filterMap]
    refine congrArg (fun f => List.filterMap f _) (funext fun p => ?_)
    rw [edgeOf, isSome_shownBy_workloads, isSome_shownBy_workloads]
    rfl
  | l2Physical =>
    refine .of_eq (filterMap_eq_nil_iff.mpr fun p _ => ?_).symm
    simp [edgeOf, shownBy]

theorem of_edgeOf (h : inv.edgeOf r d view p = some e) :
    inv.shownBy r view p.1 = some e.source ∧ inv.shownBy r view p.2 = some e.target ∧
      (view = .l3Logical → e.edgeType = d.edgeType p.1 p.2) := by
  obtain ⟨hedge, hshown⟩ := filter_eq_some_iff.mp h
  rw [Bool.and_eq_true] at hshown
  by_cases hview : view = .l3Logical
  · subst hview
    obtain ⟨hsource, htarget, hnames⟩ := of_edgeFromServiceBindings hedge
    rw [isSome_shownBy_l3Logical hsource, isSome_shownBy_l3Logical htarget] at hshown
    rw [shownBy, shownBy, hsource, htarget]
    exact ⟨filter_eq_some_iff.mpr ⟨rfl, hshown.1⟩,
      filter_eq_some_iff.mpr ⟨rfl, hshown.2⟩, fun _ => hnames⟩
  · obtain ⟨source, hsource⟩ := isSome_iff_exists.mp hshown.1
    obtain ⟨target, htarget⟩ := isSome_iff_exists.mp hshown.2
    have hedge : d.serviceEdge p = e := by
      cases view with
      | l3Logical => exact absurd rfl hview
      | application => exact some.inj hedge
      | workloads => exact some.inj hedge
      | l2Physical => exact some.inj hedge
    rw [hsource, htarget, shownBy_eq_some hview hsource, shownBy_eq_some hview htarget, ← hedge]
    exact ⟨rfl, rfl, fun h => absurd h hview⟩

theorem isSome_edgeOf : (inv.edgeOf r d view p).isSome ↔
    (inv.shownBy r view p.1).isSome ∧ (inv.shownBy r view p.2).isSome := by
  constructor
  · intro h
    obtain ⟨e, he⟩ := isSome_iff_exists.mp h
    obtain ⟨hsource, htarget, -⟩ := of_edgeOf he
    simp [hsource, htarget]
  · intro h
    unfold edgeOf
    cases view with
    | l3Logical =>
      obtain ⟨source, hsource⟩ := isSome_iff_exists.mp h.1
      obtain ⟨target, htarget⟩ := isSome_iff_exists.mp h.2
      have hsource := (filter_eq_some_iff.mp hsource).1
      have htarget := (filter_eq_some_iff.mp htarget).1
      simp [edgeFromServiceBindings, hsource, htarget, filter_some, h]
    | application => simp [filter_some, h]
    | workloads => simp [filter_some, h]
    | l2Physical => simp [filter_some, h]

theorem edgeType_inj {a' b' : Uuid} (h : d.edgeType a b = d.edgeType a' b') :
    a = a' ∧ b = b' := by
  unfold Dependency.edgeType at h
  cases hd : d.dependencyType with
  | requestPath => simpa [hd] using h
  | hubAndSpoke => simpa [hd] using h

theorem pairedAs_l3Logical (h : inv.pairedAs r d .l3Logical a = some id) : id = a := by
  unfold pairedAs at h
  cases hd : d.members <;> simp_all

theorem pairedAs_of_memberNode (ha : inv.memberNode r d view a = some node)
    (hid : inv.shownBy r view id = some node) (hnames : view = .l3Logical → a = id) :
    inv.pairedAs r d view a = some id := by
  obtain ⟨id', hpaired, hshown⟩ := bind_eq_some_iff.mp ha
  by_cases hview : view = .l3Logical
  · subst hview
    rw [hpaired, pairedAs_l3Logical hpaired, hnames rfl]
  · rw [hpaired, ← shownBy_eq_some hview hshown, ← shownBy_eq_some hview hid]

theorem joinsMembers_iff (h : inv.edgeOf r d view p = some e) :
    inv.JoinsMembers r d view e a b ↔
      inv.pairedAs r d view a = some p.1 ∧ inv.pairedAs r d view b = some p.2 := by
  obtain ⟨hsource, htarget, hnames⟩ := of_edgeOf h
  constructor
  · intro hjoins
    have hends (hview : view = .l3Logical) : a = p.1 ∧ b = p.2 :=
      edgeType_inj ((hjoins.names hview).symm.trans (hnames hview))
    exact ⟨pairedAs_of_memberNode hjoins.source hsource fun hview => (hends hview).1,
      pairedAs_of_memberNode hjoins.target htarget fun hview => (hends hview).2⟩
  · rintro ⟨ha, hb⟩
    have hnode {m id node : Uuid} (hm : inv.pairedAs r d view m = some id)
        (hid : inv.shownBy r view id = some node) : inv.memberNode r d view m = some node := by
      rw [memberNode, hm, bind_some, hid]
    refine ⟨hnode ha hsource, hnode hb htarget, fun hview => ?_⟩
    subst hview
    rw [hnames rfl, pairedAs_l3Logical ha, pairedAs_l3Logical hb]

end Keys

section Drawn
variable {inv : Inventory} {r : Rendered} {d : Dependency} {view : TopologyView} {p : Uuid × Uuid}
  {e : Edge}

variable (inv r d view) in
def drawnPairs : List (Uuid × Uuid) :=
  (d.pairs (inv.keys r d view)).filter fun p => (inv.edgeOf r d view p).isSome

theorem mem_dependencyEdges : e ∈ inv.dependencyEdges r d view ↔
    ∃ p ∈ inv.drawnPairs r d view, inv.edgeOf r d view p = some e := by
  rw [(dependencyEdges_perm view).mem_iff, mem_filterMap]
  constructor
  · rintro ⟨p, hp, he⟩
    exact ⟨p, mem_filter.mpr ⟨hp, by rw [he, isSome_some]⟩, he⟩
  · rintro ⟨p, hp, he⟩
    exact ⟨p, (mem_filter.mp hp).1, he⟩

theorem forall_dependencyEdges_iff {P : Edge → Prop} :
    (∀ e ∈ inv.dependencyEdges r d view, P e) ↔
      ∀ p ∈ inv.drawnPairs r d view, ∀ e, inv.edgeOf r d view p = some e → P e := by
  simp only [mem_dependencyEdges]
  grind

theorem mem_keys {id : Uuid} (h : id ∈ inv.keys r d view) :
    ∃ member ∈ d.memberIds, inv.pairedAs r d view member = some id := by
  unfold keys at h
  split_ifs at h
  · exact mem_filterMap.mp (Pairing.mem_destutter.mp h)
  · exact mem_filterMap.mp h

theorem mem_keys_of_pairs {ids : List Uuid} (h : p ∈ d.pairs ids) : p.1 ∈ ids ∧ p.2 ∈ ids := by
  unfold Dependency.pairs at h
  split at h
  · have hsub := (Pairing.mem_windows.mp (Prod.mk.eta (p := p) ▸ h)).subset
    exact ⟨hsub (by simp), hsub (by simp)⟩
  · exact nomatch h
  · obtain ⟨spoke, hspoke, rfl⟩ := List.mem_map.mp h
    exact ⟨mem_cons_self, mem_cons_of_mem _ hspoke⟩

theorem once_iff : ((inv.dependencyEdges r d view).Pairwise fun e e' =>
      ∀ a b, inv.JoinsMembers r d view e a b → ¬inv.JoinsMembers r d view e' a b) ↔
    (inv.drawnPairs r d view).Nodup := by
  have hsymm {e e' : Edge}
      (h : ∀ a b, inv.JoinsMembers r d view e a b → ¬inv.JoinsMembers r d view e' a b) :
      ∀ a b, inv.JoinsMembers r d view e' a b → ¬inv.JoinsMembers r d view e a b :=
    fun a b h' hjoins => h a b hjoins h'
  rw [(dependencyEdges_perm view).pairwise_iff hsymm, pairwise_filterMap, drawnPairs,
    nodup_iff_pairwise_ne, pairwise_filter]
  refine List.Pairwise.iff_of_mem fun {p p'} hp _ => ?_
  constructor
  · rintro h hp₁ hp₂ rfl
    obtain ⟨e, he⟩ := isSome_iff_exists.mp hp₁
    obtain ⟨h₁, h₂⟩ := mem_keys_of_pairs hp
    obtain ⟨a, -, ha⟩ := mem_keys h₁
    obtain ⟨b, -, hb⟩ := mem_keys h₂
    have hjoins := (joinsMembers_iff he).mpr ⟨ha, hb⟩
    exact h e he e he a b hjoins hjoins
  · intro h e he e' he' a b hjoins hjoins'
    obtain ⟨ha, hb⟩ := (joinsMembers_iff he).mp hjoins
    obtain ⟨ha', hb'⟩ := (joinsMembers_iff he').mp hjoins'
    refine h (by simp [he]) (by simp [he']) (Prod.ext ?_ ?_)
    · exact some.inj (ha.symm.trans ha')
    · exact some.inj (hb.symm.trans hb')

theorem apart_iff : (∀ e ∈ inv.dependencyEdges r d view, e.source ≠ e.target) ↔
    ∀ p ∈ inv.drawnPairs r d view, inv.shownBy r view p.1 ≠ inv.shownBy r view p.2 := by
  rw [forall_dependencyEdges_iff]
  refine forall₂_congr fun p hp => ?_
  obtain ⟨e, he⟩ := isSome_iff_exists.mp (mem_filter.mp hp).2
  obtain ⟨hsource, htarget, -⟩ := of_edgeOf he
  rw [hsource, htarget, he]
  simp

theorem forall_joins_iff {P : Uuid → Uuid → Prop} :
    (∀ e ∈ inv.dependencyEdges r d view, ∃ a b, P a b ∧ inv.JoinsMembers r d view e a b) ↔
      ∀ p ∈ inv.drawnPairs r d view, ∃ a b, P a b ∧
        inv.pairedAs r d view a = some p.1 ∧ inv.pairedAs r d view b = some p.2 := by
  rw [forall_dependencyEdges_iff]
  refine forall₂_congr fun p hp => ?_
  obtain ⟨e, he⟩ := isSome_iff_exists.mp (mem_filter.mp hp).2
  constructor
  · intro h
    obtain ⟨a, b, hP, hjoins⟩ := h e he
    exact ⟨a, b, hP, (joinsMembers_iff he).mp hjoins⟩
  · rintro ⟨a, b, hP, hpaired⟩ e' he'
    exact ⟨a, b, hP, (joinsMembers_iff he').mpr hpaired⟩

theorem isDrawnPair_iff : inv.IsDrawnPair r d view p ↔
    (d.merges view → p.1 ≠ p.2) ∧ (inv.edgeOf r d view p).isSome := by
  rw [isSome_edgeOf]
  cases hmerges : d.merges view <;> simp [IsDrawnPair, hmerges, and_assoc]

theorem drawnPairs_requestPath (hd : d.dependencyType = .requestPath) : inv.drawnPairs r d view =
    (Pairing.windows (d.memberIds.filterMap (inv.pairedAs r d view))).filter
      (inv.IsDrawnPair r d view) := by
  have hpairs (ids : List Uuid) : d.pairs ids = Pairing.windows ids := by
    unfold Dependency.pairs
    rw [hd]
  rw [drawnPairs, hpairs, keys]
  split_ifs with hmerges
  · rw [Pairing.windows_destutter, List.filter_filter]
    refine filter_congr fun p _ => Bool.eq_iff_iff.mpr ?_
    rw [isDrawnPair_iff]
    simp [hmerges, and_comm]
  · refine filter_congr fun p _ => Bool.eq_iff_iff.mpr ?_
    rw [isDrawnPair_iff]
    simp [hmerges]

theorem spans_nil_iff : Pairing.Spans (inv.pairedAs r d view) d.memberIds p [] ↔
    ∃ a b, [a, b] <:+: d.memberIds ∧
      inv.pairedAs r d view a = some p.1 ∧ inv.pairedAs r d view b = some p.2 := by
  unfold Pairing.Spans
  simp

/-- Along a path, gaps and repeats are the only ways to go wrong, besides two neighbours at one
node. -/
theorem path_iff (hd : d.dependencyType = .requestPath) :
    inv.DependencyFaithful r d view ↔ inv.StraightPath r d view := by
  have hdirect := @Pairing.direct_nodup_iff _ _ (inv.pairedAs r d view) d.memberIds
    (inv.IsDrawnPair r d view)
  have hmem (p : Uuid × Uuid) : p ∈ inv.drawnPairs r d view ↔
      (∃ xs, Pairing.Spans (inv.pairedAs r d view) d.memberIds p xs) ∧
        inv.IsDrawnPair r d view p := by
    rw [drawnPairs_requestPath hd, mem_filter, Pairing.mem_windows_filterMap]
  rw [← drawnPairs_requestPath hd] at hdirect
  simp only [spans_nil_iff, ← forall_joins_iff, ← once_iff] at hdirect
  constructor
  · intro h
    obtain ⟨hgap, honce⟩ := hdirect.mp ⟨h.path hd, h.once⟩
    refine ⟨hgap, fun p hspans hdrawn => ?_, honce⟩
    exact apart_iff.mp h.apart p ((hmem p).mpr ⟨⟨[], hspans⟩, hdrawn⟩)
  · intro h
    obtain ⟨hpath, honce⟩ := hdirect.mpr ⟨h.noGap, h.once⟩
    refine ⟨fun _ => hpath, fun h => ?_, apart_iff.mpr fun p hp => ?_, honce⟩
    · rw [hd] at h
      exact nomatch h
    · obtain ⟨⟨xs, hspans⟩, hdrawn⟩ := (hmem p).mp hp
      exact h.apart p (h.noGap p xs hspans hdrawn ▸ hspans) hdrawn

section Hub
variable {hub : Uuid} {spokes : List Uuid}

theorem hubAndSpoke_keys (hkeys : d.memberIds.filterMap (inv.pairedAs r d view) = hub :: spokes) :
    ∃ ids, inv.keys r d view = hub :: ids ∧ ids.Sublist spokes ∧
      (d.merges view = false → ids = spokes) ∧
      (d.merges view → hub :: ids = (hub :: spokes).destutter (· ≠ ·)) := by
  unfold keys
  rw [hkeys]
  split_ifs with hmerges
  · obtain ⟨ids, hids⟩ := Pairing.destutter'_eq_cons hub spokes
    have hsub := destutter'_sublist (R := (· ≠ ·)) (l := spokes) hub
    rw [hids] at hsub
    exact ⟨ids, hids, cons_sublist_cons.mp hsub, by simp [hmerges], fun _ => hids.symm⟩
  · exact ⟨spokes, rfl, .refl _, fun _ => rfl, fun h => absurd h hmerges⟩

theorem drawnPairs_hubAndSpoke (hd : d.dependencyType = .hubAndSpoke)
    (hkeys : inv.keys r d view = hub :: spokes) (hhub : (inv.shownBy r view hub).isSome) :
    inv.drawnPairs r d view =
      (spokes.filter fun spoke => (inv.shownBy r view spoke).isSome).map fun spoke => (hub, spoke) := by
  have hpairs : d.pairs (hub :: spokes) = spokes.map fun spoke => (hub, spoke) := by
    unfold Dependency.pairs
    rw [hd]
  rw [drawnPairs, hkeys, hpairs, List.filter_map]
  refine congrArg (List.map _) (filter_congr fun spoke _ => Bool.eq_iff_iff.mpr ?_)
  rw [comp_apply, isSome_edgeOf]
  exact ⟨fun h => h.2, fun h => ⟨hhub, h⟩⟩

theorem hub_joins_iff : (∀ e ∈ inv.dependencyEdges r d view, ∃ a rest, d.memberIds = a :: rest ∧
      ∃ b ∈ rest, inv.JoinsMembers r d view e a b) ↔
    ∀ p ∈ inv.drawnPairs r d view, ∃ a b, (∃ rest, d.memberIds = a :: rest ∧ b ∈ rest) ∧
      inv.pairedAs r d view a = some p.1 ∧ inv.pairedAs r d view b = some p.2 := by
  rw [← forall_joins_iff]
  refine forall₂_congr fun e _ => ?_
  grind

theorem hubFaithful_iff (hd : d.dependencyType = .hubAndSpoke) : inv.DependencyFaithful r d view ↔
    (∀ p ∈ inv.drawnPairs r d view, ∃ a b, (∃ rest, d.memberIds = a :: rest ∧ b ∈ rest) ∧
      inv.pairedAs r d view a = some p.1 ∧ inv.pairedAs r d view b = some p.2) ∧
    (∀ p ∈ inv.drawnPairs r d view, inv.shownBy r view p.1 ≠ inv.shownBy r view p.2) ∧
    (inv.drawnPairs r d view).Nodup := by
  rw [← hub_joins_iff, ← apart_iff, ← once_iff]
  constructor
  · intro h
    exact ⟨h.hub hd, h.apart, h.once⟩
  · rintro ⟨hhub, hapart, honce⟩
    refine ⟨fun h => ?_, fun _ => hhub, hapart, honce⟩
    rw [hd] at h
    exact nomatch h

theorem exists_spoke_iff (hkeys : d.memberIds.filterMap (inv.pairedAs r d view) = hub :: spokes)
    {spoke : Uuid} (hspoke : spoke ∈ spokes) :
    (∃ a b, (∃ rest, d.memberIds = a :: rest ∧ b ∈ rest) ∧
      inv.pairedAs r d view a = some hub ∧ inv.pairedAs r d view b = some spoke) ↔
    ∃ member ∈ d.memberIds.head?, inv.pairedAs r d view member = some hub := by
  constructor
  · rintro ⟨a, b, ⟨rest, hmembers, -⟩, ha, -⟩
    exact ⟨a, by simp [hmembers], ha⟩
  · rintro ⟨a, ha, hpaired⟩
    obtain ⟨rest, hmembers⟩ := head?_eq_some_iff.mp ha
    rw [hmembers, filterMap_cons_some hpaired, cons.injEq] at hkeys
    rw [← hkeys.2] at hspoke
    obtain ⟨b, hb, hpairedb⟩ := mem_filterMap.mp hspoke
    exact ⟨a, b, ⟨rest, hmembers, hb⟩, hpaired, hpairedb⟩

theorem straightHub_iff (hd : d.dependencyType = .hubAndSpoke)
    (hkeys : d.memberIds.filterMap (inv.pairedAs r d view) = hub :: spokes)
    (hhub : (inv.shownBy r view hub).isSome) :
    inv.DependencyFaithful r d view ↔ inv.StraightHub r d view hub spokes := by
  obtain ⟨ids, hids, hsub, hunmerged, hmerged⟩ := hubAndSpoke_keys hkeys
  have hdrawn (a spoke : Uuid) : (a, spoke) ∈ inv.drawnPairs r d view ↔
      a = hub ∧ spoke ∈ ids ∧ (inv.shownBy r view spoke).isSome := by
    rw [drawnPairs_hubAndSpoke hd hids hhub, List.mem_map]
    simp only [mem_filter]
    grind
  have hnodup : (inv.drawnPairs r d view).Nodup ↔
      (ids.filter fun spoke => (inv.shownBy r view spoke).isSome).Nodup := by
    rw [drawnPairs_hubAndSpoke hd hids hhub]
    exact nodup_map_iff fun a b h => (Prod.mk.inj h).2
  rw [hubFaithful_iff hd, hnodup]
  constructor
  · rintro ⟨hjoins, hapart, honce⟩
    refine ⟨?_, ?_, ?_, ?_⟩
    · rintro ⟨spoke, hspoke, hpair⟩
      obtain ⟨hne, hshown⟩ := isDrawnPair_iff.mp hpair
      have hmem : spoke ∈ ids := by
        cases hmerges : d.merges view with
        | false => exact hunmerged hmerges ▸ hspoke
        | true =>
          have hmem : spoke ∈ hub :: ids := by
            rw [hmerged hmerges]
            exact Pairing.mem_destutter.mpr (mem_cons_of_mem _ hspoke)
          exact (mem_cons.mp hmem).resolve_left fun h => hne hmerges h.symm
      have hp := (hdrawn hub spoke).mpr ⟨rfl, hmem, (isSome_edgeOf.mp hshown).2⟩
      exact (exists_spoke_iff hkeys hspoke).mp (hjoins _ hp)
    · intro hmerges spoke hspoke heq
      rw [← hunmerged hmerges] at hspoke
      exact hapart (hub, spoke) ((hdrawn _ _).mpr ⟨rfl, hspoke, heq ▸ hhub⟩) heq.symm
    · intro hmerges
      exact hunmerged hmerges ▸ honce
    · intro hmerges id hshown hagain
      have htwice := Pairing.twice_destutter.mpr hagain
      rw [← hmerged hmerges] at htwice
      rcases cons_sublist_cons'.mp htwice with htwice | ⟨rfl, htwice⟩
      · have hfiltered := htwice.filter fun spoke => (inv.shownBy r view spoke).isSome
        have hkept : [id, id].filter (fun spoke => (inv.shownBy r view spoke).isSome) = [id, id] := by
          simp [hshown]
        exact nodup_iff_sublist.mp honce id (hkept ▸ hfiltered)
      · have hmem : id ∈ ids := singleton_sublist.mp ‹[id].Sublist ids›
        exact hapart (id, id) ((hdrawn _ _).mpr ⟨rfl, hmem, hhub⟩) rfl
  · intro h
    have hne (hmerges : d.merges view) {id : Uuid} (hshown : (inv.shownBy r view id).isSome) :
        ¬Sublist [id, id] (hub :: ids) := by
      rw [hmerged hmerges, Pairing.twice_destutter]
      exact h.merged hmerges id hshown
    refine ⟨?_, ?_, ?_⟩
    · rintro ⟨hub', spoke⟩ hp
      obtain ⟨rfl, hspoke, hshown⟩ := (hdrawn _ _).mp hp
      refine (exists_spoke_iff hkeys (hsub.subset hspoke)).mpr (h.first ⟨spoke, hsub.subset hspoke, ?_⟩)
      refine isDrawnPair_iff.mpr ⟨fun hmerges heq => ?_, isSome_edgeOf.mpr ⟨hhub, hshown⟩⟩
      have heq : hub' = spoke := heq
      exact hne hmerges hhub
        (cons_sublist_cons.mpr (singleton_sublist.mpr (heq ▸ hspoke)))
    · rintro ⟨hub', spoke⟩ hp heq
      obtain ⟨rfl, hspoke, hshown⟩ := (hdrawn _ _).mp hp
      cases hmerges : d.merges view with
      | false => exact h.apart hmerges spoke (hunmerged hmerges ▸ hspoke) heq.symm
      | true =>
        obtain ⟨node, hnode⟩ := isSome_iff_exists.mp hshown
        have hview := merges_ne_l3Logical hmerges
        have hspoke' := shownBy_eq_some hview hnode
        have hhub' := shownBy_eq_some hview (heq.trans hnode)
        have hsame : hub' = spoke := hhub'.symm.trans hspoke'
        exact hne hmerges hhub
          (cons_sublist_cons.mpr (singleton_sublist.mpr (hsame ▸ hspoke)))
    · cases hmerges : d.merges view with
      | false => exact hunmerged hmerges ▸ h.once hmerges
      | true =>
        refine nodup_iff_sublist.mpr fun id hid => ?_
        have hmem : id ∈ ids.filter fun spoke => (inv.shownBy r view spoke).isSome :=
          hid.subset mem_cons_self
        exact hne hmerges (mem_filter.mp hmem).2
          ((hid.trans filter_sublist).cons hub)

end Hub

/-- The edges of a dependency are faithful if and only if its members are drawn straight. -/
theorem dependencyFaithful_iff (inv : Inventory) (r : Rendered) (d : Dependency)
    (view : TopologyView) : inv.DependencyFaithful r d view ↔ inv.StraightMembers r d view := by
  unfold StraightMembers
  cases hd : d.dependencyType with
  | requestPath => exact path_iff hd
  | hubAndSpoke =>
    have hnone (h : inv.drawnPairs r d view = []) : inv.DependencyFaithful r d view := by
      rw [hubFaithful_iff hd, h]
      simp
    constructor
    · intro h hub spokes hkeys hhub
      exact (straightHub_iff hd hkeys hhub).mp h
    · intro h
      cases hkeys : d.memberIds.filterMap (inv.pairedAs r d view) with
      | nil =>
        have hnil : inv.keys r d view = [] := by
          unfold keys
          simp [hkeys]
        exact hnone (by simp [drawnPairs, hnil, Dependency.pairs, hd])
      | cons hub spokes =>
        by_cases hhub : (inv.shownBy r view hub).isSome
        · exact (straightHub_iff hd hkeys hhub).mpr (h hub spokes hkeys hhub)
        · obtain ⟨ids, hids, -⟩ := hubAndSpoke_keys hkeys
          refine hnone (filter_eq_nil_iff.mpr fun p hp => ?_)
          have hpairs : d.pairs (hub :: ids) = ids.map fun spoke => (hub, spoke) := by
            unfold Dependency.pairs
            rw [hd]
          rw [hids, hpairs] at hp
          obtain ⟨spoke, -, rfl⟩ := List.mem_map.mp hp
          rw [isSome_edgeOf]
          exact fun h => hhub h.1

end Drawn

end Inventory

section Unclaimed

private def appServerId : Uuid := 0x6b1f0c82d94e4a7fb35c21e8a07d964c

private def frontendId : Uuid := 0x1d7ae3905f2846cb8e04b6c97d52f13a

private def openPortsId : Uuid := 0xc3590be4718d4f62a1e76d08f4b92c5e

private def databaseId : Uuid := 0x84f2d6b10a3c4e95b7c8e05d19a643f7

private def requestThrough : Dependency where
  id := 0xe90c4a7d26b14f83958d1fb30c7e6a52
  name := "checkout"
  dependencyType := .requestPath
  members := .services [frontendId, openPortsId, databaseId]

private def appServer : Inventory where
  hosts := [{ id := appServerId, name := "app-01" }]
  services := [
    { id := frontendId, hostId := appServerId, name := "Nginx",
      serviceDefinition := ⟨"Nginx", .reverseProxy, false⟩ },
    { id := openPortsId, hostId := appServerId, name := "Unclaimed Open Ports",
      serviceDefinition := ⟨"Unclaimed Open Ports", .openPorts, false⟩ },
    { id := databaseId, hostId := appServerId, name := "PostgreSQL",
      serviceDefinition := ⟨"PostgreSQL", .database, false⟩ }]
  dependencies := [requestThrough]

private def appServerEnv : BuildEnv where
  newV5 _ := 0x37d80e5c91fa5b2480c6af1e4b7d9203
  order := ⟨fun _ l => l, fun _ l => .refl l⟩

/-- The view of the workloads joins the ends of the path over the member that it leaves out. -/
theorem not_dependencyFaithful : ¬appServer.DependencyFaithful
    (appServer.rendered appServerEnv ⟨[], []⟩ .workloads) requestThrough .workloads := by
  intro h
  obtain ⟨e, he, hends⟩ : ∃ e ∈ appServer.dependencyEdges
      (appServer.rendered appServerEnv ⟨[], []⟩ .workloads) requestThrough .workloads,
      e.source = frontendId ∧ e.target = databaseId := by decide +kernel
  obtain ⟨a, b, hnext, hjoins⟩ := h.path rfl e he
  have hsteps : ∀ p ∈ Pairing.windows requestThrough.memberIds,
      appServer.memberNode (appServer.rendered appServerEnv ⟨[], []⟩ .workloads) requestThrough
        .workloads p.1 = some frontendId →
      appServer.memberNode (appServer.rendered appServerEnv ⟨[], []⟩ .workloads) requestThrough
        .workloads p.2 ≠ some databaseId := by decide +kernel
  refine hsteps (a, b) (Pairing.mem_windows.mpr hnext) ?_ ?_
  · rw [hjoins.source, hends.1]
  · rw [hjoins.target, hends.2]

end Unclaimed

end Scanopy.Graph
