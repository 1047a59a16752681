import Scanopy.Viewer.Reflow

/-! What is drawn of a layout graph: the nodes that lie in no collapsed container, at any depth. What
is counted in a container, and where a node lies, go by the same chain of containers. -/

namespace Scanopy

open List Option Function

namespace LayoutShape
variable (s : LayoutShape)

def enclosing (c : String) : List String :=
  c :: match _h : s.parent c with
    | none => []
    | some p => enclosing p
termination_by s.depth c
decreasing_by exact s.depth_parent c p _h

def nearest (k : String) : Option String :=
  (if k ∈ s.elements then s.container k else none).or (if k ∈ s.containers then s.parent k else none)

def ancestorIdsOf (k : String) : List String := (s.nearest k).elim [] s.enclosing

def getVisibleNodes (st : LayoutState) (nodes : List String) : List String :=
  if s.getCollapsedIds st = [] then nodes
  else nodes.filter fun k => (s.ancestorIdsOf k).all (· ∉ s.getCollapsedIds st)

section Chains
variable {s} {c d k : String} {st : LayoutState} {nodes : List String}

theorem mem_enclosing : k ∈ s.enclosing c ↔ k = c ∨ ∃ p, s.parent c = some p ∧ k ∈ s.enclosing p := by
  rw [enclosing]
  split <;> simp_all

theorem mem_ancestorIdsOf : c ∈ s.ancestorIdsOf k ↔ ∃ p, s.nearest k = some p ∧ c ∈ s.enclosing p := by
  unfold ancestorIdsOf
  cases s.nearest k <;> simp

theorem nearest_of_mem_allChildren (h : k ∈ s.allChildren c) : s.nearest k = some c := by
  unfold nearest
  rcases mem_allChildren.mp h with ⟨hk, hparent⟩ | ⟨hk, hcontainer⟩
  · rw [if_neg (not_both hk), if_pos hk, hparent, none_or]
  · rw [if_pos hk, hcontainer, some_or]

theorem mem_containers_of_enclosing (hc : c ∈ s.containers) (hk : k ∈ s.enclosing c) :
    k ∈ s.containers := by
  induction hn : s.depth c using Nat.strong_induction_on generalizing c with
  | _ n ih =>
    subst hn
    rcases mem_enclosing.mp hk with rfl | ⟨p, hp, hmem⟩
    · exact hc
    · exact ih _ (s.depth_parent c p hp) (s.parent_mem c p hp) hmem rfl

theorem mem_containers_of_ancestor (h : c ∈ s.ancestorIdsOf k) : c ∈ s.containers := by
  obtain ⟨p, hp, hmem⟩ := mem_ancestorIdsOf.mp h
  refine mem_containers_of_enclosing ?_ hmem
  unfold nearest at hp
  rcases or_eq_some_iff.mp hp with h | ⟨-, h⟩
  · exact s.container_mem k p (ite_none_right_eq_some.mp h).2
  · exact s.parent_mem k p (ite_none_right_eq_some.mp h).2

theorem getVisibleNodes_eq (st : LayoutState) (nodes : List String) :
    s.getVisibleNodes st nodes =
      nodes.filter fun k => (s.ancestorIdsOf k).all fun c => !st.collapsed c := by
  have hopen : ∀ k, ∀ c ∈ s.ancestorIdsOf k, c ∈ s.getCollapsedIds st ↔ st.collapsed c = true :=
    fun k c hc => mem_filter.trans (and_iff_right (mem_containers_of_ancestor hc))
  unfold getVisibleNodes
  split_ifs with hnone
  · refine (filter_eq_self.mpr fun k _ => List.all_eq_true.mpr fun c hc => ?_).symm
    have hnot := (hopen k c hc).not.mp (by simp [hnone])
    simpa using hnot
  · refine filter_congr fun k _ => ?_
    rw [Bool.eq_iff_iff, List.all_eq_true, List.all_eq_true]
    refine forall₂_congr fun c hc => ?_
    simp [hopen k c hc]

theorem mem_getVisibleNodes : k ∈ s.getVisibleNodes st nodes ↔
    k ∈ nodes ∧ ∀ c ∈ s.ancestorIdsOf k, st.collapsed c = false := by
  rw [getVisibleNodes_eq, mem_filter, List.all_eq_true]
  simp

end Chains

/-- After a call with a set from outside, what is drawn depends on that set only. -/
theorem getVisibleNodes_syncCollapseState (hfirst : s.ParentsFirst) (st : LayoutState)
    (external : Finset String) (nodes : List String) :
    s.getVisibleNodes (s.syncCollapseState st external).1 nodes =
      nodes.filter fun k => (s.ancestorIdsOf k).all (· ∉ external) := by
  have hset := collapsed_sync hfirst external [] s.containers (nil_append _).symm
    (r := (st, false)) fun k hk => absurd hk not_mem_nil
  rw [getVisibleNodes_eq]
  refine filter_congr fun k _ => ?_
  rw [Bool.eq_iff_iff, List.all_eq_true, List.all_eq_true]
  refine forall₂_congr fun c hc => ?_
  rw [syncCollapseState, hset c (mem_containers_of_ancestor hc)]
  simp

theorem getVisibleNodes_syncCollapseState_hosts :
    hostBox.getVisibleNodes (hostBox.syncCollapseState (stackedHosts false) {"lan"}).1 ["lan", "nas"] =
      ["lan", "nas"].filter fun k => (hostBox.ancestorIdsOf k).all (· ∉ ({"lan"} : Finset String)) :=
  getVisibleNodes_syncCollapseState hostBox (by rintro _ _ _ _ _ ⟨⟩) _ _ _

/-- A call of the user or of the measurement, or one that takes over the state from outside. -/
inductive SessionOp where
  | op (op : LayoutOp)
  | sync (external : Finset String)

def sessionStep (st : LayoutState) : SessionOp → LayoutState
  | .op op => s.step st op
  | .sync external => (s.syncCollapseState st external).1

def session (st : LayoutState) (ops : List SessionOp) : LayoutState := ops.foldl s.sessionStep st

/-- Nothing that is drawn lies on a node of its column, or below the edge of its container. -/
structure DrawnApart (st : LayoutState) (nodes : List String) : Prop where
  apart : ∀ c ∈ s.containers, ∀ a ∈ s.getVisibleNodes st nodes, ∀ b ∈ s.getVisibleNodes st nodes,
    a ∈ s.allChildren c → b ∈ s.allChildren c → a ≠ b → (st.position a).x = (st.position b).x →
      (st.position a).y + s.height st a ≤ (st.position b).y ∨
        (st.position b).y + s.height st b ≤ (st.position a).y
  inside : ∀ c ∈ s.containers, ∀ k ∈ s.getVisibleNodes st nodes, k ∈ s.allChildren c →
    (st.position k).y + s.height st k ≤ (s.size st c).height

section Sessions
variable {s} {st : LayoutState}

theorem keepsColumns_syncContainers (external : Finset String) (l : List String)
    {r : LayoutState × Bool} (h : s.Laid r.1) :
    s.KeepsColumns r.1 (l.foldl (s.syncContainer external) r).1 := by
  induction l generalizing r with
  | nil => exact ⟨h, KeepsOrder.refl s _⟩
  | cons c l ih =>
    have hturn : s.KeepsColumns r.1 (s.syncContainer external r c).1 := by
      unfold syncContainer
      split_ifs
      · exact keepsColumns_step s h (.collapse c)
      · exact keepsColumns_step s h (.expand c)
      · exact ⟨h, KeepsOrder.refl s _⟩
    have hrest := ih hturn.laid
    exact ⟨hrest.laid, hturn.order.trans hrest.order⟩

theorem laid_session (h : s.Laid st) (ops : List SessionOp) : s.Laid (s.session st ops) := by
  induction ops generalizing st with
  | nil => exact h
  | cons op ops ih =>
    refine ih ?_
    cases op with
    | op op => exact (keepsColumns_step s h op).laid
    | sync external => exact (keepsColumns_syncContainers external s.containers (r := (st, false)) h).laid

theorem sound_of_visible {c k : String} {nodes : List String} (h : s.Laid st) (hc : c ∈ s.containers)
    (hk : k ∈ s.getVisibleNodes st nodes) (hchild : k ∈ s.allChildren c) :
    s.Sound st c ∧ st.collapsed c = false := by
  have hopen := (mem_getVisibleNodes.mp hk).2 c
    (mem_ancestorIdsOf.mpr ⟨c, nearest_of_mem_allChildren hchild, mem_enclosing.mpr (.inl rfl)⟩)
  exact ⟨h c hc hopen, hopen⟩

end Sessions

/-- In every session that starts from a layout, nothing that is drawn overlaps. -/
theorem drawnApart_session {st : LayoutState} (h : s.Laid st) (ops : List SessionOp)
    (nodes : List String) : s.DrawnApart (s.session st ops) nodes := by
  have hlaid := laid_session h ops
  refine ⟨fun c hc a ha b _ hachild hbchild hne hx => ?_, fun c hc k hk hchild => ?_⟩
  · obtain ⟨hsound, -⟩ := sound_of_visible hlaid hc ha hachild
    rcases hsound.apart a hachild b hbchild hne hx with hab | hba
    · exact .inl (hab.2.resolve_left (by rintro ⟨⟩))
    · exact .inr (hba.2.resolve_left (by rintro ⟨⟩))
  · obtain ⟨hsound, hopen⟩ := sound_of_visible hlaid hc hk hchild
    have hsize : s.size (s.session st ops) c = (s.session st ops).expandedSize c :=
      if_neg (Bool.eq_false_iff.mp hopen)
    rw [hsize]
    exact hsound.tall k hchild

theorem drawnApart_session_hosts : hostBox.DrawnApart (hostBox.session (stackedHosts false)
    [.sync {"lan"}, .op (.updateElementSize "nas" ⟨250, 200, by norm_num⟩), .sync {}]) ["nas", "tv"] :=
  drawnApart_session hostBox (fun c hc _ => sound_stackedHosts false c hc) _ _

/-- A graph with the positions that have been asked for since they last changed. -/
structure CachedGraph where
  st : LayoutState
  absolutePositionsCache : String → Option LayoutPoint

section Positions

def getAbsolutePosition (st : LayoutState) (k : String) : Option LayoutPoint :=
  if k ∈ s.containers ++ s.elements then
    some ⟨(st.position k).x + ((s.ancestorIdsOf k).map fun c => (st.position c).x).sum,
      (st.position k).y + ((s.ancestorIdsOf k).map fun c => (st.position c).y).sum⟩
  else none

def placeContainer (st : LayoutState) (c : String) (position : LayoutPoint)
    (measured expanded : Option LayoutSize) : LayoutState :=
  let st := { st with position := Function.update st.position c position }
  if st.collapsed c then { st with
    measuredCollapsedSize := Function.update st.measuredCollapsedSize c
      (measured.or (st.measuredCollapsedSize c)) }
  else { st with
    expandedSize := Function.update st.expandedSize c (expanded.getD (st.expandedSize c)) }

def applyElkResult (st : LayoutState) (nodePositions : List (String × LayoutPoint))
    (containerSizes elementNodeSizes : String → Option LayoutSize) : LayoutState :=
  nodePositions.foldl (fun st (k, position) =>
    if k ∈ s.containers then placeContainer st k position (containerSizes k) (containerSizes k)
    else if k ∈ s.elements then { st with
      position := Function.update st.position k position
      elementSize := Function.update st.elementSize k ((elementNodeSizes k).getD (st.elementSize k)) }
    else st) st

def applyForceResult (st : LayoutState) (nodePositions : List (String × LayoutPoint))
    (measuredSizes : String → Option LayoutSize) : LayoutState :=
  nodePositions.foldl (fun st (k, position) =>
    if k ∈ s.containers then placeContainer st k position (measuredSizes k) none else st) st

def restoreExpandedSizes (st : LayoutState) (sizes : List (String × LayoutSize)) : LayoutState :=
  { st with expandedSize := sizes.foldl (fun expandedSize (c, size) =>
      if c ∈ s.containers then Function.update expandedSize c size else expandedSize) st.expandedSize }

def restoreContainerChildPositions (st : LayoutState)
    (positions : List (String × List (String × LayoutPoint))) : LayoutState :=
  { st with position := positions.foldl (fun position (c, children) =>
      if c ∈ s.containers ∧ st.collapsed c then children.foldl (fun position (k, restored) =>
        if k ∈ s.containers ++ s.elements then Function.update position k restored else position)
        position
      else position) st.position }

inductive GraphCall where
  | session (op : SessionOp)
  | applyElkResult (nodePositions : List (String × LayoutPoint))
      (containerSizes elementNodeSizes : String → Option LayoutSize)
  | applyForceResult (nodePositions : List (String × LayoutPoint))
      (measuredSizes : String → Option LayoutSize)
  | restoreExpandedSizes (sizes : List (String × LayoutSize))
  | restoreContainerChildPositions (positions : List (String × List (String × LayoutPoint)))
  | getAbsolutePosition (k : String)

def returnsEarly (st : LayoutState) : LayoutOp → Bool
  | .collapse c => c ∉ s.containers || st.collapsed c
  | .expand c => c ∉ s.containers || !st.collapsed c
  | .updateElementSize e _ => e ∉ s.elements

/-- `getAbsolutePosition`, which answers from the cache what is there. -/
def readPosition (g : CachedGraph) (k : String) : Option LayoutPoint :=
  (g.absolutePositionsCache k).or (s.getAbsolutePosition g.st k)

def call (g : CachedGraph) : GraphCall → CachedGraph
  | .session (.op op) => if s.returnsEarly g.st op then g else ⟨s.step g.st op, fun _ => none⟩
  | .session (.sync external) =>
    let r := s.syncCollapseState g.st external
    ⟨r.1, if r.2 then fun _ => none else g.absolutePositionsCache⟩
  | .applyElkResult positions sizes elementSizes =>
    ⟨s.applyElkResult g.st positions sizes elementSizes, fun _ => none⟩
  | .applyForceResult positions sizes => ⟨s.applyForceResult g.st positions sizes, fun _ => none⟩
  | .restoreExpandedSizes sizes => { g with st := s.restoreExpandedSizes g.st sizes }
  | .restoreContainerChildPositions positions =>
    { g with st := s.restoreContainerChildPositions g.st positions }
  | .getAbsolutePosition k => { g with
      absolutePositionsCache := Function.update g.absolutePositionsCache k (s.readPosition g k) }

/-- Positions of children are restored, without a word to the cache, only while nothing is in it. -/
def RestoresFresh : CachedGraph → List GraphCall → Prop
  | _, [] => True
  | g, c :: calls => (∀ positions, c = .restoreContainerChildPositions positions →
      ∀ k, g.absolutePositionsCache k = none) ∧ RestoresFresh (s.call g c) calls

def Coherent (g : CachedGraph) : Prop :=
  ∀ k p, g.absolutePositionsCache k = some p → s.getAbsolutePosition g.st k = some p

variable {s} {g : CachedGraph} {st : LayoutState}

theorem Coherent.empty (st : LayoutState) : s.Coherent ⟨st, fun _ => none⟩ := by
  rintro _ _ ⟨⟩

theorem syncContainers_of_unchanged (external : Finset String) (l : List String)
    (r : LayoutState × Bool) : (l.foldl (s.syncContainer external) r).2 = true ∨
      l.foldl (s.syncContainer external) r = r := by
  induction l generalizing r with
  | nil => exact .inr rfl
  | cons c l ih =>
    rw [foldl_cons]
    rcases ih (s.syncContainer external r c) with hchanged | heq
    · exact .inl hchanged
    · rw [heq]
      unfold syncContainer
      split_ifs
      · exact .inl rfl
      · exact .inl rfl
      · exact .inr rfl

theorem Coherent.read (h : s.Coherent g) (k : String) :
    s.readPosition g k = s.getAbsolutePosition g.st k := by
  unfold readPosition
  cases hcache : g.absolutePositionsCache k with
  | none => exact none_or
  | some p => rw [some_or, h k p hcache]

theorem Coherent.call (h : s.Coherent g) (c : GraphCall)
    (hfresh : ∀ positions, c = .restoreContainerChildPositions positions →
      ∀ k, g.absolutePositionsCache k = none) : s.Coherent (s.call g c) := by
  rcases c with (op | external) | _ | _ | sizes | positions | j
  · rw [LayoutShape.call]
    split_ifs
    · exact h
    · exact .empty _
  · rw [LayoutShape.call, syncCollapseState]
    rcases syncContainers_of_unchanged external s.containers (g.st, false) with hchanged | hsame
    · rw [hchanged]
      exact .empty _
    · rw [hsame]
      exact h
  · exact .empty _
  · exact .empty _
  · exact h
  · intro k p hk
    cases hk.symm.trans (hfresh positions rfl k)
  · intro k p hk
    by_cases hj : k = j
    · subst hj
      have hself := (update_self _ _ _).symm.trans hk
      exact (h.read k).symm.trans hself
    · exact h k p ((update_of_ne hj _ _).symm.trans hk)

theorem Coherent.run (h : s.Coherent g) {calls : List GraphCall} (hfresh : s.RestoresFresh g calls) :
    s.Coherent (calls.foldl s.call g) := by
  induction calls generalizing g with
  | nil => exact h
  | cons c calls ih => exact ih (h.call c hfresh.1) hfresh.2

/-- Every position that is read of a graph, whatever was called since it was built, is the walk's. -/
theorem readPosition_run (s : LayoutShape) (st : LayoutState) (calls : List GraphCall)
    (hfresh : s.RestoresFresh ⟨st, fun _ => none⟩ calls) (k : String) :
    s.readPosition (calls.foldl s.call ⟨st, fun _ => none⟩) k =
      s.getAbsolutePosition (calls.foldl s.call ⟨st, fun _ => none⟩).st k :=
  ((Coherent.empty st).run hfresh).read k

def readingCalls : List GraphCall :=
  [.getAbsolutePosition "nas", .session (.sync {"lan"}), .getAbsolutePosition "tv"]

theorem readPosition_run_hosts :
    hostBox.readPosition (readingCalls.foldl hostBox.call ⟨stackedHosts false, fun _ => none⟩) "tv" =
      hostBox.getAbsolutePosition
        (readingCalls.foldl hostBox.call ⟨stackedHosts false, fun _ => none⟩).st "tv" :=
  readPosition_run hostBox _ readingCalls
    ⟨by rintro _ ⟨⟩, by rintro _ ⟨⟩, by rintro _ ⟨⟩, trivial⟩ "tv"

end Positions

end LayoutShape

end Scanopy
