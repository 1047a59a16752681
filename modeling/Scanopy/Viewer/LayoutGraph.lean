import Mathlib.Algebra.Order.Ring.Rat
import Mathlib.Data.List.Sort
import Mathlib.Tactic.NormNum
import Scanopy.Viewer.LevelSteps

/-! The layout graph of the viewer: containers and elements with their places and sizes. A container
that changes its size moves the siblings below it, up to its outermost parent. -/

namespace Scanopy

open List

structure LayoutPoint where
  x : ℚ
  y : ℚ

structure LayoutSize where
  width : ℚ
  height : ℚ
  height_nonneg : 0 ≤ height

def childSpacing : ℚ := 30

/-- `collapsed_size` of the type metadata. -/
def Graph.ContainerType.collapsedSize (ct : ContainerType) : LayoutSize :=
  if ct.isSubcontainer then ⟨250, 40, by decide⟩ else ⟨200, 80, by decide⟩

def Graph.ContainerType.paddingBottom : ContainerType → ℚ := fun _ => 25

/-- What the graph is built from: the nodes in the order of the maps, and the links between them,
which form a forest. -/
structure LayoutShape where
  containers : List String
  elements : List String
  nodup : (containers ++ elements).Nodup
  parent : String → Option String
  container : String → Option String
  containerType : String → Graph.ContainerType
  depth : String → ℕ
  depth_parent : ∀ c p, parent c = some p → depth p < depth c
  parent_mem : ∀ c p, parent c = some p → p ∈ containers
  container_mem : ∀ e p, container e = some p → p ∈ containers

/-- What the calls change. -/
structure LayoutState where
  position : String → LayoutPoint
  elementSize : String → LayoutSize
  expandedSize : String → LayoutSize
  measuredCollapsedSize : String → Option LayoutSize
  collapsed : String → Bool

theorem le_foldr_max (l : List ℚ) : 0 ≤ l.foldr max 0 ∧ ∀ a ∈ l, a ≤ l.foldr max 0 := by
  induction l with
  | nil => simp
  | cons a l ih =>
    obtain ⟨hzero, hle⟩ := ih
    refine ⟨hzero.trans (le_max_right _ _), forall_mem_cons.mpr ⟨le_max_left _ _, fun b hb => ?_⟩⟩
    exact (hle b hb).trans (le_max_right _ _)

namespace LayoutShape
variable (s : LayoutShape)

def childContainers (c : String) : List String := s.containers.filter (s.parent · = some c)

def allChildren (c : String) : List String :=
  s.childContainers c ++ s.elements.filter (s.container · = some c)

section Sizes
variable (st : LayoutState)

def collapsedSize (c : String) : LayoutSize :=
  (st.measuredCollapsedSize c).getD (s.containerType c).collapsedSize

def size (c : String) : LayoutSize := if st.collapsed c then s.collapsedSize st c else st.expandedSize c

def height (k : String) : ℚ :=
  if k ∈ s.containers then (s.size st k).height else (st.elementSize k).height

/-- The children in the column of `x`, from the top. -/
def column (c : String) (x : ℚ) : List String :=
  ((s.allChildren c).filter fun k => (st.position k).x = x).insertionSort fun a b =>
    (st.position a).y ≤ (st.position b).y

/-- Nodes one below the other, from `y` on. -/
def stack : ℚ → List String → List (String × ℚ)
  | _, [] => []
  | y, k :: ks => (k, y) :: stack (y + s.height st k + childSpacing) ks

def stackBelow (changed : String) : List String → List (String × ℚ)
  | [] => []
  | k :: ks =>
    let y := (st.position k).y
    (k, y) :: if k = changed then s.stack st (y + s.height st k + childSpacing) ks
      else stackBelow changed ks

/-- A column after the reflow. An empty id is none. -/
def stacked (c : String) (changed : Option String) (x : ℚ) : List (String × ℚ) :=
  match changed.filter (· ≠ ""), s.column st c x with
  | _, [] => []
  | some changed, k :: ks => s.stackBelow st changed (k :: ks)
  | none, k :: ks => s.stack st (st.position k).y (k :: ks)

def newY (c : String) (changed : Option String) (k : String) : ℚ :=
  (((s.stacked st c changed (st.position k).x).find? (·.1 = k)).map Prod.snd).getD (st.position k).y

def columnBottom (c : String) (changed : Option String) (x : ℚ) : ℚ :=
  ((s.stacked st c changed x).getLast?.map fun e => e.2 + s.height st e.1).getD 0

def maxColumnBottom (c : String) (changed : Option String) : ℚ :=
  (((s.allChildren c).map fun k => (st.position k).x).dedup.map (s.columnBottom st c changed)).foldr max 0

theorem maxColumnBottom_nonneg (c : String) (changed : Option String) :
    0 ≤ s.maxColumnBottom st c changed := (le_foldr_max _).1

end Sizes

/-- `reflowChildren`: the children of `c` are stacked anew and its height follows. The result is the
change of the height. -/
def reflowChildren (st : LayoutState) (c : String) (changed : Option String) : LayoutState × ℚ :=
  if s.allChildren c = [] then (st, 0)
  else
    let pad := (s.containerType c).paddingBottom
    let height := s.maxColumnBottom st c changed + pad
    have hheight : 0 ≤ height := add_nonneg (s.maxColumnBottom_nonneg st c changed)
      (show (0 : ℚ) ≤ 25 by norm_num)
    ({ st with
        position := fun k => if k ∈ s.allChildren c then
          ⟨(st.position k).x, s.newY st c changed k⟩ else st.position k
        expandedSize := Function.update st.expandedSize c
          ⟨(st.expandedSize c).width, height, hheight⟩ },
      height - (st.expandedSize c).height)

/-- `propagateResize`, with the depth of the container as its bound. -/
def propagateResize : ℕ → LayoutState → String → LayoutState
  | 0, st, _ => st
  | bound + 1, st, c =>
    match s.parent c with
    | none => st
    | some p =>
      if st.collapsed p then st
      else
        let r := s.reflowChildren st p none
        if r.2 ≠ 0 then propagateResize bound r.1 p else r.1

def reflowAround (st : LayoutState) (container : Option String) (changed : String) : LayoutState :=
  match container with
  | none => st
  | some p =>
    if st.collapsed p then st
    else
      let r := s.reflowChildren st p (some changed)
      if r.2 ≠ 0 then s.propagateResize (s.depth p) r.1 p else r.1

def collapse (st : LayoutState) (c : String) : LayoutState :=
  if c ∉ s.containers ∨ st.collapsed c then st
  else s.reflowAround
    { st with collapsed := fun k => k = c || (k ∈ s.childContainers c : Bool) || st.collapsed k }
    (s.parent c) c

def expand (st : LayoutState) (c : String) : LayoutState :=
  if c ∉ s.containers ∨ st.collapsed c = false then st
  else
    let st := { st with collapsed := Function.update st.collapsed c false }
    s.reflowAround (s.reflowChildren st c none).1 (s.parent c) c

def updateElementSize (st : LayoutState) (e : String) (size : LayoutSize) : LayoutState :=
  if e ∉ s.elements then st
  else s.reflowAround { st with elementSize := Function.update st.elementSize e size } (s.container e) e

def getCollapsedIds (st : LayoutState) : List String := s.containers.filter st.collapsed

/-- One turn of the loop of `syncCollapseState`. -/
def syncContainer (external : Finset String) (r : LayoutState × Bool) (c : String) : LayoutState × Bool :=
  if r.1.collapsed c ≠ decide (c ∈ external) then
    (if c ∈ external then s.collapse r.1 c else s.expand r.1 c, true)
  else r

def syncCollapseState (st : LayoutState) (external : Finset String) : LayoutState × Bool :=
  s.containers.foldl (s.syncContainer external) (st, false)

def ParentsFirst : Prop :=
  ∀ before c after, s.containers = before ++ c :: after → ∀ p, s.parent c = some p → p ∈ before

section Flags
variable {s} {st : LayoutState} {c : String}
variable {r : LayoutState × Bool}

@[simp] theorem collapsed_reflowChildren (changed : Option String) :
    (s.reflowChildren st c changed).1.collapsed = st.collapsed := by
  unfold reflowChildren
  split_ifs <;> rfl

@[simp] theorem collapsed_propagateResize (bound : ℕ) :
    (s.propagateResize bound st c).collapsed = st.collapsed := by
  induction bound generalizing st c with
  | zero => rfl
  | succ bound ih =>
    unfold propagateResize
    cases s.parent c with
    | none => rfl
    | some p =>
      dsimp only
      split_ifs
      · rfl
      · rw [ih, collapsed_reflowChildren]
      · exact collapsed_reflowChildren _

@[simp] theorem collapsed_reflowAround (container : Option String) (changed : String) :
    (s.reflowAround st container changed).collapsed = st.collapsed := by
  unfold reflowAround
  cases container with
  | none => rfl
  | some p =>
    dsimp only
    split_ifs <;> simp

/-- A turn brings its own container into the state from outside, and leaves every container but its
children as it was. -/
theorem collapsed_syncContainer (external : Finset String) (r : LayoutState × Bool)
    (hc : c ∈ s.containers) : (s.syncContainer external r c).1.collapsed c = decide (c ∈ external) ∧
      ∀ k, k ≠ c → k ∉ s.childContainers c →
        (s.syncContainer external r c).1.collapsed k = r.1.collapsed k := by
  obtain ⟨st, changed⟩ := r
  unfold syncContainer
  by_cases hsame : st.collapsed c = decide (c ∈ external)
  · simp [hsame]
  · by_cases hin : c ∈ external
    · have hopen : st.collapsed c = false := by simpa [hin] using hsame
      have hcall : s.collapse st c = s.reflowAround { st with collapsed := fun k =>
          k = c || (k ∈ s.childContainers c : Bool) || st.collapsed k } (s.parent c) c :=
        if_neg (by simp [hc, hopen])
      simp +contextual [hin, hopen, hcall]
    · have hclosed : st.collapsed c = true := by simpa [hin] using hsame
      have hcall : s.expand st c = s.reflowAround (s.reflowChildren
          { st with collapsed := Function.update st.collapsed c false } c none).1 (s.parent c) c :=
        if_neg (by simp [hc, hclosed])
      simp +contextual [hin, hclosed, hcall, Function.update_of_ne]

theorem collapsed_sync (hfirst : s.ParentsFirst) (external : Finset String) (before after : List String)
    (heq : s.containers = before ++ after)
    (hbefore : ∀ k ∈ before, r.1.collapsed k = decide (k ∈ external)) :
    ∀ k ∈ s.containers,
      (after.foldl (s.syncContainer external) r).1.collapsed k = decide (k ∈ external) := by
  induction after generalizing before r with
  | nil =>
    rw [heq, append_nil]
    exact hbefore
  | cons c after ih =>
    have hc : c ∈ s.containers := heq ▸ mem_append_right _ mem_cons_self
    have hnodup := (nodup_append.mp s.nodup).1
    obtain ⟨hset, hkept⟩ := collapsed_syncContainer external r hc
    refine ih (before ++ [c]) (by simp [heq]) fun k hk => ?_
    rcases mem_append.mp hk with hk | hk
    · have hne : k ≠ c := by
        rw [heq] at hnodup
        exact (nodup_append.mp hnodup).2.2 k hk c mem_cons_self
      refine (hkept k hne fun hchild => ?_).trans (hbefore k hk)
      -- a child of `c` among the containers before it would have its parent before itself
      obtain ⟨pre, post, rfl⟩ := append_of_mem hk
      have hparent : s.parent k = some c := of_decide_eq_true (mem_filter.mp hchild).2
      have hpre := hfirst pre k (post ++ c :: after) (by simp [heq]) c hparent
      rw [heq] at hnodup
      refine (nodup_append.mp hnodup).2.2 c ?_ c mem_cons_self rfl
      exact mem_append_left _ hpre
    · rw [mem_singleton.mp hk]
      exact hset

theorem syncContainer_of_eq {external : Finset String} {l : List String}
    (h : ∀ k ∈ l, r.1.collapsed k = decide (k ∈ external)) :
    l.foldl (s.syncContainer external) r = r := by
  induction l with
  | nil => rfl
  | cons c l ih =>
    obtain ⟨hc, hl⟩ := forall_mem_cons.mp h
    have hturn : s.syncContainer external r c = r := if_neg (not_not.mpr hc)
    rw [foldl_cons, hturn]
    exact ih hl

end Flags

theorem syncCollapseState_settles (hfirst : s.ParentsFirst) (st : LayoutState)
    (external : Finset String) :
    s.getCollapsedIds (s.syncCollapseState st external).1 = s.containers.filter (· ∈ external) ∧
      s.syncCollapseState (s.syncCollapseState st external).1 external =
        ((s.syncCollapseState st external).1, false) := by
  have hset := collapsed_sync hfirst external [] s.containers (nil_append _).symm
    (r := (st, false)) fun k hk => absurd hk not_mem_nil
  exact ⟨filter_congr fun c hc => hset c hc, syncContainer_of_eq (r := (_, false)) hset⟩

def nestedBoxes : LayoutShape where
  containers := ["lan", "printers"]
  elements := []
  nodup := by decide
  parent k := if k = "printers" then some "lan" else none
  container _ := none
  containerType _ := .subnet
  depth k := if k = "printers" then 1 else 0
  depth_parent := by
    intro c p h
    split_ifs at h with hc
    obtain rfl := Option.some.inj h
    rw [if_pos hc]
    decide
  parent_mem := by
    intro c p h
    split_ifs at h with hc
    obtain rfl := Option.some.inj h
    exact List.mem_cons_self
  container_mem := nofun

def blank : LayoutState :=
  ⟨fun _ => ⟨0, 0⟩, fun _ => ⟨250, 100, by norm_num⟩, fun _ => ⟨0, 0, le_rfl⟩, fun _ => none,
    fun _ => false⟩

theorem syncCollapseState_settles_nested :
    nestedBoxes.getCollapsedIds (nestedBoxes.syncCollapseState blank {"lan"}).1 =
        nestedBoxes.containers.filter (· ∈ ({"lan"} : Finset String)) ∧
      nestedBoxes.syncCollapseState (nestedBoxes.syncCollapseState blank {"lan"}).1 {"lan"} =
        ((nestedBoxes.syncCollapseState blank {"lan"}).1, false) := by
  refine syncCollapseState_settles nestedBoxes (fun before c after heq p hp => ?_) blank {"lan"}
  have hc : c = "printers" ∧ p = "lan" := by
    have hp : (if c = "printers" then some "lan" else none) = some p := hp
    split_ifs at hp with hc
    exact ⟨hc, (Option.some.inj hp).symm⟩
  obtain ⟨rfl, rfl⟩ := hc
  cases before with
  | nil => exact absurd (cons.inj heq).1 (by decide)
  | cons b before =>
    rw [← (cons.inj heq).1]
    exact mem_cons_self

end LayoutShape

end Scanopy
