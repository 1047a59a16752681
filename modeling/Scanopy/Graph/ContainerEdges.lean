import Mathlib.Data.List.MinMax
import Mathlib.Data.Prod.Lex
import Scanopy.Graph.EdgeBuilder

/-! The edges of containers. Where subnets are boxes a runtime has one edge for a subnet, or one for
all of them if they share a box; elsewhere it has one for every address. -/

namespace Scanopy.Graph

open List Function

section Addresses

def addressKey (a : IpAddr × Uuid) : ℕ ×ₗ ℕ ×ₗ ℕ :=
  match a.1 with
  | .v4 bits => toLex (0, toLex (bits.toNat, rank a.2))
  | .v6 bits => toLex (1, toLex (bits.toNat, rank a.2))

theorem addressLt_iff {a b : IpAddr × Uuid} : addressLt a b ↔ addressKey a < addressKey b := by
  obtain ⟨x, i⟩ := a
  obtain ⟨y, j⟩ := b
  unfold addressLt addressKey IpAddr.lt
  cases x <;> cases y <;>
    simp [Prod.Lex.toLex_lt_toLex, BitVec.toNat_eq]

theorem lowestAddress_eq (l : List (IpAddr × Uuid)) : lowestAddress l = l.argmin addressKey := by
  unfold lowestAddress List.argmin
  refine congrArg (fun f => List.foldl f none l) (funext fun lowest => funext fun a => ?_)
  cases lowest with
  | none => rfl
  | some current => simp only [List.argAux, addressLt_iff]

theorem lowestAddress_spec {l : List (IpAddr × Uuid)} {a : IpAddr × Uuid}
    (h : lowestAddress l = some a) : a ∈ l ∧ ∀ b ∈ l, addressLt b a = false := by
  rw [lowestAddress_eq] at h
  refine ⟨argmin_mem h, fun b hb => ?_⟩
  rw [Bool.eq_false_iff, Ne, addressLt_iff]
  exact not_lt_of_mem_argmin hb h

theorem lowestAddress_eq_none {l : List (IpAddr × Uuid)} : lowestAddress l = none ↔ l = [] := by
  rw [lowestAddress_eq, argmin_eq_none]

theorem sortAddresses_perm (l : List (IpAddr × Uuid)) : (sortAddresses l).Perm l :=
  mergeSort_perm l _

theorem sortAddresses_spec {l rest : List (IpAddr × Uuid)} {a : IpAddr × Uuid}
    (h : sortAddresses l = a :: rest) : ∀ b ∈ l, addressLt b a = false := by
  have hle (x y : IpAddr × Uuid) : (!addressLt y x) = true ↔ addressKey x ≤ addressKey y := by
    rw [Bool.not_eq_true', Bool.eq_false_iff, Ne, addressLt_iff, not_lt]
  have hsorted := @List.pairwise_mergeSort _ (fun x y => !addressLt y x)
    (fun x y z hxy hyz => (hle x z).mpr (((hle x y).mp hxy).trans ((hle y z).mp hyz)))
    (fun x y => by
      rw [Bool.or_eq_true, hle, hle]
      exact le_total _ _) l
  have hsorted : (a :: rest).Pairwise fun x y => (!addressLt y x) = true := h ▸ hsorted
  intro b hb
  rcases mem_cons.mp (h ▸ (sortAddresses_perm l).mem_iff.mpr hb) with rfl | hb
  · rw [Bool.eq_false_iff, Ne, addressLt_iff]
    exact lt_irrefl _
  · simpa using (pairwise_cons.mp hsorted).1 b hb

end Addresses

section Edges

namespace Edge
variable (edge : Edge)

def subnetIds : List Uuid :=
  match edge.edgeType with
  | .containerRuntime _ _ subnetIds _ => subnetIds
  | _ => []

def containerIds : List Uuid :=
  match edge.edgeType with
  | .containerRuntime _ _ _ containerIds => containerIds
  | _ => []

def carried : List (Uuid × Uuid) :=
  edge.subnetIds.flatMap fun subnetId => edge.containerIds.map fun id => (subnetId, id)

end Edge

/-- An attachment with the lowest address of those with `P`. -/
def IsLowest (P : Inventory.Attachment → Prop) (ipAddressId : Uuid) : Prop :=
  ∃ a, P a ∧ a.ipAddressId = ipAddressId ∧
    ∀ b, P b → addressLt (b.address, b.ipAddressId) (a.address, a.ipAddressId) = false

section Covers
variable (edges : List Edge) (A : Inventory.Attachment → Prop)

structure CoversAttachments : Prop where
  pairs : ∀ subnetId id, (subnetId, id) ∈ edges.flatMap Edge.carried ↔
    ∃ a, A a ∧ a.subnetId = subnetId ∧ a.containerizedId = id
  once : (edges.flatMap Edge.carried).Nodup
  lowest : ∀ edge ∈ edges, IsLowest (fun a => A a ∧ a.subnetId ∈ edge.subnetIds) edge.target

structure CoversBridges : Prop where
  single : edges.length ≤ 1
  subnets : ∀ id, (∃ edge ∈ edges, id ∈ edge.subnetIds) ↔ ∃ a, A a ∧ a.subnetId = id
  containers : ∀ id, (∃ edge ∈ edges, id ∈ edge.containerIds) ↔ ∃ a, A a ∧ a.containerizedId = id
  once : ∀ edge ∈ edges, edge.subnetIds.Nodup ∧ edge.containerIds.Nodup
  lowest : ∀ edge ∈ edges, IsLowest (fun a => A a ∧ a.subnetId ∈ edge.subnetIds) edge.target

structure CoversAddresses : Prop where
  attached : ∀ ipAddressId subnetId id,
    (ipAddressId, subnetId, id) ∈ edges.flatMap (fun edge => edge.carried.map (edge.target, ·)) ↔
      ∃ a, A a ∧ a.ipAddressId = ipAddressId ∧ a.subnetId = subnetId ∧ a.containerizedId = id
  once : (edges.flatMap fun edge => edge.carried.map (edge.target, ·)).Nodup

end Covers

def SpanningStar (addresses : List (IpAddr × Uuid)) (edges : List Edge) : Prop :=
  (addresses = [] → edges = []) ∧ (addresses ≠ [] → ∃ anchor ∈ addresses,
    (∀ a ∈ addresses, addressLt a anchor = false) ∧
      (edges.map fun edge => (edge.source, edge.target)).Perm
        ((addresses.filter (· ≠ anchor)).map fun a => (anchor.2, a.2)))

namespace Inventory
variable (inv : Inventory) (grouping : GroupingConfig)

section Definitions

structure IsAttached (hostId serviceId : Uuid) (a : Attachment) : Prop where
  runs : a.containerizedId ∈ inv.containerizedServiceIds serviceId
  bound : ∃ s, inv.getServiceById a.containerizedId = some s ∧
    ∃ b ∈ s.bindings, b.ipAddressId = some a.ipAddressId
  bridge : inv.bridgeIp hostId a.ipAddressId = some (a.subnetId, a.address)

def runtimeOrigin (s : Service) : Option (Host × IPAddress) :=
  (inv.getHostById s.hostId).bind fun host =>
    (inv.getFirstNonContainerBridgeIpAddressForHost host.id).map fun origin => (host, origin)

def runtimeEdge (s : Service) (host : Host) (origin : IPAddress)
    (e : Uuid × List Uuid × List Uuid) : Edge where
  source := origin.id
  target := e.1
  edgeType := .containerRuntime host.id s.id e.2.1 e.2.2
  label := some (s.name ++ " on " ++ host.name)
  isMultiHop := inv.edgeIsMultiHop origin.id e.1

def runtimeEdges (s : Service) : List Edge :=
  match inv.runtimeOrigin s with
  | none => []
  | some (host, origin) =>
    (perEdge (inv.attachments host.id s.id) grouping).map (inv.runtimeEdge s host origin)

def sameContainerEdges (s : Service) : List Edge :=
  if s.virtualizationMetadata.isNone then []
  else match sortAddresses (inv.bridgeAddresses s) with
    | [] => []
    | (_, anchor) :: targets => targets.map fun (_, target) => {
        source := anchor
        target
        edgeType := .sameContainer s.id
        label := some s.name
        isMultiHop := inv.edgeIsMultiHop anchor target }

structure ContainersCovered : Prop where
  runtimes : inv.createContainerizedServiceEdges grouping =
    inv.services.flatMap (inv.runtimeEdges grouping)
  containers : inv.createSameContainerEdges = inv.services.flatMap inv.sameContainerEdges
  runtime : ∀ s ∈ inv.services, ∀ host origin, inv.runtimeOrigin s = some (host, origin) →
    if grouping.shouldGroupContainerBridges then
      CoversBridges (inv.runtimeEdges grouping s) (inv.IsAttached host.id s.id)
    else if grouping.subnetsAreContainers then
      CoversAttachments (inv.runtimeEdges grouping s) (inv.IsAttached host.id s.id)
    else CoversAddresses (inv.runtimeEdges grouping s) (inv.IsAttached host.id s.id)
  star : ∀ s ∈ inv.services, s.virtualizationMetadata.isSome →
    SpanningStar (inv.bridgeAddresses s) (inv.sameContainerEdges s)

end Definitions

section Runs
variable {inv : Inventory} {grouping : GroupingConfig} {hostId serviceId : Uuid} {a : Attachment}
  {l : List Attachment}

theorem mem_attachments : a ∈ inv.attachments hostId serviceId ↔ inv.IsAttached hostId serviceId a := by
  unfold attachments
  rw [mem_flatMap]
  constructor
  · rintro ⟨id, hid, ha⟩
    cases hs : inv.getServiceById id with
    | none => simp [hs] at ha
    | some s =>
      simp only [hs, mem_filterMap] at ha
      obtain ⟨b, hb, ha⟩ := ha
      obtain ⟨ipAddressId, hip, ha⟩ := Option.bind_eq_some_iff.mp ha
      obtain ⟨⟨subnetId, address⟩, hbridge, rfl⟩ := Option.map_eq_some_iff.mp ha
      exact ⟨hid, ⟨s, hs, b, hb, hip⟩, hbridge⟩
  · rintro ⟨hid, ⟨s, hs, b, hb, hip⟩, hbridge⟩
    refine ⟨a.containerizedId, hid, ?_⟩
    simp only [hs, mem_filterMap]
    exact ⟨b, hb, by rw [hip, Option.bind_some, hbridge, Option.map_some]⟩

theorem perEdge_nil : perEdge [] grouping = [] := by
  unfold perEdge sortKeys sortPairKeys
  simp [Groups.groupOn, lowestAddress]

theorem flatMap_filter_eq {A B : Type} {p : A → Bool} {f g : A → List B} {l : List A}
    (h : ∀ a ∈ l, (if p a then f a else []) = g a) : (l.filter p).flatMap f = l.flatMap g := by
  induction l with
  | nil => rfl
  | cons a l ih =>
    have ih := ih fun b hb => h b (mem_cons_of_mem _ hb)
    rw [flatMap_cons, ← h a mem_cons_self]
    cases hp : p a with
    | true => rw [filter_cons_of_pos hp, flatMap_cons, ih, if_pos rfl]
    | false => rw [filter_cons_of_neg (by simp [hp]), ih, if_neg (by simp), nil_append]

theorem createContainerizedServiceEdges_eq : inv.createContainerizedServiceEdges grouping =
    inv.services.flatMap (inv.runtimeEdges grouping) := by
  refine flatMap_filter_eq fun s _ => ?_
  unfold runtimeEdges runtimeOrigin
  cases hids : inv.containerizedServiceIds s.id with
  | nil =>
    have hnone (hostId : Uuid) : inv.attachments hostId s.id = [] := by
      rw [attachments, hids, flatMap_nil]
    cases inv.getHostById s.hostId with
    | none => rfl
    | some host =>
      simp only [isEmpty_nil, hnone, perEdge_nil, Option.bind_some]
      cases inv.getFirstNonContainerBridgeIpAddressForHost host.id <;> rfl
  | cons id ids =>
    cases inv.getHostById s.hostId with
    | none => rfl
    | some host =>
      simp only [Option.bind_some]
      cases inv.getFirstNonContainerBridgeIpAddressForHost host.id <;> rfl

theorem createSameContainerEdges_eq :
    inv.createSameContainerEdges = inv.services.flatMap inv.sameContainerEdges := by
  refine flatMap_filter_eq fun s _ => ?_
  unfold sameContainerEdges
  cases s.virtualizationMetadata <;> rfl

theorem mem_group {K A : Type*} [DecidableEq K] {key : A → K} {l : List A} {g : K × List A}
    (hg : g ∈ Groups.groupOn key l) {a : A} : a ∈ g.2 ↔ a ∈ l ∧ key a = g.1 := by
  constructor
  · intro ha
    exact ⟨Groups.mem_of_mem_groupOn hg ha, (Groups.groupOn_spec hg).2 a ha⟩
  · rintro ⟨ha, hkey⟩
    obtain ⟨g', hg', ha'⟩ := mem_flatMap.mp ((Groups.groupOn_perm key l).mem_iff.mpr ha)
    have heq : g' = g := by
      refine inj_on_of_nodup_map (Groups.nodup_keys_groupOn key l) hg' hg ?_
      rw [← (Groups.groupOn_spec hg').2 a ha', hkey]
    exact heq ▸ ha'

theorem exists_group_of_mem {K A : Type*} [DecidableEq K] (key : A → K) {l : List A} {a : A}
    (ha : a ∈ l) : ∃ g ∈ Groups.groupOn key l, g.1 = key a ∧ a ∈ g.2 := by
  obtain ⟨g, hg, ha'⟩ := mem_flatMap.mp ((Groups.groupOn_perm key l).mem_iff.mpr ha)
  exact ⟨g, hg, ((Groups.groupOn_spec hg).2 a ha').symm, ha'⟩

section Modes

theorem exists_lowest {members : List Attachment} (hne : members ≠ []) : ∃ a,
    lowestAddress (members.map fun m => (m.address, m.ipAddressId)) = some (a.address, a.ipAddressId) ∧
      a ∈ members ∧
        ∀ b ∈ members, addressLt (b.address, b.ipAddressId) (a.address, a.ipAddressId) = false := by
  cases hlowest : lowestAddress (members.map fun m => (m.address, m.ipAddressId)) with
  | none => simp [lowestAddress_eq_none, hne] at hlowest
  | some lowest =>
    obtain ⟨hmem, hle⟩ := lowestAddress_spec hlowest
    obtain ⟨a, ha, rfl⟩ := mem_map.mp hmem
    exact ⟨a, rfl, ha, fun b hb => hle _ (mem_map_of_mem hb)⟩

theorem mem_sortKeys {V : Type} {groups : List (Uuid × V)} {g : Uuid × V} :
    g ∈ sortKeys groups ↔ g ∈ groups := mem_mergeSort

theorem nodup_sortKeys {V : Type} {groups : List (Uuid × V)} (h : (groups.map Prod.fst).Nodup) :
    ((sortKeys groups).map Prod.fst).Nodup := ((mergeSort_perm _ _).map _).nodup_iff.mpr h

theorem mem_sortPairKeys {V : Type} {groups : List ((Uuid × Uuid) × V)} {g : (Uuid × Uuid) × V} :
    g ∈ sortPairKeys groups ↔ g ∈ groups := mem_mergeSort

theorem nodup_sortPairKeys {V : Type} {groups : List ((Uuid × Uuid) × V)}
    (h : (groups.map Prod.fst).Nodup) : ((sortPairKeys groups).map Prod.fst).Nodup :=
  ((mergeSort_perm _ _).map _).nodup_iff.mpr h

variable (l) in
def bySubnet : List (Uuid × List Attachment) := sortKeys (Groups.groupOn (·.subnetId) l)

theorem mem_bySubnet {g : Uuid × List Attachment} (hg : g ∈ bySubnet l) :
    g.2 ≠ [] ∧ ∀ a, a ∈ g.2 ↔ a ∈ l ∧ a.subnetId = g.1 := by
  have hg := mem_sortKeys.mp hg
  exact ⟨(Groups.groupOn_spec hg).1, fun a => mem_group hg⟩

theorem exists_bySubnet (ha : a ∈ l) : ∃ g ∈ bySubnet l, g.1 = a.subnetId ∧ a ∈ g.2 := by
  obtain ⟨g, hg, hkey, hmem⟩ := exists_group_of_mem Attachment.subnetId ha
  exact ⟨g, mem_sortKeys.mpr hg, hkey, hmem⟩

theorem nodup_bySubnet : ((bySubnet l).map Prod.fst).Nodup :=
  nodup_sortKeys (Groups.nodup_keys_groupOn _ l)

variable (l) in
def lowestId : Uuid :=
  ((lowestAddress (l.map fun m => (m.address, m.ipAddressId))).map Prod.snd).getD Uuid.nil

theorem isLowest_lowestId (hne : l ≠ []) : IsLowest (· ∈ l) (lowestId l) := by
  obtain ⟨a, hlowest, ha, hle⟩ := exists_lowest hne
  refine ⟨a, ha, ?_, hle⟩
  rw [lowestId, hlowest]
  rfl

theorem perEdge_boxes (hmerge : grouping.shouldGroupContainerBridges = false)
    (hboxes : grouping.subnetsAreContainers) : perEdge l grouping = (bySubnet l).map fun g =>
      (lowestId g.2, [g.1], (g.2.map (·.containerizedId)).eraseDups) := by
  unfold perEdge
  simp only [hmerge, hboxes, Bool.false_eq_true, if_false, if_true]
  refine (filterMap_congr fun g hg => ?_).trans (congrFun filterMap_eq_map (bySubnet l))
  obtain ⟨a, hlowest, -, -⟩ := exists_lowest (mem_bySubnet hg).1
  rw [comp_apply, lowestId, hlowest]
  rfl

theorem perEdge_addresses (hmerge : grouping.shouldGroupContainerBridges = false)
    (hboxes : grouping.subnetsAreContainers = false) : perEdge l grouping =
      (sortPairKeys (Groups.groupOn (fun m => (m.subnetId, m.ipAddressId)) l)).map fun g =>
        (g.1.2, [g.1.1], (g.2.map (·.containerizedId)).eraseDups) := by
  unfold perEdge
  simp only [hmerge, hboxes, Bool.false_eq_true, if_false]

theorem perEdge_merged (hmerge : grouping.shouldGroupContainerBridges) (hne : l ≠ []) :
    ∃ target, IsLowest (· ∈ l) target ∧ perEdge l grouping = [(target, (bySubnet l).map (·.1),
      ((bySubnet l).flatMap fun g => g.2.map (·.containerizedId)).eraseDups)] := by
  have hmem (x : IpAddr × Uuid) :
      x ∈ (bySubnet l).filterMap (fun g => lowestAddress (g.2.map fun m => (m.address, m.ipAddressId))) →
        ∃ a ∈ l, (a.address, a.ipAddressId) = x := by
    intro hx
    obtain ⟨g, hg, hlowest⟩ := mem_filterMap.mp hx
    obtain ⟨hmem, -⟩ := lowestAddress_spec hlowest
    obtain ⟨a, ha, rfl⟩ := mem_map.mp hmem
    exact ⟨a, ((mem_bySubnet hg).2 a).mp ha |>.1, rfl⟩
  cases hlowest : lowestAddress ((bySubnet l).filterMap fun g =>
      lowestAddress (g.2.map fun m => (m.address, m.ipAddressId))) with
  | none =>
    obtain ⟨a, ha⟩ := exists_mem_of_ne_nil l hne
    obtain ⟨g, hg, -, -⟩ := exists_bySubnet ha
    obtain ⟨a', hlowest', -⟩ := exists_lowest (mem_bySubnet hg).1
    have hnone := filterMap_eq_nil_iff.mp (lowestAddress_eq_none.mp hlowest) g hg
    rw [hlowest'] at hnone
    exact nomatch hnone
  | some lowest =>
    obtain ⟨hx, hle⟩ := lowestAddress_spec hlowest
    obtain ⟨a, ha, rfl⟩ := hmem lowest hx
    refine ⟨a.ipAddressId, ⟨a, ha, rfl, fun b hb => ?_⟩, ?_⟩
    · obtain ⟨g, hg, -, hbg⟩ := exists_bySubnet hb
      obtain ⟨c, hlowest', -, hc⟩ := exists_lowest (mem_bySubnet hg).1
      have hca := hle _ (mem_filterMap.mpr ⟨g, hg, hlowest'⟩)
      have hbc := hc b hbg
      rw [Bool.eq_false_iff, Ne, addressLt_iff, not_lt] at hca hbc ⊢
      exact hca.trans hbc
    · unfold perEdge
      simp only [hmerge, if_true]
      unfold bySubnet at hlowest ⊢
      rw [hlowest]

end Modes

section Covered
variable {s : Service} {host : Host} {origin : IPAddress}

theorem runtimeEdges_eq (h : inv.runtimeOrigin s = some (host, origin)) :
    inv.runtimeEdges grouping s =
      (perEdge (inv.attachments host.id s.id) grouping).map (inv.runtimeEdge s host origin) := by
  unfold runtimeEdges
  rw [h]

theorem carried_single {s : Service} {host : Host} {origin : IPAddress} {target subnetId : Uuid}
    {ids : List Uuid} : (inv.runtimeEdge s host origin (target, [subnetId], ids)).carried =
      ids.map fun id => (subnetId, id) :=
  append_nil _

theorem isLowest_congr {P Q : Attachment → Prop} {ipAddressId : Uuid} (h : ∀ a, P a ↔ Q a) :
    IsLowest P ipAddressId ↔ IsLowest Q ipAddressId := by
  have heq : P = Q := funext fun a => propext (h a)
  rw [heq]

theorem coversAttachments (h : inv.runtimeOrigin s = some (host, origin))
    (hmerge : grouping.shouldGroupContainerBridges = false) (hboxes : grouping.subnetsAreContainers) :
    CoversAttachments (inv.runtimeEdges grouping s) (inv.IsAttached host.id s.id) := by
  rw [runtimeEdges_eq h, perEdge_boxes hmerge hboxes, map_map]
  refine ⟨fun subnetId id => ?_, ?_, fun edge hedge => ?_⟩
  · rw [flatMap_map, mem_flatMap]
    constructor
    · rintro ⟨g, hg, hpair⟩
      simp only [comp_apply, carried_single, mem_map, mem_eraseDups] at hpair
      obtain ⟨id', ⟨a, ha, rfl⟩, heq⟩ := hpair
      obtain ⟨rfl, rfl⟩ := Prod.mk.inj heq
      obtain ⟨hmem, hsubnet⟩ := ((mem_bySubnet hg).2 a).mp ha
      exact ⟨a, mem_attachments.mp hmem, hsubnet, rfl⟩
    · rintro ⟨a, ha, rfl, rfl⟩
      obtain ⟨g, hg, hkey, hmem⟩ := exists_bySubnet (mem_attachments.mpr ha)
      refine ⟨g, hg, ?_⟩
      simp only [comp_apply, carried_single, mem_map, mem_eraseDups]
      exact ⟨a.containerizedId, ⟨a, hmem, rfl⟩, by rw [hkey]⟩
  · rw [flatMap_map, nodup_flatMap]
    refine ⟨fun g _ => ?_, ?_⟩
    · simp only [comp_apply, carried_single]
      exact (Once.nodup_eraseDups _).map fun a b h => (Prod.mk.inj h).2
    · refine (pairwise_map.mp nodup_bySubnet).imp fun {g g'} hne p hp hp' => hne ?_
      simp only [comp_apply, carried_single, mem_map] at hp hp'
      obtain ⟨id, -, rfl⟩ := hp
      obtain ⟨id', -, heq⟩ := hp'
      exact (Prod.mk.inj heq).1.symm
  · obtain ⟨g, hg, rfl⟩ := mem_map.mp hedge
    obtain ⟨hne, hmem⟩ := mem_bySubnet hg
    refine (isLowest_congr fun a => ?_).mp (isLowest_lowestId hne)
    rw [hmem, mem_attachments]
    exact and_congr_right fun _ => mem_singleton.symm

theorem coversAddresses (h : inv.runtimeOrigin s = some (host, origin))
    (hmerge : grouping.shouldGroupContainerBridges = false)
    (hboxes : grouping.subnetsAreContainers = false) :
    CoversAddresses (inv.runtimeEdges grouping s) (inv.IsAttached host.id s.id) := by
  rw [runtimeEdges_eq h, perEdge_addresses hmerge hboxes, map_map]
  refine ⟨fun ipAddressId subnetId id => ?_, ?_⟩
  · rw [flatMap_map, mem_flatMap]
    constructor
    · rintro ⟨g, hg, hpair⟩
      simp only [comp_apply, carried_single, mem_map, mem_eraseDups] at hpair
      obtain ⟨p, ⟨id', ⟨a, ha, rfl⟩, rfl⟩, heq⟩ := hpair
      obtain ⟨hmem, hkey⟩ := (mem_group (mem_sortPairKeys.mp hg)).mp ha
      obtain ⟨hsubnet, hip⟩ := Prod.mk.inj hkey
      obtain ⟨hip', heq⟩ := Prod.mk.inj heq
      obtain ⟨hsubnet', rfl⟩ := Prod.mk.inj heq
      exact ⟨a, mem_attachments.mp hmem, hip.trans hip', hsubnet.trans hsubnet', rfl⟩
    · rintro ⟨a, ha, rfl, rfl, rfl⟩
      obtain ⟨g, hg, hkey, hmem⟩ := exists_group_of_mem
        (fun m : Attachment => (m.subnetId, m.ipAddressId)) (mem_attachments.mpr ha)
      refine ⟨g, mem_sortPairKeys.mpr hg, ?_⟩
      simp only [comp_apply, carried_single, mem_map, mem_eraseDups]
      exact ⟨_, ⟨a.containerizedId, ⟨a, hmem, rfl⟩, rfl⟩, by rw [runtimeEdge, hkey]⟩
  · rw [flatMap_map, nodup_flatMap]
    have hkeys := nodup_sortPairKeys (Groups.nodup_keys_groupOn
      (fun m : Attachment => (m.subnetId, m.ipAddressId)) (inv.attachments host.id s.id))
    refine ⟨fun g _ => ?_, ?_⟩
    · simp only [comp_apply, carried_single, map_map]
      exact (Once.nodup_eraseDups _).map fun a b h => (Prod.mk.inj (Prod.mk.inj h).2).2
    · refine (pairwise_map.mp hkeys).imp fun {g g'} hne p hp hp' => hne ?_
      simp only [comp_apply, carried_single, map_map, mem_map] at hp hp'
      obtain ⟨id, -, rfl⟩ := hp
      obtain ⟨id', -, heq⟩ := hp'
      obtain ⟨hip, heq⟩ := Prod.mk.inj heq
      exact Prod.ext (Prod.mk.inj heq).1.symm hip.symm

theorem coversBridges (h : inv.runtimeOrigin s = some (host, origin))
    (hmerge : grouping.shouldGroupContainerBridges) :
    CoversBridges (inv.runtimeEdges grouping s) (inv.IsAttached host.id s.id) := by
  rw [runtimeEdges_eq h]
  by_cases hne : inv.attachments host.id s.id = []
  · have hnone (a : Attachment) : ¬inv.IsAttached host.id s.id a := by
      rw [← mem_attachments, hne]
      exact not_mem_nil
    rw [hne, perEdge_nil, map_nil]
    refine ⟨by simp, fun id => ?_, fun id => ?_, by simp, by simp⟩
    · simp [hnone]
    · simp [hnone]
  · obtain ⟨target, hlowest, hedge⟩ := perEdge_merged hmerge hne
    have hsubnets (id : Uuid) : id ∈ (bySubnet (inv.attachments host.id s.id)).map (·.1) ↔
        ∃ a, inv.IsAttached host.id s.id a ∧ a.subnetId = id := by
      rw [mem_map]
      constructor
      · rintro ⟨g, hg, rfl⟩
        obtain ⟨hmembers, hmem⟩ := mem_bySubnet hg
        obtain ⟨a, ha⟩ := exists_mem_of_ne_nil _ hmembers
        exact ⟨a, mem_attachments.mp ((hmem a).mp ha).1, ((hmem a).mp ha).2⟩
      · rintro ⟨a, ha, rfl⟩
        obtain ⟨g, hg, hkey, -⟩ := exists_bySubnet (mem_attachments.mpr ha)
        exact ⟨g, hg, hkey⟩
    have hcontainers (id : Uuid) : id ∈ ((bySubnet (inv.attachments host.id s.id)).flatMap fun g =>
        g.2.map (·.containerizedId)).eraseDups ↔
          ∃ a, inv.IsAttached host.id s.id a ∧ a.containerizedId = id := by
      rw [mem_eraseDups, mem_flatMap]
      constructor
      · rintro ⟨g, hg, hid⟩
        obtain ⟨a, ha, rfl⟩ := mem_map.mp hid
        exact ⟨a, mem_attachments.mp (((mem_bySubnet hg).2 a).mp ha).1, rfl⟩
      · rintro ⟨a, ha, rfl⟩
        obtain ⟨g, hg, -, hmem⟩ := exists_bySubnet (mem_attachments.mpr ha)
        exact ⟨g, hg, mem_map_of_mem hmem⟩
    rw [hedge, map_singleton]
    refine ⟨le_rfl, fun id => ?_, fun id => ?_, fun edge hmem => ?_, fun edge hmem => ?_⟩
    · rw [← hsubnets]
      simp [runtimeEdge, Edge.subnetIds]
    · rw [← hcontainers]
      simp [runtimeEdge, Edge.containerIds]
    · obtain rfl := mem_singleton.mp hmem
      exact ⟨nodup_bySubnet, Once.nodup_eraseDups _⟩
    · obtain rfl := mem_singleton.mp hmem
      refine (isLowest_congr fun a => ?_).mp hlowest
      rw [mem_attachments]
      exact ⟨fun ha => ⟨ha, (hsubnets _).mpr ⟨a, ha, rfl⟩⟩, fun ha => ha.1⟩

theorem nodup_bridgeAddresses : ((inv.bridgeAddresses s).map Prod.snd).Nodup := by
  unfold bridgeAddresses
  rw [map_filterMap]
  refine (Once.nodup_eraseDups _).filterMap fun id id' x hx hx' => ?_
  have hid {id : Uuid} (hx : x ∈ ((inv.getIpAddressById id).bind fun i =>
      (inv.getSubnetById i.subnetId).bind fun subnet =>
        if subnet.subnetType.isContainerBridge then some (i.ipAddress, id) else none).map Prod.snd) :
      x = id := by
    obtain ⟨p, hp, rfl⟩ := Option.map_eq_some_iff.mp hx
    obtain ⟨i, -, hp⟩ := Option.bind_eq_some_iff.mp hp
    obtain ⟨subnet, -, hp⟩ := Option.bind_eq_some_iff.mp hp
    obtain ⟨-, hp⟩ := Option.ite_none_right_eq_some.mp hp
    obtain rfl := Option.some.inj hp
    rfl
  exact (hid hx).symm.trans (hid hx')

theorem spanningStar (hs : s.virtualizationMetadata.isSome) :
    SpanningStar (inv.bridgeAddresses s) (inv.sameContainerEdges s) := by
  unfold sameContainerEdges
  rw [if_neg (by simpa [Option.isSome_iff_ne_none] using hs)]
  have hperm := sortAddresses_perm (inv.bridgeAddresses s)
  cases hsorted : sortAddresses (inv.bridgeAddresses s) with
  | nil =>
    rw [hsorted] at hperm
    exact ⟨fun _ => rfl, fun hne => absurd hperm.symm.eq_nil hne⟩
  | cons anchor targets =>
    rw [hsorted] at hperm
    refine ⟨fun hnil => ?_, fun _ => ⟨anchor, hperm.mem_iff.mp mem_cons_self,
      sortAddresses_spec hsorted, ?_⟩⟩
    · rw [hnil] at hperm
      exact nomatch hperm.eq_nil
    · have hnodup : (anchor :: targets).Nodup :=
        hperm.nodup_iff.mpr (List.Nodup.of_map _ nodup_bridgeAddresses)
      have hfilter : (anchor :: targets).filter (· ≠ anchor) = targets := by
        rw [filter_cons_of_neg (by simp)]
        refine filter_eq_self.mpr fun a ha => decide_eq_true ?_
        rintro rfl
        exact (nodup_cons.mp hnodup).1 ha
      have htargets : targets.Perm ((inv.bridgeAddresses s).filter (· ≠ anchor)) :=
        hfilter ▸ hperm.filter _
      rw [map_map]
      exact htargets.map _

end Covered

end Runs

/-- The edges of containers stand for what is attached to the bridges. -/
theorem containersCovered (inv : Inventory) (grouping : GroupingConfig) :
    inv.ContainersCovered grouping where
  runtimes := createContainerizedServiceEdges_eq
  containers := createSameContainerEdges_eq
  runtime s _ host origin h := by
    split_ifs with hmerge hboxes
    · exact coversBridges h hmerge
    · exact coversAttachments h (Bool.eq_false_iff.mpr hmerge) hboxes
    · exact coversAddresses h (Bool.eq_false_iff.mpr hmerge) (Bool.eq_false_iff.mpr hboxes)
  star s _ hs := spanningStar hs

end Inventory

end Edges

section Bridges

private def dockerHostId : Uuid := 0x5ad0c17f3e824b96a1d4f80b62c97e35

private def dockerId : Uuid := 0xb84e09f6d2714c3a9f5d01e86ab37c42

private def grafanaId : Uuid := 0x19f7c3b508de4a62b4c15e97d3a80f6c

private def traefikId : Uuid := 0xe2605dba94174f8c8b3ef172c05a9d64

private def frontBridgeId : Uuid := 0x8d31f5c27a064eb9a6f0c4e91b7d2358

private def backBridgeId : Uuid := 0x47c9e10b5f2d4863bd8a3a6fe5c01972

private def lanId : Uuid := 0xf01a6d3cb87e4592a05c9be4d7126f83

private def lanAddressId : Uuid := 0x2c85e7f0a9b34d1e8476bd30f5e1c92a

private def containerAddress (id subnetId : Uuid) (bits : BitVec 32) (text : String) : IPAddress :=
  { id, hostId := dockerHostId, subnetId, ipAddress := .v4 bits, text }

private def lanAddress : IPAddress :=
  containerAddress lanAddressId lanId 0xC0A80A05#32 "192.168.10.5"

private def bridgedContainers (addresses : List IPAddress) : Inventory where
  hosts := [{ id := dockerHostId, name := "docker-01" }]
  subnets := [
    { id := lanId, name := "lan", cidr := "192.168.10.0/24", subnetType := .lan },
    { id := frontBridgeId, name := "front", cidr := "172.18.0.0/16", subnetType := .dockerBridge },
    { id := backBridgeId, name := "back", cidr := "172.19.0.0/16", subnetType := .dockerBridge }]
  ipAddresses := addresses ++ [
    containerAddress 0x6a2f9d01 frontBridgeId 0xAC120002#32 "172.18.0.2",
    containerAddress 0x6a2f9d02 frontBridgeId 0xAC120003#32 "172.18.0.3",
    containerAddress 0x6a2f9d03 backBridgeId 0xAC130002#32 "172.19.0.2"]
  services := [
    { id := dockerId, hostId := dockerHostId, name := "Docker",
      serviceDefinition := ⟨"Docker", .containerRuntime, true⟩ },
    { id := traefikId, hostId := dockerHostId, name := "Traefik",
      serviceDefinition := ⟨"Traefik", .reverseProxy, false⟩, virtualizationServiceId := some dockerId,
      bindings := [⟨0x51, some 0x6a2f9d01⟩, ⟨0x52, some 0x6a2f9d02⟩] },
    { id := grafanaId, hostId := dockerHostId, name := "Grafana",
      serviceDefinition := ⟨"Grafana", .monitoring, false⟩, virtualizationServiceId := some dockerId,
      bindings := [⟨0x53, some 0x6a2f9d03⟩] }]

private def docker : Service :=
  { id := dockerId, hostId := dockerHostId, name := "Docker",
    serviceDefinition := ⟨"Docker", .containerRuntime, true⟩ }

private def mergedBridges : GroupingConfig where
  containerRules := [⟨0x71, .bySubnet⟩, ⟨0x72, .mergeContainerBridges⟩]
  elementRules := []

theorem eq_of_length_le_one {A : Type} {l : List A} (h : l.length ≤ 1) {a b : A} (ha : a ∈ l)
    (hb : b ∈ l) : a = b := by
  match l with
  | [] => exact absurd ha not_mem_nil
  | [c] => rw [mem_singleton.mp ha, mem_singleton.mp hb]
  | _ :: _ :: _ => simp at h

/-- A merged edge joins every subnet with every container, edges to addresses carry a pair for each
of them, and a host without another address has no edges. -/
theorem not_coversAttachments :
    ¬CoversAttachments ((bridgedContainers [lanAddress]).runtimeEdges mergedBridges docker)
        ((bridgedContainers [lanAddress]).IsAttached dockerHostId dockerId) ∧
      ¬CoversAttachments ((bridgedContainers [lanAddress]).runtimeEdges ⟨[], []⟩ docker)
        ((bridgedContainers [lanAddress]).IsAttached dockerHostId dockerId) ∧
      ¬CoversAttachments ((bridgedContainers []).runtimeEdges ⟨[⟨0x71, .bySubnet⟩], []⟩ docker)
        ((bridgedContainers []).IsAttached dockerHostId dockerId) := by
  have horigin : (bridgedContainers [lanAddress]).runtimeOrigin docker =
      some ({ id := dockerHostId, name := "docker-01" }, lanAddress) := by decide
  have hattached {p : Inventory.Attachment → Prop}
      (h : ∃ a ∈ (bridgedContainers [lanAddress]).attachments dockerHostId dockerId, p a) :
      ∃ a, (bridgedContainers [lanAddress]).IsAttached dockerHostId dockerId a ∧ p a := by
    obtain ⟨a, ha, hpa⟩ := h
    exact ⟨a, Inventory.mem_attachments.mp ha, hpa⟩
  refine ⟨fun h => ?_, fun h => ?_, fun h => ?_⟩
  · have hmerge : mergedBridges.shouldGroupContainerBridges := by decide
    have hmerged := Inventory.coversBridges horigin hmerge
    obtain ⟨edge, hedge, hsubnet⟩ :=
      (hmerged.subnets backBridgeId).mpr (hattached (by decide +kernel))
    obtain ⟨edge', hedge', hid⟩ := (hmerged.containers traefikId).mpr (hattached (by decide +kernel))
    obtain rfl := eq_of_length_le_one hmerged.single hedge hedge'
    have hcarried : (backBridgeId, traefikId) ∈ edge.carried :=
      mem_flatMap.mpr ⟨backBridgeId, hsubnet, mem_map_of_mem hid⟩
    obtain ⟨a, ha, hsubnet, hid⟩ := (h.pairs _ _).mp (mem_flatMap.mpr ⟨edge, hedge, hcarried⟩)
    have hnone : ∀ a ∈ (bridgedContainers [lanAddress]).attachments dockerHostId dockerId,
        a.subnetId = backBridgeId → a.containerizedId ≠ traefikId := by decide +kernel
    exact hnone a (Inventory.mem_attachments.mpr ha) hsubnet hid
  · have happart := @Inventory.coversAddresses _ ⟨[], []⟩ _ _ _ horigin (by decide) (by decide)
    have hedge (ipAddressId : Uuid) (hmem : ∃ a ∈
        (bridgedContainers [lanAddress]).attachments dockerHostId dockerId,
        a.ipAddressId = ipAddressId ∧ a.subnetId = frontBridgeId ∧ a.containerizedId = traefikId) :
        ∃ edge ∈ (bridgedContainers [lanAddress]).runtimeEdges ⟨[], []⟩ docker,
          edge.target = ipAddressId ∧ (frontBridgeId, traefikId) ∈ edge.carried := by
      obtain ⟨edge, hedge, hpair⟩ := mem_flatMap.mp
        ((happart.attached ipAddressId frontBridgeId traefikId).mpr (hattached hmem))
      obtain ⟨p, hp, heq⟩ := mem_map.mp hpair
      obtain ⟨htarget, rfl⟩ := Prod.mk.inj heq
      exact ⟨edge, hedge, htarget, hp⟩
    obtain ⟨edge, hmem, htarget, hcarried⟩ := hedge 0x6a2f9d01 (by decide +kernel)
    obtain ⟨edge', hmem', htarget', hcarried'⟩ := hedge 0x6a2f9d02 (by decide +kernel)
    have hne : edge ≠ edge' := by
      rintro rfl
      exact absurd (htarget.symm.trans htarget') (by decide)
    have hsymm : Std.Symm (Function.onFun List.Disjoint Edge.carried) :=
      ⟨fun _ _ h => List.Disjoint.symm h⟩
    exact (nodup_flatMap.mp h.once).2.forall hmem hmem' hne hcarried hcarried'
  · have hsome : ∃ a ∈ (bridgedContainers []).attachments dockerHostId dockerId,
        a.subnetId = backBridgeId ∧ a.containerizedId = grafanaId := by decide +kernel
    obtain ⟨a, ha, hpair⟩ := hsome
    have hcarried := (h.pairs _ _).mpr ⟨a, Inventory.mem_attachments.mp ha, hpair⟩
    have hnone : ((bridgedContainers []).runtimeEdges ⟨[⟨0x71, .bySubnet⟩], []⟩ docker).flatMap
        Edge.carried = [] := by decide +kernel
    rw [hnone] at hcarried
    exact absurd hcarried not_mem_nil

end Bridges

end Scanopy.Graph
