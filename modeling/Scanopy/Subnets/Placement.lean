import Mathlib.Data.List.MinMax
import Scanopy.Lib.Table
import Scanopy.Shared.Entities

/-! The subnet of an address. Subnets can be nested, so several of them may contain one address;
those of one length are then equal. -/

namespace Scanopy

open List Option

/-- The live subnets of a network, in the order in which they happen to be read. -/
abbrev ServedSubnets := Table fun s : Subnet => s.id

/-- `Iterator::max_by_key`, which returns the last of several maxima. -/
def maxByKey {α : Type} (key : α → ℕ) (l : List α) : Option α := l.reverse.argmax key

section MaxByKey
variable {α : Type} {key : α → ℕ} {l : List α} {a b : α}

theorem mem_of_maxByKey (h : maxByKey key l = some a) : a ∈ l := mem_reverse.mp (argmax_mem h)

theorem le_of_maxByKey (h : maxByKey key l = some a) (hb : b ∈ l) : key b ≤ key a :=
  le_of_mem_argmax (mem_reverse.mpr hb) h

theorem exists_maxByKey (ha : a ∈ l) : ∃ b, maxByKey key l = some b := by
  refine ne_none_iff_exists'.mp fun hnone => ?_
  rw [maxByKey, argmax_eq_none, reverse_eq_nil_iff] at hnone
  rw [hnone] at ha
  exact not_mem_nil ha

end MaxByKey

def containing (subnets : List Subnet) (ip : IpAddr) : List Subnet :=
  subnets.filter fun s => s.base.cidr.contains ip

theorem mem_containing {subnets : List Subnet} {ip : IpAddr} {s : Subnet} :
    s ∈ containing subnets ip ↔ s ∈ subnets ∧ s.base.cidr.contains ip = true := mem_filter

def resolveDanglingSubnetId (liveSubnets : List Subnet) (subnetId : Uuid) (ip : IpAddr) :
    Option Uuid :=
  if liveSubnets.any (fun s => s.id = subnetId) then none
  else
    (maxByKey (fun s => s.base.cidr.networkLength)
      (liveSubnets.filter fun s => s.base.cidr.contains ip)).map (·.id)

theorem resolveDanglingSubnetId_of_dangling {liveSubnets : List Subnet} {subnetId : Uuid}
    (ip : IpAddr) (h : ∀ s ∈ liveSubnets, s.id ≠ subnetId) :
    resolveDanglingSubnetId liveSubnets subnetId ip =
      (maxByKey (fun s => s.base.cidr.networkLength) (containing liveSubnets ip)).map (·.id) := by
  refine if_neg fun hany => ?_
  obtain ⟨s, hs, hid⟩ := List.any_eq_true.mp hany
  exact h s hs (of_decide_eq_true hid)

def LongestFirst (subnets : List Subnet) (ip : IpAddr) : Prop :=
  ∀ first ∈ (containing subnets ip).head?, ∀ s ∈ containing subnets ip,
    s.base.cidr.networkLength ≤ first.base.cidr.networkLength

def OneCidr (subnets : List Subnet) (ip : IpAddr) : Prop :=
  ∀ s ∈ containing subnets ip, ∀ s' ∈ containing subnets ip, s.base.cidr = s'.base.cidr

section Choice
variable {subnets : List Subnet} {ip : IpAddr}

theorem head_cidr_eq_iff :
    (containing subnets ip).head?.map (·.base.cidr) =
        (maxByKey (fun s => s.base.cidr.networkLength) (containing subnets ip)).map
          (·.base.cidr) ↔ LongestFirst subnets ip := by
  cases hcontaining : containing subnets ip with
  | nil =>
    refine iff_of_true rfl fun first hfirst => ?_
    rw [hcontaining] at hfirst
    exact absurd hfirst nofun
  | cons first rest =>
    have hmem : ∀ s, s ∈ first :: rest → s.base.cidr.contains ip = true := by
      intro s hs
      rw [← hcontaining] at hs
      exact (mem_containing.mp hs).2
    obtain ⟨longest, hlongest⟩ : ∃ s, maxByKey (fun s : Subnet => s.base.cidr.networkLength)
        (first :: rest) = some s := exists_maxByKey mem_cons_self
    have hlongest_mem := mem_of_maxByKey hlongest
    have hle := fun s hs => le_of_maxByKey (b := s) hlongest hs
    have hfirst : LongestFirst subnets ip ↔
        longest.base.cidr.networkLength ≤ first.base.cidr.networkLength := by
      rw [LongestFirst, hcontaining]
      constructor
      · exact fun h => h first rfl longest hlongest_mem
      · rintro h _ ⟨⟩ s hs
        exact (hle s hs).trans h
    rw [hlongest, hfirst, head?_cons, map_some, map_some, some.injEq]
    constructor
    · intro hcidr
      rw [hcidr]
    · intro hlen
      have heq := le_antisymm (hle first mem_cons_self) hlen
      exact IpCidr.eq_of_contains (hmem first mem_cons_self) (hmem longest hlongest_mem) heq

theorem LongestFirst.of_oneCidr (h : OneCidr subnets ip) : LongestFirst subnets ip := by
  intro first hfirst s hs
  rw [h s hs first (mem_of_mem_head? hfirst)]

theorem forall_perm_longestFirst_iff :
    (∀ served : List Subnet, served.Perm subnets → LongestFirst served ip) ↔
      OneCidr subnets ip := by
  constructor
  · intro h s hs s' hs'
    have hs := mem_containing.mp hs
    have hs' := mem_containing.mp hs'
    -- any of the containing subnets can come first
    have hlen : ∀ a ∈ subnets, a.base.cidr.contains ip = true → ∀ b ∈ subnets,
        b.base.cidr.contains ip = true →
        b.base.cidr.networkLength ≤ a.base.cidr.networkLength := by
      intro a ha hacontains b hb hbcontains
      have hperm : (a :: subnets.erase a).Perm subnets := (perm_cons_erase ha).symm
      have hb : b ∈ containing (a :: subnets.erase a) ip :=
        mem_containing.mpr ⟨hperm.mem_iff.mpr hb, hbcontains⟩
      refine h _ hperm a ?_ b hb
      show a ∈ (List.filter _ (a :: subnets.erase a)).head?
      rw [filter_cons, if_pos hacontains]
      rfl
    exact IpCidr.eq_of_contains hs.2 hs'.2
      (le_antisymm (hlen s' hs'.1 hs'.2 s hs.1 hs.2) (hlen s hs.1 hs.2 s' hs'.1 hs'.2))
  · intro h served hperm
    refine .of_oneCidr fun s hs s' hs' => ?_
    have hmem : ∀ a, a ∈ containing served ip → a ∈ containing subnets ip := by
      intro a ha
      have ha := mem_containing.mp ha
      exact mem_containing.mpr ⟨hperm.mem_iff.mp ha.1, ha.2⟩
    exact h s (hmem s hs) s' (hmem s' hs')

end Choice

namespace ServedSubnets

def cidrOf (subnets : ServedSubnets) (id : Uuid) : Option IpCidr :=
  (subnets.rows.find? fun s => s.id = id).map (·.base.cidr)

variable {subnets : ServedSubnets}

theorem cidrOf_of_mem {s : Subnet} (hs : s ∈ subnets) :
    cidrOf subnets s.id = some s.base.cidr := by
  rw [cidrOf]
  cases hfind : subnets.rows.find? fun s' => s'.id = s.id with
  | none => exact absurd (decide_eq_true rfl) (find?_eq_none.mp hfind s hs)
  | some s' =>
    have hid := find?_some hfind
    rw [decide_eq_true_eq] at hid
    rw [subnets.eq_of_key (mem_of_find?_eq_some hfind) hs hid]
    rfl

theorem bind_cidrOf {o : Option Subnet} (h : ∀ s ∈ o, s ∈ subnets) :
    (o.map (·.id)).bind (cidrOf subnets) = o.map (·.base.cidr) := by
  cases o with
  | none => rfl
  | some s => exact cidrOf_of_mem (h s rfl)

end ServedSubnets

end Scanopy
