import Mathlib.Tactic.Ring
import Mathlib.Data.BitVec

/-! Internet addresses and networks in CIDR form. A network keeps the bits of its host part at
zero, so that two networks of one length that share an address are equal. -/

namespace Scanopy

/-- Port numbers are sought in lists by it, as in `ScanBudget.chunkCount`. -/
instance lawfulBEqPortNumber : LawfulBEq (BitVec 16) := inferInstance

inductive IpAddr
  | v4 (bits : BitVec 32)
  | v6 (bits : BitVec 128)
  deriving DecidableEq

/-- `127.0.0.0/8` and `::1`. -/
def IpAddr.isLoopback : IpAddr → Bool
  | .v4 bits => bits.toNat / 2 ^ 24 == 127
  | .v6 bits => bits == 1

/-- The network of the addresses of `w` bits that start with the first `networkLength` bits of
`address`. -/
structure Cidr (w : ℕ) where
  address : BitVec w
  networkLength : ℕ
  length_le : networkLength ≤ w
  host_part_zero : address.toNat % 2 ^ (w - networkLength) = 0
  deriving DecidableEq

namespace Cidr
variable {w : ℕ}
variable {addr : BitVec w} {c : Cidr w}

theorem slash16_le : 16 ≤ 32 := by decide

theorem slash24_le : 24 ≤ 32 := by decide

theorem zero_host_part : (0 : BitVec 32).toNat % 2 ^ (32 - 24) = 0 := by decide

def lan : Cidr 32 := ⟨0x0A000000#32, 24, slash24_le, by decide⟩

def contains (c : Cidr w) (addr : BitVec w) : Bool :=
  addr.toNat / 2 ^ (w - c.networkLength) == c.address.toNat / 2 ^ (w - c.networkLength)

theorem address_toNat_of_contains (h : c.contains addr = true) :
    c.address.toNat = addr.toNat / 2 ^ (w - c.networkLength) * 2 ^ (w - c.networkLength) := by
  have hquot : addr.toNat / 2 ^ (w - c.networkLength) =
      c.address.toNat / 2 ^ (w - c.networkLength) := beq_iff_eq.mp h
  have hdecomp := Nat.div_add_mod c.address.toNat (2 ^ (w - c.networkLength))
  rw [c.host_part_zero, add_zero] at hdecomp
  rw [hquot, mul_comm]
  exact hdecomp.symm

theorem eq_of_contains {c' : Cidr w} (h : c.contains addr = true)
    (h' : c'.contains addr = true) (hlen : c.networkLength = c'.networkLength) : c = c' := by
  have haddr := address_toNat_of_contains h
  have haddr' := address_toNat_of_contains h'
  rw [← hlen, ← haddr] at haddr'
  obtain ⟨a, n, _, _⟩ := c
  obtain ⟨a', n', _, _⟩ := c'
  have hbits : a = a' := BitVec.eq_of_toNat_eq haddr'.symm
  subst hbits
  cases hlen
  rfl

end Cidr

inductive IpCidr
  | v4 (cidr : Cidr 32)
  | v6 (cidr : Cidr 128)
  deriving DecidableEq

namespace IpCidr

def networkLength : IpCidr → ℕ
  | v4 c => c.networkLength
  | v6 c => c.networkLength

def firstAddress : IpCidr → IpAddr
  | v4 c => .v4 c.address
  | v6 c => .v6 c.address

def contains : IpCidr → IpAddr → Bool
  | v4 c, .v4 addr => c.contains addr
  | v6 c, .v6 addr => c.contains addr
  | _, _ => false

theorem eq_of_contains {c c' : IpCidr} {ip : IpAddr} (h : c.contains ip = true)
    (h' : c'.contains ip = true) (hlen : c.networkLength = c'.networkLength) : c = c' := by
  cases ip with
  | v4 addr =>
    cases c with
    | v4 c =>
      cases c' with
      | v4 c' => exact congrArg v4 (Cidr.eq_of_contains h h' hlen)
      | v6 c' => exact absurd h' Bool.false_ne_true
    | v6 c => exact absurd h Bool.false_ne_true
  | v6 addr =>
    cases c with
    | v6 c =>
      cases c' with
      | v6 c' => exact congrArg v6 (Cidr.eq_of_contains h h' hlen)
      | v4 c' => exact absurd h' Bool.false_ne_true
    | v4 c => exact absurd h Bool.false_ne_true

end IpCidr
end Scanopy
