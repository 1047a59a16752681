import Scanopy.Snmp.Values

/-! The indexes of management addresses, with or without a time mark in front; the decoder tells the
two apart by the length alone. -/

namespace Scanopy

open List Option

section Layouts

/-- What the decoder reads behind a prefix of the given length. -/
def manAddrLayout (pre : ℕ) (suffix : List ℕ) : Option (ℤ × ℤ × List Byte) :=
  if suffix.length < pre + 2 then none
  else
    let addrLen := suffix.getD (pre + 1) 0
    if addrLen = 0 ∨ suffix.length ≠ pre + 2 + addrLen then none
    else some (asI32 (suffix.getD (pre - 2) 0), asI32 (suffix.getD (pre - 1) 0),
      (suffix.getD pre 0 :: suffix.drop (pre + 2)).map (BitVec.ofNat 8))

theorem splitLldpManAddrIndex_eq (suffix : List ℕ) :
    splitLldpManAddrIndex suffix = (manAddrLayout 3 suffix).or (manAddrLayout 2 suffix) := by
  show List.findSome? (fun pre => manAddrLayout pre suffix) [3, 2] = _
  rw [findSome?_cons, findSome?_cons, findSome?_nil]
  cases manAddrLayout 3 suffix with
  | none => cases manAddrLayout 2 suffix <;> rfl
  | some key => rfl

theorem manAddrLayout_two (port remIndex family addrLen : ℕ) (address : List ℕ) :
    manAddrLayout 2 (port :: remIndex :: family :: addrLen :: address) =
      if addrLen = 0 ∨ address.length ≠ addrLen then none
      else some (asI32 port, asI32 remIndex, (family :: address).map (BitVec.ofNat 8)) := by
  have hlen : ¬(port :: remIndex :: family :: addrLen :: address).length < 2 + 2 := by
    simp only [length_cons]
    omega
  have hcount : (port :: remIndex :: family :: addrLen :: address).length ≠ 2 + 2 + addrLen ↔
      address.length ≠ addrLen := by
    simp only [length_cons]
    omega
  rw [manAddrLayout, if_neg hlen]
  simp only [getD_cons_succ, getD_cons_zero, hcount]
  rfl

theorem manAddrLayout_three (timeMark port remIndex family : ℕ) (rest : List ℕ) :
    manAddrLayout 3 (timeMark :: port :: remIndex :: family :: rest) =
      manAddrLayout 2 (port :: remIndex :: family :: rest) := by
  rw [manAddrLayout, manAddrLayout]
  have hlen : (timeMark :: port :: remIndex :: family :: rest).length < 3 + 2 ↔
      (port :: remIndex :: family :: rest).length < 2 + 2 := by
    simp only [length_cons]
    omega
  have hcount : ∀ n, (timeMark :: port :: remIndex :: family :: rest).length ≠ 3 + 2 + n ↔
      (port :: remIndex :: family :: rest).length ≠ 2 + 2 + n := by
    intro n
    simp only [length_cons]
    omega
  simp only [hlen, hcount, getD_cons_succ]
  rfl

end Layouts

section Indexes
variable (timeMark : ℕ) (port remIndex : Fin (2 ^ 31)) (family first : Byte) (rest : List Byte)

def shortenedManAddrIndex (address : List Byte) : List ℕ :=
  (port : ℕ) :: (remIndex : ℕ) :: family.toNat :: address.length :: address.map BitVec.toNat

def conformantManAddrIndex (address : List Byte) : List ℕ :=
  timeMark :: shortenedManAddrIndex port remIndex family address

theorem asI32_of_fin (n : Fin (2 ^ 31)) : asI32 n = ((n : ℕ) : ℤ) := by
  have hn : (n : ℕ) < 2 ^ 31 := n.isLt
  rw [asI32, BitVec.toInt_ofNat', Int.bmod_def]
  omega

theorem map_ofNat_toNat (bytes : List Byte) :
    (bytes.map BitVec.toNat).map (BitVec.ofNat 8) = bytes := by
  rw [List.map_map]
  refine (map_congr_left fun b _ => ?_).trans (List.map_id bytes)
  exact BitVec.ofNat_toNat 8 b

theorem manAddrLayout_two_shortened :
    manAddrLayout 2 (shortenedManAddrIndex port remIndex family (first :: rest)) =
      some (((port : ℕ) : ℤ), ((remIndex : ℕ) : ℤ), family :: first :: rest) := by
  have hlen : ¬((first :: rest).length = 0 ∨
      ((first :: rest).map BitVec.toNat).length ≠ (first :: rest).length) := by simp
  rw [shortenedManAddrIndex, manAddrLayout_two, if_neg hlen, asI32_of_fin, asI32_of_fin,
    ← map_cons, map_ofNat_toNat]

theorem manAddrLayout_three_shortened :
    manAddrLayout 3 (shortenedManAddrIndex port remIndex family (first :: rest)) =
      if first.toNat = 0 ∨ rest.length ≠ first.toNat then none
      else some (((remIndex : ℕ) : ℤ), asI32 family.toNat,
        BitVec.ofNat 8 (first :: rest).length :: rest) := by
  rw [shortenedManAddrIndex, map_cons, manAddrLayout_three, manAddrLayout_two, length_map,
    asI32_of_fin, map_cons, map_ofNat_toNat]

/-- Both layouts are undone, unless the first byte of the address is the number of the others. -/
theorem splitLldpManAddrIndex_layouts :
    (splitLldpManAddrIndex (conformantManAddrIndex timeMark port remIndex family (first :: rest)) =
        some (((port : ℕ) : ℤ), ((remIndex : ℕ) : ℤ), family :: first :: rest) ∧
      splitLldpManAddrIndex (shortenedManAddrIndex port remIndex family (first :: rest)) =
        some (((port : ℕ) : ℤ), ((remIndex : ℕ) : ℤ), family :: first :: rest)) ↔
      (rest = [] ∨ first.toNat ≠ rest.length) := by
  have hconformant : splitLldpManAddrIndex
      (conformantManAddrIndex timeMark port remIndex family (first :: rest)) =
        some (((port : ℕ) : ℤ), ((remIndex : ℕ) : ℤ), family :: first :: rest) := by
    rw [splitLldpManAddrIndex_eq, conformantManAddrIndex, shortenedManAddrIndex, manAddrLayout_three,
      ← shortenedManAddrIndex, manAddrLayout_two_shortened, some_or]
  rw [and_iff_right hconformant, splitLldpManAddrIndex_eq, manAddrLayout_three_shortened,
    manAddrLayout_two_shortened]
  constructor
  · intro h
    by_contra hnot
    push Not at hnot
    obtain ⟨hrest, hfirst⟩ := hnot
    have hpos : rest.length ≠ 0 := fun hzero => hrest (length_eq_zero_iff.mp hzero)
    rw [if_neg (by omega), some_or, some.injEq, Prod.mk.injEq, Prod.mk.injEq] at h
    -- the address that is read is one byte short
    have hlen := congrArg List.length h.2.2
    simp only [length_cons] at hlen
    omega
  · rintro (rfl | hne)
    · rw [if_pos ?_, none_or]
      rw [length_nil]
      omega
    · rw [if_pos (.inr (Ne.symm hne)), none_or]

/-- The address 3.120.4.9 without a time mark: the three stands for the length of what follows. -/
theorem splitLldpManAddrIndex_shortened_three :
    splitLldpManAddrIndex (shortenedManAddrIndex 7 1 1 [3, 120, 4, 9]) ≠
      some (7, 1, [1, 3, 120, 4, 9]) := by decide

end Indexes

end Scanopy
