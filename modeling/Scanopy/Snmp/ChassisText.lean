import Scanopy.Snmp.Values

/-! One identifier for one chassis. A neighbour is matched by the text of its chassis, from octets
with a subtype or from a controller; a MAC is brought to one form wherever it is recognised. -/

namespace Scanopy

open List Option

def LldpChassisId.fromIdentifierStr (parseMac : String → Option MacAddress) (value : String) :
    LldpChassisId :=
  match canonicalMac parseMac value with
  | some mac => .macAddress mac
  | none => .locallyAssigned value

/-- Hexadecimal digits only. -/
def isHexGroup (group : List Char) : Bool := group.all fun c => (hexValue c).isSome

/-- A parser of six groups of two hexadecimal digits that are joined by colons or hyphens. -/
def paddedMac (s : String) : Option MacAddress :=
  let groups := splitOnChar ':' (s.toList.map fun c => if c = '-' then ':' else c)
  if groups.length = 6 ∧ ∀ g ∈ groups, g.length = 2 ∧ isHexGroup g then
    some (macOfBytes (groups.filterMap parseHexByte))
  else none

def IsColonMac (s : String) : Prop :=
  (splitOnChar ':' s.toList).length = 6 ∧
    ∀ g ∈ splitOnChar ':' s.toList, (g.length = 1 ∨ g.length = 2) ∧ isHexGroup g

section Hex
variable {c : Char} {b : Byte} {bytes : List Byte}

theorem hexValue_hexDigits {n : ℕ} (h : n < 16) : hexValue (hexDigits.getD n '0') = some n := by
  revert n
  decide

theorem hexValue_cases (h : (hexValue c).isSome) : ('0' ≤ c ∧ c ≤ '9') ∨ ('a' ≤ c ∧ c ≤ 'f') ∨
    ('A' ≤ c ∧ c ≤ 'F') := by
  unfold hexValue at h
  split_ifs at h with hdigit hlower hupper
  · exact .inl hdigit
  · exact .inr (.inl hlower)
  · exact .inr (.inr hupper)
  · exact nomatch h

theorem toNat_of_hexValue (h : (hexValue c).isSome) :
    (48 ≤ c.toNat ∧ c.toNat ≤ 57) ∨ (97 ≤ c.toNat ∧ c.toNat ≤ 102) ∨
      (65 ≤ c.toNat ∧ c.toNat ≤ 70) := hexValue_cases h

theorem isWhitespace_of_hexValue (h : (hexValue c).isSome) : isWhitespace c = false := by
  have hrange := toNat_of_hexValue h
  simp only [isWhitespace, Bool.or_eq_false_iff, Bool.and_eq_false_iff, decide_eq_false_iff_not,
    beq_eq_false_iff_ne]
  omega

theorem utf8Size_of_hexValue (h : (hexValue c).isSome) : c.utf8Size = 1 := by
  have hrange := toNat_of_hexValue h
  rw [Char.utf8Size_eq_one_iff, UInt32.le_iff_toNat_le]
  change c.toNat ≤ 127
  omega

theorem hexByte_digits (b : Byte) : ∃ hi lo, hexValue hi = some (b.toNat / 16) ∧
    hexValue lo = some (b.toNat % 16) ∧ hexByte b = [hi, lo] := by
  have hlt : b.toNat < 256 := b.isLt
  exact ⟨_, _, hexValue_hexDigits (by omega), hexValue_hexDigits (by omega), rfl⟩

theorem isHexGroup_hexByte (b : Byte) : isHexGroup (hexByte b) = true := by
  obtain ⟨hi, lo, hhi, hlo, hbyte⟩ := hexByte_digits b
  rw [hbyte]
  simp [isHexGroup, hhi, hlo]

theorem parseHexByte_eq {group : List Char} (h : '+' ∉ group) : parseHexByte group =
    if group = [] then none
    else (group.mapM hexValue).map fun ns => BitVec.ofNat 8 (ns.foldl (fun n d => 16 * n + d) 0) := by
  cases group with
  | nil => rfl
  | cons c rest =>
    have hne : c ≠ '+' := by
      rintro rfl
      exact h mem_cons_self
    simp [parseHexByte, hne]

theorem not_mem_of_isHexGroup {group : List Char} (h : isHexGroup group = true)
    (hc : hexValue c = none) : c ∉ group := by
  intro hmem
  have hsome := List.all_eq_true.mp h c hmem
  rw [hc] at hsome
  exact nomatch hsome

theorem parseHexByte_hexByte (b : Byte) : parseHexByte (hexByte b) = some b := by
  rw [parseHexByte_eq (not_mem_of_isHexGroup (isHexGroup_hexByte b) rfl)]
  obtain ⟨hi, lo, hhi, hlo, hbyte⟩ := hexByte_digits b
  rw [hbyte, if_neg (cons_ne_nil hi [lo])]
  have hmapM : [hi, lo].mapM hexValue = some [b.toNat / 16, b.toNat % 16] := by
    simp [hhi, hlo]
  rw [hmapM, map_some, some.injEq]
  refine BitVec.eq_of_toNat_eq ?_
  have hlt : b.toNat < 256 := b.isLt
  simp only [foldl_cons, foldl_nil, BitVec.toNat_ofNat]
  omega

theorem isSome_mapM {α β : Type} {f : α → Option β} {l : List α} :
    (l.mapM f).isSome = true ↔ ∀ a ∈ l, (f a).isSome = true := by
  induction l with
  | nil => simp
  | cons a l ih =>
    rw [mapM_cons, forall_mem_cons, ← ih]
    cases f a with
    | none => simp
    | some b => cases l.mapM f <;> simp

theorem length_of_mapM {α β : Type} {f : α → Option β} {l : List α} {r : List β}
    (h : l.mapM f = some r) : r.length = l.length := by
  induction l generalizing r with
  | nil =>
    obtain rfl := some.inj h
    rfl
  | cons a l ih =>
    rw [mapM_cons] at h
    obtain ⟨b, -, h⟩ := bind_eq_some_iff.mp h
    obtain ⟨bs, hbs, h⟩ := bind_eq_some_iff.mp h
    obtain rfl := some.inj h
    rw [length_cons, length_cons, ih hbs]

theorem isSome_parseHexByte {group : List Char} (h : '+' ∉ group) :
    (parseHexByte group).isSome = true ↔ group ≠ [] ∧ isHexGroup group = true := by
  rw [parseHexByte_eq h, isHexGroup, List.all_eq_true, ← isSome_mapM]
  split_ifs with hnil
  · exact iff_of_false nofun fun hgroup => hgroup.1 hnil
  · rw [isSome_map]
    exact ⟨fun hsome => ⟨hnil, hsome⟩, And.right⟩

theorem utf8ByteSize_ofList (cs : List Char) :
    (String.ofList cs).utf8ByteSize = (cs.map Char.utf8Size).sum := by
  induction cs with
  | nil => rfl
  | cons c cs ih =>
    rw [String.ofList_cons, String.utf8ByteSize_append, String.utf8ByteSize_singleton, ih,
      map_cons, sum_cons]

theorem utf8ByteSize_of_isHexGroup {group : List Char} (h : isHexGroup group = true) :
    (String.ofList group).utf8ByteSize = group.length := by
  rw [utf8ByteSize_ofList]
  have hone : ∀ c ∈ group, c.utf8Size = 1 := fun c hc =>
    utf8Size_of_hexValue (List.all_eq_true.mp h c hc)
  rw [map_congr_left hone]
  simp

end Hex

section Groups
variable {sep : Char} {cs : List Char}

theorem splitOnChar_eq (sep : Char) (cs : List Char) : splitOnChar sep cs = cs.splitOn sep := by
  induction cs with
  | nil => rfl
  | cons c cs ih =>
    rw [splitOn_cons_eq_if_modifyHead, splitOnChar, ih]
    have hne := splitOn_ne_nil sep cs
    simp only [beq_iff_eq]
    split_ifs with hsep
    · rfl
    · cases hgroups : cs.splitOn sep with
      | nil => exact absurd hgroups hne
      | cons group groups => rfl

theorem sum_length_splitOnChar (sep : Char) (cs : List Char) :
    ((splitOnChar sep cs).map (·.length + 1)).sum = cs.length + 1 := by
  induction cs with
  | nil => rfl
  | cons c cs ih =>
    rw [splitOnChar]
    split_ifs with hsep
    · rw [map_cons, sum_cons, ih, length_cons, length_nil]
      omega
    · cases hgroups : splitOnChar sep cs with
      | nil =>
        rw [hgroups] at ih
        exact absurd ih (by simp)
      | cons group groups =>
        rw [hgroups, map_cons, sum_cons] at ih
        simp only [map_cons, sum_cons, length_cons]
        omega

theorem length_of_six_groups (hlength : (splitOnChar sep cs).length = 6)
    (hne : ∀ group ∈ splitOnChar sep cs, group ≠ []) : 11 ≤ cs.length := by
  have hsum := sum_length_splitOnChar sep cs
  have hle : 2 * (splitOnChar sep cs).length ≤ ((splitOnChar sep cs).map (·.length + 1)).sum := by
    generalize splitOnChar sep cs = groups at hne
    induction groups with
    | nil => exact Nat.le_refl 0
    | cons group groups ih =>
      have hpos := length_pos_iff.mpr (hne group mem_cons_self)
      have hrest := ih fun g hg => hne g (mem_cons_of_mem group hg)
      rw [map_cons, sum_cons, length_cons]
      omega
  omega

theorem mem_of_mem_splitOnChar {group : List Char} {c : Char} (h : group ∈ splitOnChar sep cs)
    (hc : c ∈ group) : c ∈ cs := by
  induction cs generalizing group with
  | nil =>
    rw [mem_singleton.mp h] at hc
    exact nomatch hc
  | cons d cs ih =>
    rw [splitOnChar] at h
    split_ifs at h with hsep
    · rcases mem_cons.mp h with rfl | h
      · exact nomatch hc
      · exact mem_cons_of_mem d (ih h hc)
    · cases hgroups : splitOnChar sep cs with
      | nil =>
        rw [hgroups, mem_singleton] at h
        rw [h, mem_singleton] at hc
        rw [hc]
        exact mem_cons_self
      | cons first groups =>
        rw [hgroups] at h ih
        rcases mem_cons.mp h with rfl | h
        · rcases mem_cons.mp hc with rfl | hc
          · exact mem_cons_self
          · exact mem_cons_of_mem d (ih mem_cons_self hc)
        · exact mem_cons_of_mem d (ih (mem_cons_of_mem first h) hc)

theorem exists_group_of_mem {c : Char} (h : c ∈ cs) (hne : c ≠ sep) :
    ∃ group ∈ splitOnChar sep cs, c ∈ group := by
  induction cs with
  | nil => exact nomatch h
  | cons d cs ih =>
    rw [splitOnChar]
    split_ifs with hsep
    · rcases mem_cons.mp h with rfl | h
      · exact absurd hsep hne
      · obtain ⟨group, hgroup, hc⟩ := ih h
        exact ⟨group, mem_cons_of_mem _ hgroup, hc⟩
    · cases hgroups : splitOnChar sep cs with
      | nil =>
        rw [splitOnChar_eq] at hgroups
        exact absurd hgroups (splitOn_ne_nil sep cs)
      | cons first groups =>
        rw [hgroups] at ih
        rcases mem_cons.mp h with rfl | h
        · exact ⟨c :: first, mem_cons_self, mem_cons_self⟩
        · obtain ⟨group, hgroup, hc⟩ := ih h
          rcases mem_cons.mp hgroup with rfl | hgroup
          · exact ⟨d :: group, mem_cons_self, mem_cons_of_mem d hc⟩
          · exact ⟨group, mem_cons_of_mem _ hgroup, hc⟩

end Groups

section Canonical
variable {parseMac : String → Option MacAddress} {s c : String} {bytes : List Byte}

theorem toList_formatMac (bytes : List Byte) :
    (formatMac bytes).toList = [':'].intercalate (bytes.map hexByte) := by
  rw [formatMac, String.toList_intercalate, List.map_map]
  refine congrArg _ (map_congr_left fun b _ => ?_)
  exact String.toList_ofList

theorem splitOnChar_formatMac (h : bytes ≠ []) :
    splitOnChar ':' (formatMac bytes).toList = bytes.map hexByte := by
  rw [splitOnChar_eq, toList_formatMac]
  refine splitOn_intercalate ':' (fun group hgroup => ?_) (by simpa using h)
  obtain ⟨b, -, rfl⟩ := List.mem_map.mp hgroup
  exact not_mem_of_isHexGroup (isHexGroup_hexByte b) rfl

theorem mem_formatMac (hbytes : bytes ≠ []) {d : Char} (h : d ∈ (formatMac bytes).toList) :
    d = ':' ∨ (hexValue d).isSome = true := by
  by_cases hcolon : d = ':'
  · exact .inl hcolon
  · obtain ⟨group, hgroup, hd⟩ := exists_group_of_mem h hcolon
    rw [splitOnChar_formatMac hbytes] at hgroup
    obtain ⟨b, -, rfl⟩ := List.mem_map.mp hgroup
    exact .inr (List.all_eq_true.mp (isHexGroup_hexByte b) d hd)

theorem trim_formatMac (hbytes : bytes ≠ []) : trim (formatMac bytes) = formatMac bytes := by
  refine trim_eq_self fun d hd => ?_
  rcases mem_formatMac hbytes hd with rfl | hhex
  · rfl
  · exact isWhitespace_of_hexValue hhex

theorem macBytes_macOfBytes (h : bytes.length = 6) : macBytes (macOfBytes bytes) = bytes := by
  match bytes, h with
  | [a, b, c, d, e, f], _ =>
    have ha := a.isLt
    have hb := b.isLt
    have hc := c.isLt
    have hd := d.isLt
    have he := e.isLt
    have hf := f.isLt
    simp only [macBytes, macOfBytes, bytesToNat, range_succ, range_zero,
      map_cons, map_nil, nil_append, cons_append, foldl_cons,
      foldl_nil, BitVec.toNat_ofNat, cons.injEq, and_true]
    refine ⟨?_, ?_, ?_, ?_, ?_, ?_⟩ <;> refine BitVec.eq_of_toNat_eq ?_ <;>
      rw [BitVec.toNat_ofNat] <;> omega

theorem length_macBytes (mac : MacAddress) : (macBytes mac).length = 6 := by
  rw [macBytes, length_map, length_range]

theorem paddedMac_formatMac (h : bytes.length = 6) :
    paddedMac (formatMac bytes) = some (macOfBytes bytes) := by
  have hbytes : bytes ≠ [] := by
    rintro rfl
    exact nomatch h
  have hhyphens : ((formatMac bytes).toList.map fun c => if c = '-' then ':' else c) =
      (formatMac bytes).toList := by
    refine (map_congr_left fun d hd => ?_).trans (List.map_id _)
    rw [if_neg]
    · rfl
    · rintro rfl
      rcases mem_formatMac hbytes hd with hcolon | hhex
      · exact absurd hcolon (by decide)
      · exact nomatch hhex
  have hread : (bytes.map hexByte).filterMap parseHexByte = bytes := by
    rw [filterMap_map]
    refine (filterMap_congr fun b _ => ?_).trans filterMap_some
    exact parseHexByte_hexByte b
  unfold paddedMac
  dsimp only
  rw [hhyphens, splitOnChar_formatMac hbytes, hread, if_pos]
  refine ⟨by rw [length_map, h], fun group hgroup => ?_⟩
  obtain ⟨b, -, rfl⟩ := List.mem_map.mp hgroup
  exact ⟨rfl, isHexGroup_hexByte b⟩

variable (hparse : ∀ s, parseMac s = paddedMac s)

include hparse in
theorem canonicalMac_formatMac (h : bytes.length = 6) :
    canonicalMac parseMac (formatMac bytes) = some (formatMac bytes) := by
  have hbytes : bytes ≠ [] := by
    rintro rfl
    exact nomatch h
  unfold canonicalMac
  dsimp only
  rw [trim_formatMac hbytes, hparse, paddedMac_formatMac h]
  exact congrArg (fun bytes => some (formatMac bytes)) (macBytes_macOfBytes h)

theorem exists_formatMac (h : canonicalMac parseMac s = some c) :
    ∃ bytes, bytes.length = 6 ∧ c = formatMac bytes := by
  unfold canonicalMac at h
  dsimp only at h
  split at h
  · rename_i mac hmac
    exact ⟨macBytes mac, length_macBytes mac, (some.inj h).symm⟩
  · obtain ⟨octets, -, h⟩ := bind_eq_some_iff.mp h
    split at h
    · rename_i hlength
      exact ⟨octets, hlength, (some.inj h).symm⟩
    · exact nomatch h

include hparse in
theorem canonicalMac_idempotent (h : canonicalMac parseMac s = some c) :
    canonicalMac parseMac c = some c := by
  obtain ⟨bytes, hlength, rfl⟩ := exists_formatMac h
  exact canonicalMac_formatMac hparse hlength

theorem isSome_group_iff {group : List Char} (h : '+' ∉ group) :
    (if (String.ofList group).utf8ByteSize = 1 ∨ (String.ofList group).utf8ByteSize = 2 then
        parseHexByte group else none).isSome = true ↔
      (group.length = 1 ∨ group.length = 2) ∧ isHexGroup group = true := by
  constructor
  · intro hsome
    split_ifs at hsome with hwidth
    · have hhex := ((isSome_parseHexByte h).mp hsome).2
      rw [utf8ByteSize_of_isHexGroup hhex] at hwidth
      exact ⟨hwidth, hhex⟩
    · exact nomatch hsome
  · rintro ⟨hlength, hhex⟩
    rw [utf8ByteSize_of_isHexGroup hhex, if_pos hlength, isSome_parseHexByte h]
    refine ⟨?_, hhex⟩
    rintro rfl
    rcases hlength with hlength | hlength <;> exact nomatch hlength

/-- A text without a plus sign is recognised if it is six groups of digits or one that the parser
accepts, apart from white space around it. -/
theorem isSome_canonicalMac (h : '+' ∉ s.toList) : (canonicalMac parseMac s).isSome = true ↔
    IsColonMac (trim s) ∨ (parseMac (trim s)).isSome = true := by
  unfold canonicalMac
  dsimp only
  cases hmac : parseMac (trim s) with
  | some mac => exact iff_of_true rfl (.inr rfl)
  | none =>
    have hplus : ∀ group ∈ splitOnChar ':' (trim s).toList, '+' ∉ group := fun group hgroup hmem =>
      h (mem_of_mem_trim (mem_of_mem_splitOnChar hgroup hmem))
    have hgroups := forall₂_congr fun group hgroup => isSome_group_iff (hplus group hgroup)
    rw [← isSome_mapM] at hgroups
    simp only [isSome_none, Bool.false_eq_true, or_false, IsColonMac]
    rw [← hgroups]
    cases hoctets : (splitOnChar ':' (trim s).toList).mapM fun group =>
        if (String.ofList group).utf8ByteSize = 1 ∨ (String.ofList group).utf8ByteSize = 2 then
          parseHexByte group else none with
    | none => exact iff_of_false nofun fun hcolon => nomatch hcolon.2
    | some octets =>
      rw [← length_of_mapM hoctets, bind_some]
      split_ifs with hlength
      · exact iff_of_true rfl ⟨hlength, rfl⟩
      · exact iff_of_false nofun fun hcolon => hlength hcolon.1

include hparse in
theorem length_of_isSome_canonicalMac (h : (canonicalMac parseMac s).isSome = true) :
    11 ≤ s.toList.length := by
  refine le_trans ?_ (length_trim_le s)
  obtain ⟨c, hc⟩ := isSome_iff_exists.mp h
  unfold canonicalMac at hc
  dsimp only at hc
  split at hc
  · rename_i mac hmac
    rw [hparse] at hmac
    unfold paddedMac at hmac
    dsimp only at hmac
    split at hmac
    · rename_i hgroups
      have hlength := length_of_six_groups hgroups.1 fun group hgroup hnil => by
        rw [hnil] at hgroup
        exact nomatch (hgroups.2 [] hgroup).1
      rwa [length_map] at hlength
    · exact nomatch hmac
  · obtain ⟨octets, hoctets, hsix⟩ := bind_eq_some_iff.mp hc
    split at hsix
    · rename_i hlength
      refine length_of_six_groups ((length_of_mapM hoctets).symm.trans hlength) fun group hgroup hnil => ?_
      have hsome := isSome_mapM.mp (by rw [hoctets]; rfl) group hgroup
      rw [hnil] at hsome
      exact nomatch hsome
    · exact nomatch hsix

end Canonical

section Utf8
variable {value : List Byte} {s : String}

theorem length_utf8Chunks_le (fuel : ℕ) (bytes : List Byte) :
    (utf8Chunks fuel bytes).length ≤ fuel := by
  induction fuel generalizing bytes with
  | zero => exact Nat.le_refl 0
  | succ fuel ih =>
    cases bytes with
    | nil => exact Nat.zero_le _
    | cons lead bytes =>
      rw [utf8Chunks, length_cons]
      exact Nat.succ_le_succ (ih _)

theorem chunks_of_fromUtf8 (h : fromUtf8 value = some s) :
    (utf8Chunks value.length value) = s.toList.map some := by
  unfold fromUtf8 at h
  dsimp only at h
  split at h
  · rename_i hall
    rw [← some.inj h, String.toList_ofList]
    generalize utf8Chunks value.length value = chunks at hall
    induction chunks with
    | nil => rfl
    | cons c chunks ih =>
      rw [all_cons, Bool.and_eq_true] at hall
      obtain ⟨d, rfl⟩ := isSome_iff_exists.mp hall.1
      exact congrArg (some d :: ·) (ih hall.2)
  · exact nomatch h

theorem fromUtf8Lossy_of_fromUtf8 (h : fromUtf8 value = some s) : fromUtf8Lossy value = s := by
  unfold fromUtf8Lossy
  rw [chunks_of_fromUtf8 h, List.map_map]
  exact (congrArg String.ofList (List.map_id _)).trans String.ofList_toList

theorem length_le_of_fromUtf8 (h : fromUtf8 value = some s) : s.toList.length ≤ value.length := by
  have hle := length_utf8Chunks_le value.length value
  rwa [chunks_of_fromUtf8 h, length_map] at hle

theorem stripNuls_eq_self (h : '\x00' ∉ s.toList) : stripNuls s = s := by
  have hfilter : (s.toList.filter fun c => c != '\x00') = s.toList :=
    filter_eq_self.mpr fun c hc => bne_iff_ne.mpr fun heq => h (heq ▸ hc)
  rw [stripNuls, hfilter, String.ofList_toList]

end Utf8

section Identifier
variable {parseMac : String → Option MacAddress}

def isTextSubtype (subtype : Byte) : Bool := [1, 2, 3, 6, 7].contains subtype.toNat

theorem identifier_of_text {subtype : Byte} {value : List Byte} (h : isTextSubtype subtype = true) :
    (LldpChassisId.fromSnmp parseMac subtype value).map LldpChassisId.identifier =
      some (decodeTlvText value) := by
  unfold isTextSubtype at h
  rw [contains_iff_mem] at h
  simp only [mem_cons, not_mem_nil, or_false] at h
  unfold LldpChassisId.fromSnmp
  rcases h with h | h | h | h | h <;> rw [h] <;> rfl

theorem identifier_fromIdentifierStr (s : String) :
    (LldpChassisId.fromIdentifierStr parseMac s).identifier = (canonicalMac parseMac s).getD s := by
  unfold LldpChassisId.fromIdentifierStr
  cases canonicalMac parseMac s <;> rfl

/-- One text is one identifier, from an agent and from a controller: under a text subtype if it is no
MAC or one in the form that MACs are brought to, and under the subtype of MACs if it is one. -/
theorem chassis_identifier (hparse : ∀ s, parseMac s = paddedMac s) :
    (∀ (subtype : Byte) (value : List Byte) (s : String), fromUtf8 value = some s →
      (isTextSubtype subtype = true ∧ (canonicalMac parseMac (stripNuls s) = none ∨
          canonicalMac parseMac (stripNuls s) = some (stripNuls s)) ∨
        subtype = 4 ∧ '\x00' ∉ s.toList ∧ (canonicalMac parseMac s).isSome = true) →
      (LldpChassisId.fromSnmp parseMac subtype value).map LldpChassisId.identifier =
        some (LldpChassisId.fromIdentifierStr parseMac (stripNuls s)).identifier) ∧
    (∀ s c, canonicalMac parseMac s = some c → canonicalMac parseMac c = some c) ∧
    ∀ s : String, '+' ∉ s.toList → ((canonicalMac parseMac s).isSome = true ↔
      IsColonMac (trim s) ∨ (parseMac (trim s)).isSome = true) := by
  refine ⟨?_, fun s c => canonicalMac_idempotent hparse, fun s => isSome_canonicalMac⟩
  intro subtype value s hvalue hcases
  rw [identifier_fromIdentifierStr]
  rcases hcases with ⟨htext, hcanonical⟩ | ⟨rfl, hnul, hmac⟩
  · rw [identifier_of_text htext, decodeTlvText, fromUtf8Lossy_of_fromUtf8 hvalue]
    rcases hcanonical with hnone | hsome
    · rw [hnone, getD_none]
    · rw [hsome, getD_some]
  · have hlong := length_of_isSome_canonicalMac hparse hmac
    have hle := length_le_of_fromUtf8 hvalue
    obtain ⟨c, hc⟩ := isSome_iff_exists.mp hmac
    have hread : parseMacId parseMac value = some c := by
      rw [parseMacId, if_neg (by omega), hvalue]
      exact hc
    rw [stripNuls_eq_self hnul, hc, getD_some]
    change ((parseMacId parseMac value).map LldpChassisId.macAddress).map _ = _
    rw [hread]
    rfl

private def asciiBytes (s : String) : List Byte := s.toList.map fun c => BitVec.ofNat 8 c.toNat

/-- A MAC that an agent spells out without leading zeros. -/
theorem chassis_identifier_unpadded :
    fromUtf8 (asciiBytes "0:1a:2b:0:10:0") = some "0:1a:2b:0:10:0" ∧
      (LldpChassisId.fromSnmp paddedMac 4 (asciiBytes "0:1a:2b:0:10:0")).map
          LldpChassisId.identifier =
        some (LldpChassisId.fromIdentifierStr paddedMac (stripNuls "0:1a:2b:0:10:0")).identifier := by
  have hvalue : fromUtf8 (asciiBytes "0:1a:2b:0:10:0") = some "0:1a:2b:0:10:0" := by decide
  refine ⟨hvalue, (chassis_identifier fun _ => rfl).1 4 _ _ hvalue (.inr ⟨rfl, by decide, by decide⟩)⟩

/-- Text under the subtype of MACs that is none is not recorded. -/
theorem chassis_identifier_no_mac : ¬∀ (subtype : Byte) (value : List Byte) (s : String),
    1 ≤ subtype.toNat → subtype.toNat ≤ 7 → fromUtf8 value = some s →
      (LldpChassisId.fromSnmp paddedMac subtype value).map LldpChassisId.identifier =
        some (LldpChassisId.fromIdentifierStr paddedMac (stripNuls s)).identifier := by
  intro h
  exact absurd (h 4 (asciiBytes "not-a-mac") "not-a-mac" (by decide) (by decide) (by decide))
    (by decide)

end Identifier
end Scanopy
