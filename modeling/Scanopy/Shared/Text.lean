import Scanopy.Shared.Net

/-! Text as the standard library of the source trims, splits, parses and prints it. -/

namespace Scanopy

open List

/-- The characters that `str::trim` removes: those of the property White_Space. -/
def isWhitespace (c : Char) : Bool :=
  let n := c.toNat
  (0x09 ≤ n && n ≤ 0x0D) || n == 0x20 || n == 0x85 || n == 0xA0 || n == 0x1680 ||
    (0x2000 ≤ n && n ≤ 0x200A) || n == 0x2028 || n == 0x2029 || n == 0x202F || n == 0x205F ||
    n == 0x3000

def trim (s : String) : String :=
  String.ofList ((s.toList.dropWhile isWhitespace).reverse.dropWhile isWhitespace).reverse

section Trim
variable {s : String}

theorem mem_of_mem_trim {c : Char} (h : c ∈ (trim s).toList) : c ∈ s.toList := by
  rw [trim, String.toList_ofList, mem_reverse] at h
  have hinner := (dropWhile_suffix _).subset h
  rw [mem_reverse] at hinner
  exact (dropWhile_suffix _).subset hinner

theorem length_trim_le (s : String) : (trim s).toList.length ≤ s.toList.length := by
  rw [trim, String.toList_ofList, length_reverse]
  refine (dropWhile_suffix _).length_le.trans ?_
  rw [length_reverse]
  exact (dropWhile_suffix _).length_le

theorem dropWhile_eq_self {l : List Char} (h : ∀ c ∈ l, isWhitespace c = false) :
    l.dropWhile isWhitespace = l := by
  cases l with
  | nil => rfl
  | cons c l => rw [dropWhile_cons_of_neg (by rw [h c mem_cons_self]; exact nofun)]

theorem trim_eq_self (h : ∀ c ∈ s.toList, isWhitespace c = false) : trim s = s := by
  rw [trim, dropWhile_eq_self h, dropWhile_eq_self fun c hc => h c (mem_reverse.mp hc),
    reverse_reverse, String.ofList_toList]

end Trim

/-- `rsplit_once('/')`, of which only the second part is used. -/
def afterLastSlash (s : String) : Option String :=
  if '/' ∈ s.toList then
    some (String.ofList (s.toList.reverse.takeWhile fun c => c != '/').reverse)
  else none

def parseDigits (cs : List Char) : Option ℕ :=
  if cs ≠ [] ∧ cs.all Char.isDigit then
    some (cs.foldl (fun n c => 10 * n + (c.toNat - '0'.toNat)) 0)
  else none

/-- `str::parse::<i32>`: an optional sign and digits, within the range of the type. -/
def parseI32 (s : String) : Option ℤ :=
  (match s.toList with
    | '-' :: cs => (parseDigits cs).map fun n => -(n : ℤ)
    | '+' :: cs => (parseDigits cs).map Int.ofNat
    | cs => (parseDigits cs).map Int.ofNat).filter fun n => -2 ^ 31 ≤ n ∧ n < 2 ^ 31

def ipv4ToString (bits : BitVec 32) : String :=
  ".".intercalate ((List.range 4).map fun i => toString (bits.toNat / 2 ^ (8 * (3 - i)) % 2 ^ 8))

def ipv6Segments (bits : BitVec 128) : List ℕ :=
  (List.range 8).map fun i => bits.toNat / 2 ^ (16 * (7 - i)) % 2 ^ 16

def longestZeroRun (segments : List ℕ) : ℕ × ℕ :=
  (segments.zipIdx.foldl (fun (longest, current) (segment, i) =>
    if segment = 0 then
      let current := if current.2 = 0 then (i, 1) else (current.1, current.2 + 1)
      (if longest.2 < current.2 then current else longest, current)
    else (longest, (0, 0))) (((0, 0), (0, 0)) : (ℕ × ℕ) × (ℕ × ℕ))).1

/-- `Display` of an address: mapped addresses end in dotted form, and the longest run of two or
more zero segments is left out. -/
def IpAddr.toText : IpAddr → String
  | .v4 bits => ipv4ToString bits
  | .v6 bits =>
    let segments := ipv6Segments bits
    let hex := fun l : List ℕ =>
      ":".intercalate (l.map fun n => String.ofList (Nat.toDigits 16 n))
    if bits.toNat / 2 ^ 32 = 0xFFFF then
      "::ffff:" ++ ipv4ToString (BitVec.ofNat 32 bits.toNat)
    else
      let (start, len) := longestZeroRun segments
      if 1 < len then hex (segments.take start) ++ "::" ++ hex (segments.drop (start + len))
      else hex segments

end Scanopy
