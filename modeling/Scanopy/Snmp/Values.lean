import Scanopy.Interfaces.Service

/-! The values that an SNMP agent answers with, and what the collectors read from them. Octets are
text, addresses, bitmaps or identifiers, depending on the column that they come from. -/

namespace Scanopy

abbrev Byte := BitVec 8

/-- The answers that a column handler can see. -/
inductive SnmpValue
  | integer (n : ℤ)
  | unsigned32 (n : ℕ)
  | counter32 (n : ℕ)
  | counter64 (n : ℕ)
  | timeticks (n : ℕ)
  | octetString (bytes : List Byte)
  | objectIdentifier (ids : List ℕ)
  | ipAddress (bits : BitVec 32)
  | other
  deriving DecidableEq

/-- `as i32` of an unsigned number. -/
def asI32 (n : ℕ) : ℤ := (BitVec.ofNat 32 n).toInt

section Text

/-- How many bytes follow a leading byte of several, and the range of the first of them. -/
def utf8Tail (lead : ℕ) : Option (ℕ × ℕ × ℕ) :=
  if 0xC2 ≤ lead ∧ lead ≤ 0xDF then some (1, 0x80, 0xBF)
  else if lead = 0xE0 then some (2, 0xA0, 0xBF)
  else if lead = 0xED then some (2, 0x80, 0x9F)
  else if 0xE1 ≤ lead ∧ lead ≤ 0xEF then some (2, 0x80, 0xBF)
  else if lead = 0xF0 then some (3, 0x90, 0xBF)
  else if lead = 0xF4 then some (3, 0x80, 0x8F)
  else if 0xF1 ≤ lead ∧ lead ≤ 0xF3 then some (3, 0x80, 0xBF)
  else none

/-- The bytes that continue a character, up to the number that it needs. -/
def takeUtf8Tail : (owed low high : ℕ) → List Byte → List ℕ
  | 0, _, _, _ => []
  | _ + 1, _, _, [] => []
  | owed + 1, low, high, b :: bytes =>
    if low ≤ b.toNat ∧ b.toNat ≤ high then b.toNat :: takeUtf8Tail owed 0x80 0xBF bytes else []

/-- The character that the bytes begin with, or `none`, and the number of bytes that belong to it
or to the broken sequence. -/
def nextUtf8 (lead : Byte) (bytes : List Byte) : Option Char × ℕ :=
  if lead.toNat ≤ 0x7F then (some (Char.ofNat lead.toNat), 1)
  else match utf8Tail lead.toNat with
    | none => (none, 1)
    | some (owed, low, high) =>
      let tail := takeUtf8Tail owed low high bytes
      if tail.length = owed then
        (some (Char.ofNat (tail.foldl (fun n b => 64 * n + b % 64) (lead.toNat % 2 ^ (6 - owed)))),
          owed + 1)
      else (none, tail.length + 1)

def utf8Chunks : (fuel : ℕ) → List Byte → List (Option Char)
  | 0, _ | _, [] => []
  | fuel + 1, lead :: bytes =>
    let (c, width) := nextUtf8 lead bytes
    c :: utf8Chunks fuel ((lead :: bytes).drop width)

def fromUtf8 (bytes : List Byte) : Option String :=
  let chunks := utf8Chunks bytes.length bytes
  if chunks.all Option.isSome then some (String.ofList (chunks.filterMap id)) else none

/-- `String::from_utf8_lossy`: a broken sequence becomes a replacement character. -/
def fromUtf8Lossy (bytes : List Byte) : String :=
  String.ofList ((utf8Chunks bytes.length bytes).map fun c => c.getD '\uFFFD')

def stripNuls (s : String) : String := String.ofList (s.toList.filter fun c => c != '\x00')

end Text

section Addresses

def bytesToNat (bytes : List Byte) : ℕ := bytes.foldl (fun n b => 256 * n + b.toNat) 0

def macOfBytes (bytes : List Byte) : MacAddress := BitVec.ofNat 48 (bytesToNat bytes)

def ipv4OfBytes (bytes : List Byte) : IpAddr := .v4 (BitVec.ofNat 32 (bytesToNat bytes))

def ipv6OfBytes (bytes : List Byte) : IpAddr := .v6 (BitVec.ofNat 128 (bytesToNat bytes))

def hexDigits : List Char :=
  ['0', '1', '2', '3', '4', '5', '6', '7', '8', '9', 'a', 'b', 'c', 'd', 'e', 'f']

/-- `format!("{:02x}", b)`. -/
def hexByte (b : Byte) : List Char :=
  [hexDigits.getD (b.toNat / 16) '0', hexDigits.getD (b.toNat % 16) '0']

def formatMac (bytes : List Byte) : String :=
  ":".intercalate (bytes.map fun b => String.ofList (hexByte b))

def macBytes (mac : MacAddress) : List Byte :=
  (List.range 6).map fun i => BitVec.ofNat 8 (mac.toNat / 2 ^ (8 * (5 - i)))

def hexValue (c : Char) : Option ℕ :=
  if '0' ≤ c ∧ c ≤ '9' then some (c.toNat - '0'.toNat)
  else if 'a' ≤ c ∧ c ≤ 'f' then some (c.toNat - 'a'.toNat + 10)
  else if 'A' ≤ c ∧ c ≤ 'F' then some (c.toNat - 'A'.toNat + 10)
  else none

/-- `u8::from_str_radix` of base 16, for at most two characters: a plus sign is allowed. -/
def parseHexByte (cs : List Char) : Option Byte :=
  let digits := match cs with
    | '+' :: rest => rest
    | cs => cs
  if digits = [] then none
  else (digits.mapM hexValue).map fun ns => BitVec.ofNat 8 (ns.foldl (fun n d => 16 * n + d) 0)

/-- `split(':')`. -/
def splitOnChar (sep : Char) : List Char → List (List Char)
  | [] => [[]]
  | c :: cs =>
    if c = sep then [] :: splitOnChar sep cs
    else match splitOnChar sep cs with
      | group :: groups => (c :: group) :: groups
      | [] => [[c]]

variable (parseMac : String → Option MacAddress)

/-- `canonical_mac`: six groups of one or two hexadecimal digits if the parser of the type does not
take the text. The length of a group is counted in bytes. -/
def canonicalMac (value : String) : Option String :=
  let s := trim value
  match parseMac s with
  | some mac => some (formatMac (macBytes mac))
  | none =>
    let octets := (splitOnChar ':' s.toList).mapM fun group =>
      let width := (String.ofList group).utf8ByteSize
      if width = 1 ∨ width = 2 then parseHexByte group else none
    octets.bind fun octets => if octets.length = 6 then some (formatMac octets) else none

def parseMacId (value : List Byte) : Option String :=
  if value.length = 6 then some (formatMac value)
  else (fromUtf8 value).bind (canonicalMac parseMac)

def parseNetworkAddress : List Byte → Option IpAddr
  | [] => none
  | family :: bytes =>
    if family = 1 ∧ bytes.length = 4 then some (ipv4OfBytes bytes)
    else if family = 2 ∧ bytes.length = 16 then some (ipv6OfBytes bytes)
    else none

def decodeTlvText (value : List Byte) : String := stripNuls (fromUtf8Lossy value)

def LldpChassisId.fromSnmp (subtype : Byte) (value : List Byte) : Option LldpChassisId :=
  match subtype.toNat with
  | 1 => some (.chassisComponent (decodeTlvText value))
  | 2 => some (.interfaceAlias (decodeTlvText value))
  | 3 => some (.portComponent (decodeTlvText value))
  | 4 => (parseMacId parseMac value).map .macAddress
  | 5 => (parseNetworkAddress value).map .networkAddress
  | 6 => some (.interfaceName (decodeTlvText value))
  | 7 => some (.locallyAssigned (decodeTlvText value))
  | _ => none

def LldpPortId.fromSnmp (subtype : Byte) (value : List Byte) : Option LldpPortId :=
  match subtype.toNat with
  | 1 => some (.interfaceAlias (decodeTlvText value))
  | 2 => some (.portComponent (decodeTlvText value))
  | 3 => (parseMacId parseMac value).map .macAddress
  | 4 => (parseNetworkAddress value).map .networkAddress
  | 5 => some (.interfaceName (decodeTlvText value))
  | 6 => some (.agentCircuitId (decodeTlvText value))
  | 7 => some (.locallyAssigned (decodeTlvText value))
  | _ => none

end Addresses

namespace SnmpValue

def toText : SnmpValue → Option String
  | octetString bytes => (fromUtf8 bytes).map stripNuls
  | objectIdentifier ids => some (".".intercalate (ids.map toString))
  | _ => none

def toI32 : SnmpValue → Option ℤ
  | integer n => if -2 ^ 31 ≤ n ∧ n < 2 ^ 31 then some n else none
  | unsigned32 n | counter32 n | counter64 n | timeticks n =>
    if n < 2 ^ 31 then some (n : ℤ) else none
  | _ => none

def toU64 : SnmpValue → Option ℕ
  | integer n => if 0 ≤ n then some n.toNat else none
  | unsigned32 n | counter32 n | counter64 n | timeticks n => some n
  | _ => none

def toU16 : SnmpValue → Option (BitVec 16)
  | integer n => if 0 ≤ n ∧ n < 2 ^ 16 then some (BitVec.ofInt 16 n) else none
  | unsigned32 n | counter32 n => if n < 2 ^ 16 then some (BitVec.ofNat 16 n) else none
  | _ => none

/-- `value_to_i32(value).map(|v| v as u8)`. -/
def toSubtype (value : SnmpValue) : Option Byte := value.toI32.map (BitVec.ofInt 8)

def toBytes : SnmpValue → Option (List Byte)
  | octetString bytes => some bytes
  | _ => none

def toMac (value : SnmpValue) : Option MacAddress :=
  value.toBytes.bind fun bytes => if bytes.length = 6 then some (macOfBytes bytes) else none

/-- The address of a CDP neighbour, which is four octets. -/
def toIpv4 (value : SnmpValue) : Option IpAddr :=
  value.toBytes.bind fun bytes => if bytes.length = 4 then some (ipv4OfBytes bytes) else none

end SnmpValue

/-- `parse_portlist_bitmap`: the ports of a bitmap, from the most significant bit of the first
octet. -/
def parsePortlistBitmap (bytes : List Byte) : List ℤ :=
  bytes.zipIdx.flatMap fun (byte, octet) =>
    (List.range 8).filterMap fun bit =>
      if byte.getMsbD bit then some ((octet * 8 + bit + 1 : ℕ) : ℤ) else none

def qbridgeFdbIndexToMac (suffix : List ℕ) : Option MacAddress :=
  if suffix.length ≠ 7 then none
  else
    let mac := suffix.tail
    if mac.any fun o => 255 < o then none else some (macOfBytes (mac.map (BitVec.ofNat 8)))

def parseLldpMgmtAddr (bytes : List Byte) : Option IpAddr :=
  if bytes.length = 4 then some (ipv4OfBytes bytes)
  else if bytes.length = 16 then some (ipv6OfBytes bytes)
  else if bytes.length = 5 ∧ bytes.head? = some 1 then some (ipv4OfBytes bytes.tail)
  else if bytes.length = 17 ∧ bytes.head? = some 2 then some (ipv6OfBytes bytes.tail)
  else none

/-- `split_lldp_man_addr_index`: the key of a neighbour and its address, from an index with or
without a time mark. -/
def splitLldpManAddrIndex (suffix : List ℕ) : Option (ℤ × ℤ × List Byte) :=
  [3, 2].findSome? fun pre =>
    if suffix.length < pre + 2 then none
    else
      let addrLen := suffix.getD (pre + 1) 0
      if addrLen = 0 ∨ suffix.length ≠ pre + 2 + addrLen then none
      else some (asI32 (suffix.getD (pre - 2) 0), asI32 (suffix.getD (pre - 1) 0),
        (suffix.getD pre 0 :: suffix.drop (pre + 2)).map (BitVec.ofNat 8))

end Scanopy
