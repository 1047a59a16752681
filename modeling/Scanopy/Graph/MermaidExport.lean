import Scanopy.Credentials.Tokens
import Scanopy.Graph.ViewSupport

/-! The export of a topology as a Mermaid flowchart. Identifiers are the first eight digits of the
ids; labels are escaped, but neither line breaks nor bars are. -/

namespace Scanopy

open List Nat

open Graph (Node Edge EdgeType)

/-- The first eight hexadecimal digits. -/
def shortId (id : Uuid) : String :=
  String.ofList (((uuidText id).toList.filter (· ≠ '-')).take 8)

/-- `replace` of a character. -/
def replaceChar (c : Char) (t s : String) : String :=
  String.ofList (s.toList.flatMap fun d => if d = c then t.toList else [d])

def mermaidEscape (s : String) : String :=
  replaceChar ']' "&#93;" (replaceChar '[' "&#91;" (replaceChar '>' "&gt;" (replaceChar '<' "&lt;"
    (replaceChar '"' "&quot;" s))))

/-- `Display` of a network; the length of a single address is left out. -/
def IpCidr.toText (c : IpCidr) : String :=
  let full := match c with
    | .v4 _ => 32
    | .v6 _ => 128
  if c.networkLength = full then c.firstAddress.toText
  else c.firstAddress.toText ++ "/" ++ toString c.networkLength

inductive MermaidLine
  | flowchart
  | subgraph (id label : String)
  | node (id label : String)
  | close
  | edge (source arrow : String) (label : Option String) (target : String)

namespace MermaidLine

def text : MermaidLine → String
  | flowchart => "flowchart TD\n"
  | subgraph id label => "    subgraph " ++ id ++ "[\"" ++ label ++ "\"]\n"
  | node id label => "        " ++ id ++ "[\"" ++ label ++ "\"]\n"
  | close => "    end\n"
  | edge source arrow label target => "    " ++ source ++ " " ++ arrow ++
      (label.map fun l => "|" ++ l ++ "|").getD "" ++ " " ++ target ++ "\n"

def declares : MermaidLine → Option String
  | subgraph id _ | node id _ => some id
  | _ => none

end MermaidLine

structure KeyOrder where
  visit : List Uuid → List Uuid
  visit_perm : ∀ l, (visit l).Perm l

def Graph.Node.addressSubnet (n : Node) : Option Uuid :=
  match n.nodeType with
  | .element data => match data.element with
    | .ipAddress subnetId _ => some subnetId
    | _ => none
  | .container _ => none

def Graph.EdgeType.arrow : EdgeType → String
  | requestPath .. | hubAndSpoke .. => "-->"
  | sameHost .. | physicalLink .. | sameContainer .. => "---"
  | neighborLink .. => "-.-"
  | hypervisor .. | containerRuntime .. => "-.->"

/-- What the exporter reads. -/
structure MermaidExport where
  order : KeyOrder
  nodes : List Node
  edges : List Edge
  data : TopologyData

namespace MermaidExport
variable (x : MermaidExport)

def subnet (id : Uuid) : Option Subnet := (x.data.subnets.reverse.map (·.entity)).find? (·.id = id)

def hostName (hostId : Uuid) : String :=
  (((x.data.hosts.reverse.map (·.entity)).find? (·.id = hostId)).map (·.base.name)).getD "Unknown Host"

def ipText (ipAddressId : Option Uuid) : String :=
  ((ipAddressId.bind fun id => x.data.ipAddresses.reverse.find? (·.id = id)).map
    (·.base.ipAddress.toText)).getD ""

def nodeLine (n : Node) : Option MermaidLine :=
  match n.nodeType with
  | .element data => match data.element with
    | .ipAddress _ ipAddressId =>
      let ip := x.ipText ipAddressId
      let label := if ip = "" then mermaidEscape (x.hostName data.hostId)
        else mermaidEscape (x.hostName data.hostId) ++ "<br/>" ++ ip
      some (.node ("n_" ++ shortId n.id) label)
    | _ => none
  | .container _ => none

def subgraphLines (subnetId : Uuid) : List MermaidLine :=
  match x.subnet subnetId with
  | some s => .subgraph ("sub_" ++ shortId subnetId)
      (mermaidEscape s.base.name ++ " - " ++ s.base.cidr.toText) ::
      (x.nodes.filter (·.addressSubnet = some subnetId)).filterMap x.nodeLine ++ [.close]
  | none => []

def subnetNodeIds : List Uuid := (x.nodes.filter Node.isContainer).map (·.id)

def identifier (id : Uuid) : String :=
  (if id ∈ x.subnetNodeIds then "sub" else "n") ++ "_" ++ shortId id

def edgeLine (e : Edge) : MermaidLine :=
  .edge (x.identifier e.source) e.edgeType.arrow (e.label.map mermaidEscape) (x.identifier e.target)

def lines : List MermaidLine :=
  .flowchart :: (x.order.visit (x.nodes.filterMap Node.addressSubnet).dedup).flatMap x.subgraphLines ++
    x.edges.map x.edgeLine

def topologyToMermaid : String := String.join (x.lines.map (·.text))

end MermaidExport

def OneLine (s : String) : Prop := '\n' ∉ s.toList ∧ '\r' ∉ s.toList

def MermaidLine.LabelClosed : MermaidLine → Prop
  | subgraph _ label | node _ label => '"' ∉ label.toList ∧ OneLine label
  | edge _ _ label _ => ∀ l ∈ label, '|' ∉ l.toList ∧ OneLine l
  | _ => True

structure MermaidExport.WellFormed (x : MermaidExport) : Prop where
  declared : ∀ source arrow label target, .edge source arrow label target ∈ x.lines →
    source ∈ x.lines.filterMap (·.declares) ∧ target ∈ x.lines.filterMap (·.declares)
  distinct : ∀ n ∈ x.nodes, ∀ m ∈ x.nodes, n.id ≠ m.id → x.identifier n.id ≠ x.identifier m.id
  closed : ∀ line ∈ x.lines, line.LabelClosed

def SameStart (a b : Uuid) : Prop := a.toNat / 16 ^ 24 = b.toNat / 16 ^ 24

namespace MermaidExport
variable (x : MermaidExport)

def Draws (n : Node) (s : Subnet) : Prop :=
  ∃ subnetId, n.addressSubnet = some subnetId ∧ x.subnet subnetId = some s

def IsDrawn (id : Uuid) : Prop :=
  ∃ n ∈ x.nodes, ∃ s, x.Draws n s ∧ SameStart (if id ∈ x.subnetNodeIds then s.id else n.id) id

/-- What an export takes to be well formed. -/
structure Exportable : Prop where
  drawn : ∀ e ∈ x.edges, x.IsDrawn e.source ∧ x.IsDrawn e.target
  apart : ∀ n ∈ x.nodes, ∀ m ∈ x.nodes, n.id ≠ m.id →
    (n.id ∈ x.subnetNodeIds ↔ m.id ∈ x.subnetNodeIds) → ¬SameStart n.id m.id
  names : ∀ n ∈ x.nodes, ∀ s, x.Draws n s → OneLine s.base.name ∧
    ∀ data, n.nodeType = .element data → OneLine (x.hostName data.hostId)
  labels : ∀ e ∈ x.edges, ∀ l ∈ e.label, '|' ∉ l.toList ∧ OneLine l

end MermaidExport

section Escaping
variable {c : Char} {s t : String}

theorem mem_replaceChar {d : Char} (hc : c ∉ t.toList) :
    c ∈ (replaceChar d t s).toList ↔ c ∈ s.toList ∧ c ≠ d := by
  rw [replaceChar, String.toList_ofList, List.mem_flatMap]
  constructor
  · rintro ⟨b, hb, hmem⟩
    split_ifs at hmem with heq
    · exact absurd hmem hc
    · obtain rfl := List.mem_singleton.mp hmem
      exact ⟨hb, heq⟩
  · rintro ⟨hmem, hne⟩
    refine ⟨c, hmem, ?_⟩
    rw [if_neg hne]
    exact List.mem_singleton_self c

theorem mem_mermaidEscape (hc : c ∈ ['"', '|', '\n', '\r']) :
    c ∈ (mermaidEscape s).toList ↔ c ∈ s.toList ∧ c ≠ '"' := by
  have hentities : ∀ c ∈ ['"', '|', '\n', '\r'], (∀ t ∈ ["&#93;", "&#91;", "&gt;", "&lt;", "&quot;"],
      c ∉ t.toList) ∧ c ≠ ']' ∧ c ≠ '[' ∧ c ≠ '>' ∧ c ≠ '<' := by
    refine List.forall_mem_cons.mpr ⟨by decide, List.forall_mem_cons.mpr ⟨by decide,
      List.forall_mem_cons.mpr ⟨by decide, List.forall_mem_singleton.mpr (by decide)⟩⟩⟩
  obtain ⟨hout, hclose, hopen, hgt, hlt⟩ := hentities c hc
  rw [mermaidEscape, mem_replaceChar (hout _ (by simp)), mem_replaceChar (hout _ (by simp)),
    mem_replaceChar (hout _ (by simp)), mem_replaceChar (hout _ (by simp)),
    mem_replaceChar (hout _ (by simp))]
  simp [hclose, hopen, hgt, hlt]

theorem oneLine_mermaidEscape : OneLine (mermaidEscape s) ↔ OneLine s := by
  unfold OneLine
  rw [mem_mermaidEscape (by simp), mem_mermaidEscape (by simp)]
  simp

theorem quote_not_mem_mermaidEscape : '"' ∉ (mermaidEscape s).toList := by
  rw [mem_mermaidEscape (by simp)]
  simp

theorem bar_mem_mermaidEscape : '|' ∈ (mermaidEscape s).toList ↔ '|' ∈ s.toList := by
  rw [mem_mermaidEscape (by simp)]
  simp

theorem oneLine_append : OneLine (s ++ t) ↔ OneLine s ∧ OneLine t := by
  simp only [OneLine, String.toList_append, List.mem_append, not_or]
  tauto

theorem CharsIn.oneLine (h : CharsIn ('/' :: tokenChars) s) : OneLine s ∧ '"' ∉ s.toList :=
  ⟨⟨h.not_mem (by decide), h.not_mem (by decide)⟩, h.not_mem (by decide)⟩

theorem charsIn_cidr (cidr : IpCidr) : CharsIn ('/' :: tokenChars) cidr.toText := by
  have haddress : CharsIn ('/' :: tokenChars) cidr.firstAddress.toText :=
    fun c hc => mem_cons_of_mem _ (charsIn_toText _ c hc)
  unfold IpCidr.toText
  dsimp only
  split_ifs
  · exact haddress
  · refine (haddress.append (by decide)).append fun c hc => mem_cons_of_mem _ ?_
    rw [toString_eq_ofList_toDigits, String.toList_ofList] at hc
    exact mem_tokenChars_of_mem_toDigits (by decide) (by decide) hc

end Escaping

section Identifiers
variable {a b : Uuid}

theorem toList_shortId (id : Uuid) : (shortId id).toList =
    (List.range' 0 8).map fun i => Nat.digitChar (id.toNat / 16 ^ (31 - i) % 16) := by
  have hdash : ∀ c ∈ (List.range' 0 8).map (fun i => Nat.digitChar (id.toNat / 16 ^ (31 - i) % 16)),
      c ≠ '-' := by
    intro c hc
    obtain ⟨i, -, rfl⟩ := mem_map.mp hc
    have hall : ∀ n < 16, Nat.digitChar n ≠ '-' := by decide
    exact hall _ (mod_lt _ (by decide))
  rw [shortId, String.toList_ofList, uuidText]
  dsimp only
  rw [String.intercalate_cons_cons, String.toList_append, String.toList_append, String.toList_ofList,
    append_assoc, filter_append, filter_eq_self.mpr fun c hc => by simpa using hdash c hc]
  exact take_left' (by simp)

theorem shortId_eq_iff : shortId a = shortId b ↔ SameStart a b := by
  rw [← String.toList_inj, toList_shortId, toList_shortId]
  have hdigit : ∀ m < 16, ∀ n < 16, Nat.digitChar m = Nat.digitChar n → m = n := by decide
  have hlt (n k : ℕ) : n / k % 16 < 16 := mod_lt _ (by decide)
  constructor
  · intro h
    have hall := map_inj_left.mp h
    have heq (i : ℕ) (hi : i < 8) : a.toNat / 16 ^ (31 - i) % 16 = b.toNat / 16 ^ (31 - i) % 16 :=
      hdigit _ (hlt _ _) _ (hlt _ _) (hall i (by simpa using hi))
    have ha : a.toNat < 2 ^ 128 := a.isLt
    have hb : b.toNat < 2 ^ 128 := b.isLt
    have h0 := heq 0 (by decide)
    have h1 := heq 1 (by decide)
    have h2 := heq 2 (by decide)
    have h3 := heq 3 (by decide)
    have h4 := heq 4 (by decide)
    have h5 := heq 5 (by decide)
    have h6 := heq 6 (by decide)
    have h7 := heq 7 (by decide)
    unfold SameStart
    omega
  · intro h
    refine map_congr_left fun i hi => ?_
    have hi : i < 8 := by simpa using hi
    have hpow : 16 ^ (31 - i) = 16 ^ 24 * 16 ^ (7 - i) := by
      rw [← pow_add]
      congr 1
      omega
    rw [hpow, ← Nat.div_div_eq_div_mul, ← Nat.div_div_eq_div_mul, show _ = _ from h]

end Identifiers

namespace MermaidExport
variable {x : MermaidExport} {n : Node} {s : Subnet} {subnetId : Uuid} {line : MermaidLine}
variable {id : Uuid}

theorem id_of_subnet (h : x.subnet subnetId = some s) : s.id = subnetId := by
  have hid := find?_some h
  exact of_decide_eq_true hid

theorem prefixed_ne (t u : String) : "sub_" ++ t ≠ "n_" ++ u := by
  intro h
  have hlist := congrArg String.toList h
  rw [String.toList_append, String.toList_append] at hlist
  exact absurd (cons.inj hlist).1 (by decide)

theorem prefixed_inj {p t u : String} (h : p ++ t = p ++ u) : t = u := by
  have hlist := congrArg String.toList h
  rw [String.toList_append, String.toList_append] at hlist
  exact String.toList_inj.mp (append_cancel_left hlist)

theorem identifier_of_mem (h : id ∈ x.subnetNodeIds) :
    x.identifier id = "sub_" ++ shortId id := by
  unfold identifier
  rw [if_pos h]
  rfl

theorem identifier_of_not_mem (h : id ∉ x.subnetNodeIds) :
    x.identifier id = "n_" ++ shortId id := by
  unfold identifier
  rw [if_neg h]
  rfl

theorem identifier_eq_iff {a b : Uuid} : x.identifier a = x.identifier b ↔
    (a ∈ x.subnetNodeIds ↔ b ∈ x.subnetNodeIds) ∧ SameStart a b := by
  rw [← shortId_eq_iff]
  by_cases ha : a ∈ x.subnetNodeIds
  · by_cases hb : b ∈ x.subnetNodeIds
    · rw [identifier_of_mem ha, identifier_of_mem hb]
      exact ⟨fun h => ⟨iff_of_true ha hb, prefixed_inj h⟩, fun h => congrArg _ h.2⟩
    · rw [identifier_of_mem ha, identifier_of_not_mem hb]
      exact iff_of_false (prefixed_ne _ _) fun h => hb (h.1.mp ha)
  · by_cases hb : b ∈ x.subnetNodeIds
    · rw [identifier_of_not_mem ha, identifier_of_mem hb]
      exact iff_of_false (prefixed_ne _ _).symm fun h => ha (h.1.mpr hb)
    · rw [identifier_of_not_mem ha, identifier_of_not_mem hb]
      exact ⟨fun h => ⟨iff_of_false ha hb, prefixed_inj h⟩, fun h => congrArg _ h.2⟩

theorem nodeLine_spec (h : n.addressSubnet = some subnetId) : ∃ data label,
    n.nodeType = .element data ∧ x.nodeLine n = some (.node ("n_" ++ shortId n.id) label) ∧
      ('"' ∉ label.toList ∧ OneLine label ↔ OneLine (x.hostName data.hostId)) := by
  have hip (ip : Option Uuid) : CharsIn tokenChars (x.ipText ip) := by
    unfold ipText
    cases ip.bind fun id => x.data.ipAddresses.reverse.find? (·.id = id) with
    | none => exact fun c hc => absurd hc List.not_mem_nil
    | some i => exact charsIn_toText _
  unfold Node.addressSubnet at h
  unfold nodeLine
  split at h
  · rename_i data hdata
    split at h
    · rename_i ip _
      simp only [hdata]
      refine ⟨data, _, rfl, rfl, ?_⟩
      have hclosed : CharsIn ('/' :: tokenChars) (x.ipText ip) :=
        fun c hc => List.mem_cons_of_mem _ (hip ip c hc)
      have hbreak : OneLine "<br/>" := ⟨by decide, by decide⟩
      split_ifs
      · rw [oneLine_mermaidEscape, and_iff_right quote_not_mem_mermaidEscape]
      · rw [oneLine_append, oneLine_append, oneLine_mermaidEscape, String.toList_append,
          String.toList_append, List.mem_append, List.mem_append]
        have hquote := hclosed.oneLine.2
        simp [quote_not_mem_mermaidEscape, hclosed.oneLine.1, hbreak, hquote]
    · exact absurd h nofun
  · exact absurd h nofun

theorem mem_subgraphLines : line ∈ x.subgraphLines subnetId ↔ ∃ s, x.subnet subnetId = some s ∧
    (line = .subgraph ("sub_" ++ shortId s.id) (mermaidEscape s.base.name ++ " - " ++ s.base.cidr.toText) ∨
      (∃ n ∈ x.nodes, n.addressSubnet = some subnetId ∧ x.nodeLine n = some line) ∨
        line = .close) := by
  unfold subgraphLines
  cases hs : x.subnet subnetId with
  | none => simp
  | some s =>
    rw [← id_of_subnet hs]
    simp [and_assoc]

theorem mem_lines : line ∈ x.lines ↔ line = .flowchart ∨
    (∃ n ∈ x.nodes, ∃ subnetId, n.addressSubnet = some subnetId ∧ line ∈ x.subgraphLines subnetId) ∨
      ∃ e ∈ x.edges, x.edgeLine e = line := by
  have hvisited (id : Uuid) : id ∈ x.order.visit (x.nodes.filterMap Node.addressSubnet).dedup ↔
      ∃ n ∈ x.nodes, n.addressSubnet = some id := by
    rw [(x.order.visit_perm _).mem_iff, List.mem_dedup, List.mem_filterMap]
  simp only [lines, List.cons_append, List.mem_cons, List.mem_append, List.mem_flatMap, List.mem_map,
    hvisited]
  refine or_congr_right (or_congr_left ⟨?_, ?_⟩)
  · rintro ⟨subnetId, ⟨n, hn, hsubnet⟩, hline⟩
    exact ⟨n, hn, subnetId, hsubnet, hline⟩
  · rintro ⟨n, hn, subnetId, hsubnet, hline⟩
    exact ⟨subnetId, ⟨n, hn, hsubnet⟩, hline⟩

theorem mem_declared {id : String} : id ∈ x.lines.filterMap (·.declares) ↔
    ∃ n ∈ x.nodes, ∃ s, x.Draws n s ∧ (id = "sub_" ++ shortId s.id ∨ id = "n_" ++ shortId n.id) := by
  rw [List.mem_filterMap]
  constructor
  · rintro ⟨line, hline, hdeclares⟩
    rcases mem_lines.mp hline with rfl | ⟨n, hn, subnetId, hsubnet, hline⟩ | ⟨e, -, rfl⟩
    · exact absurd hdeclares nofun
    · obtain ⟨s, hs, rfl | ⟨m, hm, hmsubnet, hmline⟩ | rfl⟩ := mem_subgraphLines.mp hline
      · exact ⟨n, hn, s, ⟨subnetId, hsubnet, hs⟩, .inl (Option.some.inj hdeclares).symm⟩
      · obtain ⟨data, label, -, hnode, -⟩ := nodeLine_spec (x := x) hmsubnet
        obtain rfl := Option.some.inj (hnode.symm.trans hmline)
        exact ⟨m, hm, s, ⟨subnetId, hmsubnet, hs⟩, .inr (Option.some.inj hdeclares).symm⟩
      · exact absurd hdeclares nofun
    · exact absurd hdeclares nofun
  · rintro ⟨n, hn, s, ⟨subnetId, hsubnet, hs⟩, hid⟩
    obtain ⟨data, label, -, hnode, -⟩ := nodeLine_spec (x := x) hsubnet
    rcases hid with rfl | rfl
    · exact ⟨_, mem_lines.mpr (.inr (.inl ⟨n, hn, subnetId, hsubnet,
        mem_subgraphLines.mpr ⟨s, hs, .inl rfl⟩⟩)), rfl⟩
    · exact ⟨_, mem_lines.mpr (.inr (.inl ⟨n, hn, subnetId, hsubnet,
        mem_subgraphLines.mpr ⟨s, hs, .inr (.inl ⟨n, hn, hsubnet, hnode⟩)⟩⟩)), rfl⟩

theorem identifier_mem_declared :
    x.identifier id ∈ x.lines.filterMap (·.declares) ↔ x.IsDrawn id := by
  rw [mem_declared]
  refine exists_congr fun n => and_congr_right fun _ => exists_congr fun s => and_congr_right fun _ => ?_
  by_cases hid : id ∈ x.subnetNodeIds
  · rw [identifier_of_mem hid, if_pos hid, ← shortId_eq_iff, or_iff_left (prefixed_ne _ _)]
    exact ⟨fun h => (prefixed_inj h).symm, fun h => congrArg _ h.symm⟩
  · rw [identifier_of_not_mem hid, if_neg hid, ← shortId_eq_iff, or_iff_right (prefixed_ne _ _).symm]
    exact ⟨fun h => (prefixed_inj h).symm, fun h => congrArg _ h.symm⟩

theorem labelClosed_subgraph {id : String} : (MermaidLine.subgraph id
    (mermaidEscape s.base.name ++ " - " ++ s.base.cidr.toText)).LabelClosed ↔ OneLine s.base.name := by
  have hcidr := (charsIn_cidr s.base.cidr).oneLine
  have hdash : OneLine " - " := ⟨by decide, by decide⟩
  rw [MermaidLine.LabelClosed, oneLine_append, oneLine_append, oneLine_mermaidEscape,
    String.toList_append, String.toList_append, List.mem_append, List.mem_append]
  simp [quote_not_mem_mermaidEscape, hcidr, hdash]

theorem labelClosed_edgeLine {e : Edge} : (x.edgeLine e).LabelClosed ↔
    ∀ l ∈ e.label, '|' ∉ l.toList ∧ OneLine l := by
  cases hlabel : e.label with
  | none => simp [edgeLine, MermaidLine.LabelClosed, hlabel]
  | some l => simp [edgeLine, MermaidLine.LabelClosed, hlabel, bar_mem_mermaidEscape, oneLine_mermaidEscape]

theorem closed_iff : (∀ line ∈ x.lines, line.LabelClosed) ↔
    (∀ n ∈ x.nodes, ∀ s, x.Draws n s → OneLine s.base.name ∧
      ∀ data, n.nodeType = .element data → OneLine (x.hostName data.hostId)) ∧
        ∀ e ∈ x.edges, ∀ l ∈ e.label, '|' ∉ l.toList ∧ OneLine l := by
  constructor
  · intro h
    refine ⟨fun n hn s ⟨subnetId, hsubnet, hs⟩ => ⟨?_, fun data hdata => ?_⟩, fun e he => ?_⟩
    · exact labelClosed_subgraph.mp (h _ (mem_lines.mpr (.inr (.inl ⟨n, hn, subnetId, hsubnet,
        mem_subgraphLines.mpr ⟨s, hs, .inl rfl⟩⟩))))
    · obtain ⟨data', label, hdata', hnode, hclosed⟩ := nodeLine_spec (x := x) hsubnet
      obtain rfl := Graph.NodeType.element.inj (hdata'.symm.trans hdata)
      exact hclosed.mp (h _ (mem_lines.mpr (.inr (.inl ⟨n, hn, subnetId, hsubnet,
        mem_subgraphLines.mpr ⟨s, hs, .inr (.inl ⟨n, hn, hsubnet, hnode⟩)⟩⟩))))
    · exact labelClosed_edgeLine.mp (h _ (mem_lines.mpr (.inr (.inr ⟨e, he, rfl⟩))))
  · rintro ⟨hnames, hlabels⟩ line hline
    rcases mem_lines.mp hline with rfl | ⟨n, hn, subnetId, hsubnet, hline⟩ | ⟨e, he, rfl⟩
    · trivial
    · obtain ⟨s, hs, rfl | ⟨m, hm, hmsubnet, hmline⟩ | rfl⟩ := mem_subgraphLines.mp hline
      · exact labelClosed_subgraph.mpr (hnames n hn s ⟨subnetId, hsubnet, hs⟩).1
      · obtain ⟨data, label, hdata, hnode, hclosed⟩ := nodeLine_spec (x := x) hmsubnet
        obtain rfl := Option.some.inj (hnode.symm.trans hmline)
        exact hclosed.mpr ((hnames m hm s ⟨subnetId, hmsubnet, hs⟩).2 data hdata)
      · trivial
    · exact labelClosed_edgeLine.mpr (hlabels e he)

theorem wellFormed_iff_exportable (x : MermaidExport) : x.WellFormed ↔ x.Exportable := by
  constructor
  · rintro ⟨hdeclared, hdistinct, hclosed⟩
    obtain ⟨hnames, hlabels⟩ := closed_iff.mp hclosed
    refine ⟨fun e he => ?_, fun n hn m hm hne hkind hstart => ?_, hnames, hlabels⟩
    · have hends := hdeclared _ _ _ _ (mem_lines.mpr (.inr (.inr ⟨e, he, rfl⟩)))
      exact ⟨identifier_mem_declared.mp hends.1, identifier_mem_declared.mp hends.2⟩
    · exact hdistinct n hn m hm hne (identifier_eq_iff.mpr ⟨hkind, hstart⟩)
  · rintro ⟨hdrawn, hapart, hnames, hlabels⟩
    refine ⟨fun source arrow label target hline => ?_, fun n hn m hm hne heq => ?_,
      closed_iff.mpr ⟨hnames, hlabels⟩⟩
    · rcases mem_lines.mp hline with h | ⟨n, -, subnetId, -, hline⟩ | ⟨e, he, heq⟩
      · exact absurd h nofun
      · obtain ⟨s, -, h | ⟨m, -, hmsubnet, hmline⟩ | h⟩ := mem_subgraphLines.mp hline
        · exact absurd h nofun
        · obtain ⟨data, l, -, hnode, -⟩ := nodeLine_spec (x := x) hmsubnet
          exact absurd (hnode.symm.trans hmline) nofun
        · exact absurd h nofun
      · obtain ⟨rfl, -, -, rfl⟩ := MermaidLine.edge.inj heq
        obtain ⟨hsource, htarget⟩ := hdrawn e he
        exact ⟨identifier_mem_declared.mpr hsource, identifier_mem_declared.mpr htarget⟩
    · obtain ⟨hkind, hstart⟩ := identifier_eq_iff.mp heq
      exact hapart n hn m hm hne hkind hstart

end MermaidExport

def readWrite : Edge :=
  { source := 0x1000000000000000000000000, target := 0x2000000000000000000000000
    edgeType := .requestPath 30 40 41, label := some "read|write" }

def officeExport : MermaidExport where
  order := ⟨id, fun _ => .refl _⟩
  nodes := [.element readWrite.source 9 20 (.ipAddress 9 none) none,
    .element readWrite.target 10 21 (.ipAddress 10 none) none]
  edges := [readWrite]
  data := {
    hosts := []
    ipAddresses := []
    subnets := [
      ⟨⟨9, 0, 0, none, none, ⟨.v4 ⟨0xC0A80500, 24, Cidr.slash24_le, by decide⟩, 2, "office", none,
        .lan, none, .manual, 0⟩⟩, []⟩,
      ⟨⟨10, 0, 0, none, none, ⟨.v4 ⟨0xC0A80600, 24, Cidr.slash24_le, by decide⟩, 2, "servers", none,
        .lan, none, .manual, 0⟩⟩, []⟩]
    dependencies := []
    ports := []
    bindings := []
    interfaces := []
    services := []
    vlans := []
    tags := []
    availableViews := [] }

theorem not_wellFormed : ¬∀ x : MermaidExport, x.WellFormed := by
  intro h
  have hmem : officeExport.edgeLine readWrite ∈ officeExport.lines :=
    MermaidExport.mem_lines.mpr (.inr (.inr ⟨readWrite, List.mem_singleton_self _, rfl⟩))
  have hclosed := (h officeExport).closed _ hmem
  exact absurd (hclosed (mermaidEscape "read|write") rfl).1 (by decide +kernel)

end Scanopy
