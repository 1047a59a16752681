import Scanopy.Credentials.Mapping

/-! The compact tokens by which a daemon is told where its credentials apply: a credential, and
after an `@` the addresses that it is for. A sole loopback address is the daemon's own host. -/

namespace Scanopy

open List Nat

/-- `Display` of an id: groups of 8, 4, 4, 4 and 12 hexadecimal digits. -/
def uuidText (id : Uuid) : String :=
  let group := fun start len => String.ofList ((List.range' start len).map fun i =>
    Nat.digitChar (id.toNat / 16 ^ (31 - i) % 16))
  "-".intercalate [group 0 8, group 8 4, group 12 4, group 16 4, group 20 12]

def IntegrationTarget.toText : IntegrationTarget → String
  | daemonHost id => uuidText id ++ "@" ++ "127.0.0.1"
  | network id => uuidText id
  | hosts id ips => uuidText id ++ "@" ++ "+".intercalate (ips.map IpAddr.toText)

def SoleLoopback (ips : List IpAddr) : Prop :=
  ips.length = 1 ∧ ips.head?.any IpAddr.isLoopback = true

instance (ips : List IpAddr) : Decidable (SoleLoopback ips) := instDecidableAnd

/-- `FromStr` of ids and of addresses, which other crates implement. -/
structure TokenParsers where
  parseUuid : String → Option Uuid
  parseIp : String → Option IpAddr

/-- `split_once` at a character. -/
def splitOnce (c : Char) (s : String) : Option (String × String) :=
  if c ∈ s.toList then
    some (String.ofList (s.toList.takeWhile fun d => d != c),
      String.ofList (s.toList.dropWhile fun d => d != c).tail)
  else none

/-- `split` at a character. -/
def splitAtChar (c : Char) (s : String) : List String := (s.toList.splitOn c).map String.ofList

namespace TokenParsers
variable (p : TokenParsers)

def parseIpPart (token s : String) : Except String IpAddr :=
  match p.parseIp s with
  | some ip => .ok ip
  | none => .error s!"Invalid IP '{s}' in credential token '{token}'"

def parseCredentialId (value token : String) : Except String Uuid :=
  match p.parseUuid (trim value) with
  | some id => .ok id
  | none => .error
      s!"Invalid credential token '{token}' (expected '<uuid>' or '<uuid>@<ip>[+<ip>]')"

def parseIntegrationTargetToken (token : String) : Except String IntegrationTarget :=
  match splitOnce '@' token with
  | some (uuidPart, ipList) =>
    (((splitAtChar '+' ipList).map trim).filter (· ≠ "")).mapM (p.parseIpPart token) >>= fun ips =>
      if ips = [] then .error
        s!"Credential token '{token}' has '@' but no IPs (use '<uuid>@<ip>[+<ip>]')"
      else p.parseCredentialId uuidPart token >>= fun id =>
        if SoleLoopback ips then .ok (.daemonHost id) else .ok (.hosts id ips)
  | none => p.parseCredentialId token token >>= fun id => .ok (.network id)

def parseIntegrationTargetTokens (tokens : List String) : Except String (List IntegrationTarget) :=
  ((tokens.map trim).filter (· ≠ "")).mapM p.parseIntegrationTargetToken

end TokenParsers

def tokenChars : List Char := "0123456789abcdef-.:".toList

def CharsIn (chars : List Char) (s : String) : Prop := ∀ c ∈ s.toList, c ∈ chars

instance (chars : List Char) (s : String) : Decidable (CharsIn chars s) := List.decidableBAll _ _

variable {c : Char} {s t : String} {n : ℕ}

theorem digitChar_mem_tokenChars (h : n < 16) : Nat.digitChar n ∈ tokenChars := by
  have hall : ∀ n < 16, Nat.digitChar n ∈ tokenChars := by decide
  exact hall n h

theorem mem_tokenChars_of_mem_toDigits {b : ℕ} (hb : 1 < b) (hb' : b ≤ 16)
    (hc : c ∈ Nat.toDigits b n) : c ∈ tokenChars := by
  induction n using Nat.strongRecOn with
  | ind n ih =>
    rw [toDigits_eq_if hb] at hc
    split_ifs at hc with hlt
    · rw [mem_singleton.mp hc]
      exact digitChar_mem_tokenChars (by omega)
    · rcases mem_append.mp hc with hc | hc
      · exact ih (n / b) (Nat.div_lt_self (by omega) hb) hc
      · rw [mem_singleton.mp hc]
        exact digitChar_mem_tokenChars ((mod_lt n (by omega)).trans_le hb')

section CharsIn
variable {chars : List Char}
variable {s : String}

theorem CharsIn.append {s' : String} (h : CharsIn chars s) (h' : CharsIn chars s') :
    CharsIn chars (s ++ s') := by
  intro c hc
  rw [String.toList_append] at hc
  exact (mem_append.mp hc).elim (h c) (h' c)

theorem CharsIn.intercalate {l : List String} (h : CharsIn chars s)
    (hl : ∀ t ∈ l, CharsIn chars t) : CharsIn chars (s.intercalate l) := by
  induction l with
  | nil =>
    rw [String.intercalate_nil]
    exact fun c hc => absurd hc not_mem_nil
  | cons t l ih =>
    obtain ⟨ht, hl⟩ := forall_mem_cons.mp hl
    cases l with
    | nil => rwa [String.intercalate_singleton]
    | cons u l =>
      rw [String.intercalate_cons_cons]
      exact (ht.append h).append (ih hl)

theorem CharsIn.not_mem (h : CharsIn chars s) {c : Char} (hc : c ∉ chars) :
    c ∉ s.toList := fun hmem => hc (h c hmem)

theorem CharsIn.trim_eq (h : CharsIn chars s)
    (hchars : ∀ c ∈ chars, isWhitespace c = false) : trim s = s :=
  trim_eq_self fun c hc => hchars c (h c hc)

end CharsIn

theorem isWhitespace_of_mem : ∀ c ∈ '@' :: '+' :: tokenChars, isWhitespace c = false := by
  have hall : ('@' :: '+' :: tokenChars).all (fun c => !isWhitespace c) = true := by decide
  intro c hc
  exact (Bool.not_eq_true' _).mp (all_eq_true.mp hall c hc)

theorem isWhitespace_of_mem_tokenChars (c : Char) (hc : c ∈ tokenChars) : isWhitespace c = false :=
  isWhitespace_of_mem c (mem_cons_of_mem _ (mem_cons_of_mem _ hc))

theorem charsIn_uuidText (id : Uuid) : CharsIn tokenChars (uuidText id) := by
  have hgroup : ∀ start len : ℕ, CharsIn tokenChars (String.ofList ((List.range' start len).map fun i =>
      Nat.digitChar (id.toNat / 16 ^ (31 - i) % 16))) := by
    intro start len c hc
    rw [String.toList_ofList] at hc
    obtain ⟨i, -, rfl⟩ := mem_map.mp hc
    exact digitChar_mem_tokenChars (mod_lt _ (by decide))
  have hsep : CharsIn tokenChars "-" := by decide
  rw [uuidText]
  refine hsep.intercalate ?_
  simp only [forall_mem_cons]
  exact ⟨hgroup 0 8, hgroup 8 4, hgroup 12 4, hgroup 16 4, hgroup 20 12,
    fun t ht => absurd ht not_mem_nil⟩

theorem charsIn_ipv4ToString (bits : BitVec 32) : CharsIn tokenChars (ipv4ToString bits) := by
  refine CharsIn.intercalate (by decide) fun t ht => ?_
  obtain ⟨i, -, rfl⟩ := mem_map.mp ht
  intro c hc
  rw [toString_eq_ofList_toDigits, String.toList_ofList] at hc
  exact mem_tokenChars_of_mem_toDigits (by decide) (by decide) hc

theorem charsIn_hex (l : List ℕ) :
    CharsIn tokenChars (":".intercalate (l.map fun n => String.ofList (Nat.toDigits 16 n))) := by
  refine CharsIn.intercalate (by decide) fun t ht => ?_
  obtain ⟨n, -, rfl⟩ := mem_map.mp ht
  intro c hc
  rw [String.toList_ofList] at hc
  exact mem_tokenChars_of_mem_toDigits (by decide) (by decide) hc

theorem charsIn_toText (ip : IpAddr) : CharsIn tokenChars ip.toText := by
  cases ip with
  | v4 bits => exact charsIn_ipv4ToString bits
  | v6 bits =>
    unfold IpAddr.toText
    dsimp only
    split_ifs
    · exact CharsIn.append (by decide) (charsIn_ipv4ToString _)
    · exact ((charsIn_hex _).append (by decide)).append (charsIn_hex _)
    · exact charsIn_hex _

theorem append_ne_empty (ht : t ≠ "") (s u : String) : s ++ t ++ u ≠ "" := by
  intro h
  have hnil : (s ++ t ++ u).toList = [] := by
    rw [h]
    rfl
  rw [String.toList_append, String.toList_append, append_eq_nil_iff, append_eq_nil_iff] at hnil
  exact ht (String.toList_inj.mp hnil.1.2)

theorem intercalate_ne_empty {u : String} (hs : s ≠ "") (l : List String) :
    s.intercalate (t :: u :: l) ≠ "" := by
  rw [String.intercalate_cons_cons]
  exact append_ne_empty hs _ _

theorem toText_ne_empty (ip : IpAddr) : ip.toText ≠ "" := by
  cases ip with
  | v4 bits => exact intercalate_ne_empty (by decide) _
  | v6 bits =>
    unfold IpAddr.toText
    dsimp only
    split_ifs
    · have hmapped := append_ne_empty (t := "::ffff:") (by decide) ""
        (ipv4ToString (BitVec.ofNat 32 bits.toNat))
      rwa [String.empty_append] at hmapped
    · exact append_ne_empty (by decide) _ _
    · exact intercalate_ne_empty (by decide) _

theorem splitOnce_append (hs : c ∉ s.toList) (t : String) :
    splitOnce c (s ++ String.singleton c ++ t) = some (s, t) := by
  have hall : ∀ d ∈ s.toList, (d != c) = true := fun d hd =>
    bne_iff_ne.mpr fun heq => hs (heq ▸ hd)
  have hlist : (s ++ String.singleton c ++ t).toList = s.toList ++ c :: t.toList := by
    rw [String.toList_append, String.toList_append, String.toList_singleton]
    simp
  have hmem : c ∈ s.toList ++ c :: t.toList := mem_append_right _ mem_cons_self
  unfold splitOnce
  rw [hlist, if_pos hmem, takeWhile_append_of_pos hall, dropWhile_append_of_pos hall,
    takeWhile_cons_of_neg (by simp), dropWhile_cons_of_neg (by simp), append_nil,
    tail_cons, String.ofList_toList, String.ofList_toList]

theorem splitOnce_eq_none (hs : c ∉ s.toList) : splitOnce c s = none := if_neg hs

theorem splitAtChar_intercalate {l : List String} (hl : l ≠ [])
    (hc : ∀ s ∈ l, c ∉ s.toList) :
    splitAtChar c ((String.singleton c).intercalate l) = l := by
  unfold splitAtChar
  rw [String.toList_intercalate, String.toList_singleton, splitOn_intercalate c ?_ ?_, map_map]
  · exact (map_congr_left fun s _ => String.ofList_toList).trans (map_id l)
  · intro cs hcs
    obtain ⟨s, hs, rfl⟩ := mem_map.mp hcs
    exact hc s hs
  · exact fun h => hl (map_eq_nil_iff.mp h)

def IntegrationTarget.HasToken : IntegrationTarget → Prop
  | daemonHost _ | network _ => True
  | hosts _ ips => ips ≠ [] ∧ ¬ SoleLoopback ips

namespace TokenParsers

/-- The parsers read what `Display` writes for the parts of the target. -/
def Reads (p : TokenParsers) (t : IntegrationTarget) : Prop :=
  p.parseUuid (uuidText t.credentialId) = some t.credentialId ∧
    ∀ ip ∈ t.ips, p.parseIp ip.toText = some ip

variable {p : TokenParsers} {t : IntegrationTarget} {id : Uuid} {ips : List IpAddr}

theorem parseCredentialId_uuidText (h : p.parseUuid (uuidText id) = some id) (token : String) :
    p.parseCredentialId (uuidText id) token = .ok id := by
  unfold parseCredentialId
  rw [(charsIn_uuidText id).trim_eq isWhitespace_of_mem_tokenChars, h]

theorem mapM_parseIpPart (h : ∀ ip ∈ ips, p.parseIp ip.toText = some ip) (token : String) :
    (ips.map IpAddr.toText).mapM (p.parseIpPart token) = .ok ips := by
  induction ips with
  | nil => rfl
  | cons ip ips ih =>
    obtain ⟨hip, hips⟩ := forall_mem_cons.mp h
    rw [map_cons, mapM_cons, ih hips, parseIpPart, hip]
    rfl

theorem parse_addresses (hid : p.parseUuid (uuidText id) = some id)
    (hips : ∀ ip ∈ ips, p.parseIp ip.toText = some ip) (hne : ips ≠ []) :
    p.parseIntegrationTargetToken
        (uuidText id ++ "@" ++ "+".intercalate (ips.map IpAddr.toText)) =
      .ok (if SoleLoopback ips then .daemonHost id else .hosts id ips) := by
  have hat : '@' ∉ (uuidText id).toList := (charsIn_uuidText id).not_mem (by decide)
  have hparts : splitAtChar '+' ("+".intercalate (ips.map IpAddr.toText)) =
      ips.map IpAddr.toText := by
    refine splitAtChar_intercalate (fun h => hne (map_eq_nil_iff.mp h)) fun s hs => ?_
    obtain ⟨ip, -, rfl⟩ := mem_map.mp hs
    exact (charsIn_toText ip).not_mem (by decide)
  have htrimmed : ((ips.map IpAddr.toText).map trim).filter (· ≠ "") = ips.map IpAddr.toText := by
    have htrim : (ips.map IpAddr.toText).map trim = ips.map IpAddr.toText := by
      rw [map_map]
      exact map_congr_left fun ip _ => (charsIn_toText ip).trim_eq isWhitespace_of_mem_tokenChars
    rw [htrim]
    refine filter_eq_self.mpr fun s hs => ?_
    obtain ⟨ip, -, rfl⟩ := mem_map.mp hs
    exact decide_eq_true (toText_ne_empty ip)
  unfold parseIntegrationTargetToken
  rw [show "@" = String.singleton '@' from rfl, splitOnce_append hat]
  dsimp only
  rw [hparts, htrimmed, mapM_parseIpPart hips]
  show (if ips = [] then _ else _) = _
  rw [if_neg hne, parseCredentialId_uuidText hid]
  show (if SoleLoopback ips then _ else _) = _
  split_ifs
  · rfl
  · rfl

theorem parse_network (hid : p.parseUuid (uuidText id) = some id) :
    p.parseIntegrationTargetToken (uuidText id) = .ok (.network id) := by
  have hat : '@' ∉ (uuidText id).toList := (charsIn_uuidText id).not_mem (by decide)
  unfold parseIntegrationTargetToken
  rw [splitOnce_eq_none hat]
  dsimp only
  rw [parseCredentialId_uuidText hid]
  rfl

theorem localhost_toText : "+".intercalate ([localhost].map IpAddr.toText) = "127.0.0.1" := by
  decide

theorem soleLoopback_localhost : SoleLoopback [localhost] := by decide

theorem bind_eq_ok {A B : Type} {x : Except String A} {f : A → Except String B} {b : B} :
    x >>= f = .ok b ↔ ∃ a, x = .ok a ∧ f a = .ok b := by
  cases x with
  | error e => exact ⟨fun h => (nomatch h), fun ⟨a, h, _⟩ => (nomatch h)⟩
  | ok a => exact ⟨fun h => ⟨a, rfl, h⟩, fun ⟨a', h, hb⟩ => Except.ok.inj h ▸ hb⟩

theorem hasToken_of_parse {token : String} (h : p.parseIntegrationTargetToken token = .ok t) :
    t.HasToken := by
  unfold parseIntegrationTargetToken at h
  split at h
  · obtain ⟨ips, -, h⟩ := bind_eq_ok.mp h
    by_cases hnil : ips = []
    · rw [if_pos hnil] at h
      cases h
    rw [if_neg hnil] at h
    obtain ⟨id, -, h⟩ := bind_eq_ok.mp h
    by_cases hsole : SoleLoopback ips
    · rw [if_pos hsole] at h
      cases h
      exact trivial
    · rw [if_neg hsole] at h
      cases h
      exact ⟨hnil, hsole⟩
  · obtain ⟨id, -, h⟩ := bind_eq_ok.mp h
    cases h
    exact trivial

theorem parse_toText (h : p.Reads t) (htoken : t.HasToken) :
    p.parseIntegrationTargetToken t.toText = .ok t := by
  obtain ⟨hid, hips⟩ := h
  cases t with
  | daemonHost id =>
    have hparse : p.parseIntegrationTargetToken
        (uuidText id ++ "@" ++ "+".intercalate ([localhost].map IpAddr.toText)) =
        .ok (if SoleLoopback [localhost] then .daemonHost id else .hosts id [localhost]) :=
      parse_addresses hid hips (cons_ne_nil _ _)
    rw [localhost_toText, if_pos soleLoopback_localhost] at hparse
    rw [IntegrationTarget.toText]
    exact hparse
  | network id =>
    rw [IntegrationTarget.toText]
    exact parse_network hid
  | hosts id ips =>
    have hparse : p.parseIntegrationTargetToken
        (uuidText id ++ "@" ++ "+".intercalate (ips.map IpAddr.toText)) =
        .ok (if SoleLoopback ips then .daemonHost id else .hosts id ips) :=
      parse_addresses hid hips htoken.1
    rw [if_neg htoken.2] at hparse
    rw [IntegrationTarget.toText]
    exact hparse

/-- A target is read back from its token if it has one of its own, and what any token stands for
is read back from the token of that. -/
theorem integrationTarget_roundTrip (h : p.Reads t) :
    (t.HasToken → p.parseIntegrationTargetToken t.toText = .ok t) ∧
      ∀ token, p.parseIntegrationTargetToken token = .ok t →
        p.parseIntegrationTargetToken t.toText = .ok t :=
  ⟨parse_toText h, fun _ htoken => parse_toText h (hasToken_of_parse htoken)⟩

def knowing (id : Uuid) (ips : List IpAddr) : TokenParsers where
  parseUuid s := if s = uuidText id then some id else none
  parseIp s := ips.find? fun ip => ip.toText = s

theorem parseUuid_knowing (id : Uuid) (ips : List IpAddr) :
    (knowing id ips).parseUuid (uuidText id) = some id := by
  unfold knowing
  dsimp only
  rw [if_pos rfl]

def switchAddresses : List IpAddr :=
  [.v4 0x0A000002, .v4 0x0A000102, .v6 0xFE800000000000000000000000000002]

theorem reads_switchAddresses :
    (knowing 5 switchAddresses).Reads (.hosts 5 switchAddresses) :=
  ⟨parseUuid_knowing 5 switchAddresses, by decide⟩

theorem reads_no_addresses (id : Uuid) : (knowing id []).Reads (.hosts id []) :=
  ⟨parseUuid_knowing id [], fun _ hip => absurd hip not_mem_nil⟩

/-- A credential for three addresses of a switch. -/
theorem hosts_roundTrip :
    (knowing 5 switchAddresses).parseIntegrationTargetToken
        (IntegrationTarget.hosts 5 switchAddresses).toText = .ok (.hosts 5 switchAddresses) :=
  (integrationTarget_roundTrip reads_switchAddresses).1 ⟨by decide, by decide⟩

/-- The other targets do not round-trip: a list of no addresses is not accepted. -/
theorem not_roundTrip_of_no_addresses :
    ¬ ∀ (p : TokenParsers) (t : IntegrationTarget), p.Reads t →
      p.parseIntegrationTargetToken t.toText = .ok t := by
  intro h
  have hparse := h (knowing 5 []) (.hosts 5 []) (reads_no_addresses 5)
  exact (hasToken_of_parse hparse).1 rfl

end TokenParsers
end Scanopy
