import Scanopy.Snapshots.Clone

/-! Which stored host a submission is about. A payload with a physical identity is matched by its
addresses, ids and unshared MACs; one that is only a floating address by that address, and never
with a host that has a MAC of its own. -/

namespace Scanopy

open List Option Bool

/-- The prefixes of VRRP for IPv4 and IPv6, and of both versions of HSRP. -/
def isVirtualRouterMac (mac : MacAddress) : Bool :=
  mac.toNat / 2 ^ 8 == 0x00005E0001 || mac.toNat / 2 ^ 8 == 0x00005E0002 ||
    mac.toNat / 2 ^ 8 == 0x00000C07AC || mac.toNat / 2 ^ 12 == 0x00000C9FF

def hasVirtualRouterMac (ip : IPAddress) : Bool := ip.base.macAddress.any isVirtualRouterMac

def hasRealMac (ip : IPAddress) : Bool := ip.base.macAddress.any (!isVirtualRouterMac ·)

def shouldSkipForMatching (ip : IPAddress) : Bool :=
  ip.base.ipAddress.isLoopback || hasVirtualRouterMac ip

def macCount (payload : List IPAddress) (mac : MacAddress) : ℕ :=
  payload.countP fun i => i.base.macAddress = some mac

def ipAddressesShareAddress (a b : IPAddress) : Bool :=
  a.base.ipAddress = b.base.ipAddress && a.base.subnetId = b.base.subnetId

def ipAddressesMatch (payload : List IPAddress) (incoming existing : IPAddress) : Bool :=
  ipAddressesShareAddress incoming existing ||
    (incoming.id = existing.id && incoming.id ≠ Uuid.nil && existing.id ≠ Uuid.nil) ||
    (incoming.base.macAddress.isSome && incoming.base.macAddress = existing.base.macAddress &&
      incoming.base.macAddress.any (macCount payload · = 1))

/-- The host that the payload identifies, among `candidates` from the oldest to the newest. -/
def selectMatchingHost (incoming : List IPAddress) (candidates : List (Uuid × List IPAddress)) :
    Option Uuid :=
  let physical := incoming.filter (!shouldSkipForMatching ·)
  if physical.isEmpty then
    let virtual := incoming.filter fun i => !i.base.ipAddress.isLoopback && hasVirtualRouterMac i
    (candidates.reverse.find? fun (_, rows) =>
      !rows.any (fun ip => !ip.base.ipAddress.isLoopback && hasRealMac ip) &&
        virtual.any fun i => rows.any fun e =>
          !e.base.ipAddress.isLoopback && ipAddressesShareAddress i e).map (·.1)
  else
    (candidates.find? fun (_, rows) => physical.any fun i => rows.any fun e =>
      !shouldSkipForMatching e && ipAddressesMatch physical i e).map (·.1)

/-- `find_matching_host_by_ip_addresses`, on the live rows. -/
def findMatchingHost (hosts : RowTable HostBase) (ipAddresses : RowTable IPAddressBase)
    (networkId : Uuid) (incoming : List IPAddress) : Option Host :=
  let live := (hosts.rows.filter fun h => h.isLive && h.base.networkId = networkId).map (·.toRow)
  let sorted := live.insertionSort fun a b =>
    a.createdAt < b.createdAt ∨ a.createdAt = b.createdAt ∧ BitVec.toNat a.id ≤ BitVec.toNat b.id
  let candidates := sorted.map fun h =>
    (h.id, (ipAddresses.rows.filter fun i => i.isLive && i.base.hostId = h.id).map (·.toRow))
  (selectMatchingHost incoming candidates).bind fun id => sorted.find? (·.id = id)

def physicalRows (incoming : List IPAddress) : List IPAddress :=
  incoming.filter (!shouldSkipForMatching ·)

def RowsMatch (incoming : List IPAddress) (i e : IPAddress) : Prop :=
  ipAddressesMatch (physicalRows incoming) i e = true

def IsPhysical (rows : List IPAddress) : Prop :=
  ∃ e ∈ rows, e.base.ipAddress.isLoopback = false ∧ hasRealMac e = true

/-- A row that counts for the physical pass is one of the payload, and one of the host. -/
structure SharedRow (incoming rows : List IPAddress) (i e : IPAddress) : Prop where
  mem_incoming : i ∈ incoming
  mem_rows : e ∈ rows
  incomingKept : shouldSkipForMatching i = false
  existingKept : shouldSkipForMatching e = false
  same : RowsMatch incoming i e

structure SharedVip (incoming rows : List IPAddress) (i e : IPAddress) : Prop where
  mem_incoming : i ∈ incoming
  mem_rows : e ∈ rows
  virtual : hasVirtualRouterMac i = true
  notLoopback : e.base.ipAddress.isLoopback = false
  same : ipAddressesShareAddress i e = true

instance (incoming : List IPAddress) (i e : IPAddress) : Decidable (RowsMatch incoming i e) :=
  inferInstanceAs (Decidable (_ = true))

section Select
variable {incoming incoming' rows : List IPAddress} {candidates : List (Uuid × List IPAddress)}
  {hostId : Uuid} {i : IPAddress}

theorem shouldSkipForMatching_of_hasRealMac (hloopback : i.base.ipAddress.isLoopback = false)
    (hreal : hasRealMac i = true) : shouldSkipForMatching i = false := by
  unfold hasRealMac at hreal
  unfold shouldSkipForMatching hasVirtualRouterMac
  rw [hloopback, Bool.false_or]
  cases hmac : i.base.macAddress with
  | none => rfl
  | some mac => simpa [hmac] using hreal

theorem physicalRows_isEmpty : (physicalRows incoming).isEmpty = true ↔
    ∀ i ∈ incoming, shouldSkipForMatching i = true := by
  simp [physicalRows]

/-- What a match rests on: rows of both that count for the physical pass, or a shared address between
a payload and a host that have no such rows. -/
theorem selectMatchingHost_cases (h : selectMatchingHost incoming candidates = some hostId) :
    ∃ rows, (hostId, rows) ∈ candidates ∧ ((∃ i e, SharedRow incoming rows i e) ∨
      (∀ i ∈ incoming, shouldSkipForMatching i = true) ∧ ¬IsPhysical rows ∧
        ∃ i e, SharedVip incoming rows i e) := by
  unfold selectMatchingHost at h
  dsimp only at h
  split at h
  · rename_i hempty
    obtain ⟨⟨id, rows⟩, hfind, rfl⟩ := map_eq_some_iff.mp h
    have hmem := mem_reverse.mp (mem_of_find?_eq_some hfind)
    have hmatch := find?_some hfind
    simp only [and_eq_true, not_eq_true', List.any_eq_true, List.any_eq_false, mem_filter] at hmatch
    obtain ⟨hvirtual, i, ⟨hi, -, hmac⟩, e, he, hloopback, hsame⟩ := hmatch
    refine ⟨rows, hmem, .inr ⟨physicalRows_isEmpty.mp hempty, ?_, i, e, hi, he, hmac, hloopback, hsame⟩⟩
    rintro ⟨r, hr, hrow⟩
    exact hvirtual r hr (by simpa using hrow)
  · obtain ⟨⟨id, rows⟩, hfind, rfl⟩ := map_eq_some_iff.mp h
    have hmem := mem_of_find?_eq_some hfind
    have hmatch := find?_some hfind
    simp only [and_eq_true, not_eq_true', List.any_eq_true, mem_filter] at hmatch
    obtain ⟨i, ⟨hi, hikept⟩, e, he, hekept, hsame⟩ := hmatch
    exact ⟨rows, hmem, .inl ⟨i, e, hi, he, hikept, hekept, hsame⟩⟩

theorem exists_sharedRow (h : selectMatchingHost incoming candidates = some hostId)
    (hphysical : IsPhysical incoming) :
    ∃ rows, (hostId, rows) ∈ candidates ∧ ∃ i e, SharedRow incoming rows i e := by
  obtain ⟨r, hr, hloopback, hreal⟩ := hphysical
  obtain ⟨rows, hrows, hshared | ⟨hskip, -, -⟩⟩ := selectMatchingHost_cases h
  · exact ⟨rows, hrows, hshared⟩
  · have hkept := shouldSkipForMatching_of_hasRealMac hloopback hreal
    exact absurd (hkept.symm.trans (hskip r hr)) Bool.false_ne_true

theorem macCount_perm (h : incoming.Perm incoming') (mac : MacAddress) :
    macCount incoming mac = macCount incoming' mac := h.countP_eq _

theorem ipAddressesMatch_perm (h : incoming.Perm incoming') :
    ipAddressesMatch incoming = ipAddressesMatch incoming' := by
  funext i e
  unfold ipAddressesMatch
  simp only [macCount_perm h]

theorem any_perm {p : IPAddress → Bool} (h : incoming.Perm incoming') :
    incoming.any p = incoming'.any p := by
  rw [Bool.eq_iff_iff, List.any_eq_true, List.any_eq_true]
  exact exists_congr fun i => and_congr_left' h.mem_iff

theorem selectMatchingHost_of_perm (h : incoming.Perm incoming') :
    selectMatchingHost incoming candidates = selectMatchingHost incoming' candidates := by
  have hphysical := h.filter (!shouldSkipForMatching ·)
  have hvirtual := h.filter fun i => !i.base.ipAddress.isLoopback && hasVirtualRouterMac i
  unfold selectMatchingHost
  simp only [any_perm hphysical, any_perm hvirtual, ipAddressesMatch_perm hphysical]
  have hempty : (incoming.filter (!shouldSkipForMatching ·)).isEmpty =
      (incoming'.filter (!shouldSkipForMatching ·)).isEmpty := by
    rw [Bool.eq_iff_iff, List.isEmpty_iff, List.isEmpty_iff]
    constructor
    · intro hnil
      rw [hnil] at hphysical
      exact nil_perm.mp hphysical
    · intro hnil
      rw [hnil] at hphysical
      exact perm_nil.mp hphysical
  rw [hempty]

/-- A payload with a MAC of its own is matched by rows that count for the physical pass. Hosts that
share no such rows are matched only if the payload has none at all and the host has no MAC of its
own. The order of the payload does not matter. -/
theorem selectMatchingHost_identity (incoming : List IPAddress)
    (candidates : List (Uuid × List IPAddress)) :
    (∀ hostId, selectMatchingHost incoming candidates = some hostId → IsPhysical incoming →
      ∃ rows, (hostId, rows) ∈ candidates ∧ ∃ i e, SharedRow incoming rows i e) ∧
    (∀ hostId, (∀ rows, (hostId, rows) ∈ candidates →
        (∀ i ∈ incoming, ∀ e ∈ rows, RowsMatch incoming i e →
          shouldSkipForMatching i = true ∨ shouldSkipForMatching e = true) ∧
        ((∃ i ∈ incoming, shouldSkipForMatching i = false) ∨ IsPhysical rows)) →
      selectMatchingHost incoming candidates ≠ some hostId) ∧
    ∀ incoming', incoming.Perm incoming' →
      selectMatchingHost incoming candidates = selectMatchingHost incoming' candidates := by
  refine ⟨fun hostId h => exists_sharedRow h, ?_, fun incoming' h => selectMatchingHost_of_perm h⟩
  · intro hostId hcommon h
    obtain ⟨rows, hrows, ⟨i, e, hshared⟩ | ⟨hskip, hvirtual, -⟩⟩ := selectMatchingHost_cases h
    · rcases (hcommon rows hrows).1 i hshared.mem_incoming e hshared.mem_rows hshared.same with
        hi | he
      · exact absurd (hshared.incomingKept.symm.trans hi) Bool.false_ne_true
      · exact absurd (hshared.existingKept.symm.trans he) Bool.false_ne_true
    · rcases (hcommon rows hrows).2 with ⟨i, hi, hkept⟩ | hphysical
      · exact absurd (hkept.symm.trans (hskip i hi)) Bool.false_ne_true
      · exact hvirtual hphysical

private def routerRow (address : BitVec 32) (mac : MacAddress) : IPAddress :=
  ⟨5, 0, 0, none, none, ⟨9, 10, 8, .v4 address, some mac, none, 0, 0⟩⟩

private def vrrpMac : MacAddress := 0x00005E00010A#48

/-- Two routers that have an address of their own each and share that of the virtual one. -/
theorem selectMatchingHost_identity_peers :
    selectMatchingHost [routerRow 0xC0A80103#32 0xAABBCC000002#48, routerRow 0xC0A80101#32 vrrpMac]
      [(1, [{ routerRow 0xC0A80102#32 0xAABBCC000001#48 with id := 6 },
        routerRow 0xC0A80101#32 vrrpMac])] ≠ some 1 := by
  refine (selectMatchingHost_identity _ _).2.1 1 fun rows hrows => ?_
  obtain ⟨-, rfl⟩ := Prod.mk.inj (mem_singleton.mp hrows)
  exact ⟨by decide, .inl ⟨routerRow 0xC0A80103#32 0xAABBCC000002#48, by decide, by decide⟩⟩

/-- The address of a virtual router that is seen on its own finds its own host again, although all
that the two share is a row with the MAC of the virtual router. -/
theorem selectMatchingHost_vip_only : ¬∀ (incoming : List IPAddress)
    (candidates : List (Uuid × List IPAddress)) (hostId : Uuid),
    (∀ rows, (hostId, rows) ∈ candidates → ∀ i ∈ incoming, ∀ e ∈ rows, RowsMatch incoming i e →
      hasVirtualRouterMac i = true ∧ hasVirtualRouterMac e = true) →
        selectMatchingHost incoming candidates ≠ some hostId := by
  intro h
  have hvip := h [routerRow 0xC0A80101#32 vrrpMac] [(1, [routerRow 0xC0A80101#32 vrrpMac])] 1
  refine hvip ?_ (by decide)
  intro rows hrows i hi e he _
  obtain ⟨-, rfl⟩ := Prod.mk.inj (mem_singleton.mp hrows)
  rw [mem_singleton.mp hi, mem_singleton.mp he]
  decide

end Select
end Scanopy
