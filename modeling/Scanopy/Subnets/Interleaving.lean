import Scanopy.Lib.Lts
import Scanopy.Snapshots.TableEffects
import Scanopy.Subnets.Service

/-! Creations of subnets that overlap. A call reads the live subnets of its network and decides
whether to refresh one of them or to insert its own; when it writes, others may have written. -/

namespace Scanopy

open List Option Bool

/-- The decision of a call. -/
inductive SubnetPlan
  | refresh (row : Subnet)
  | insert (row : Subnet)
  deriving DecidableEq

def SubnetPlan.row : SubnetPlan → Subnet
  | refresh row | insert row => row

def SubnetPlan.inserted : SubnetPlan → Option Subnet
  | refresh _ => none
  | insert row => some row

def preparedSubnet (newId : Uuid) (now : Timestamp) (subnet : Subnet) : Subnet :=
  if subnet.id = Uuid.nil then
    ⟨newId, now, now, none, none, { subnet.base with lastSeenAt := now }⟩ else subnet

/-- `SubnetService::create` up to its write. -/
def planSubnet (newId : Uuid) (now : Timestamp) (subnets : RowTable SubnetBase) (subnet : Subnet) :
    SubnetPlan :=
  let live := subnets.rows.filter fun s => s.isLive && s.base.networkId = subnet.base.networkId
  let subnet := preparedSubnet newId now subnet
  match live.find? (subnet.isDuplicateOf ·.toRow) with
  | some existing =>
    let subnetType := if subnet.correctsContainerBridgeGuess existing.toRow then
      subnet.base.subnetType else existing.base.subnetType
    .refresh { existing.toRow with
      base := { existing.base with lastSeenAt := subnet.base.lastSeenAt, subnetType } }
  | none => .insert { subnet with
      createdAt := subnet.base.lastSeenAt, validFrom := subnet.base.lastSeenAt }

def writeSubnet (subnets : RowTable SubnetBase) : SubnetPlan → Option (RowTable SubnetBase)
  | .refresh row => some (subnets.update [row])
  | .insert row => subnets.insertMany [⟨row, none⟩]

/-- A call that nothing comes between is the call as a whole. -/
theorem createSubnet_eq (newId : Uuid) (now : Timestamp) (subnets : RowTable SubnetBase)
    (subnet : Subnet) : createSubnet newId now subnets subnet =
      (writeSubnet subnets (planSubnet newId now subnets subnet)).map
        (·, (planSubnet newId now subnets subnet).row) := by
  cases hfind : (subnets.rows.filter fun s => s.isLive && s.base.networkId =
      subnet.base.networkId).find? ((preparedSubnet newId now subnet).isDuplicateOf ·.toRow) with
  | some existing =>
    simp only [planSubnet, hfind, writeSubnet, SubnetPlan.row, map_some]
    simp only [preparedSubnet] at hfind ⊢
    simp only [createSubnet, hfind]
  | none =>
    simp only [planSubnet, hfind, writeSubnet, SubnetPlan.row]
    simp only [preparedSubnet] at hfind ⊢
    simp only [createSubnet, hfind]

/-- A call that has read and not yet written, and the address range it was asked for. -/
structure PendingSubnet where
  cidr : IpCidr
  plan : SubnetPlan

structure SubnetSystem where
  subnets : RowTable SubnetBase
  calls : List (ℕ × PendingSubnet) := []

inductive SubnetStep
  | read (call : ℕ) (newId : Uuid) (now : Timestamp) (subnet : Subnet)
  | write (call : ℕ)

namespace SubnetSystem
variable (s : SubnetSystem)

def pending (call : ℕ) : Option PendingSubnet := (s.calls.find? (·.1 = call)).map Prod.snd

def step : SubnetStep → Option SubnetSystem
  | .read call newId now subnet =>
    if (s.pending call).isSome then none
    else some { s with
      calls := (call, ⟨subnet.base.cidr, planSubnet newId now s.subnets subnet⟩) :: s.calls }
  | .write call => (s.pending call).map fun p =>
    { subnets := (writeSubnet s.subnets p.plan).getD s.subnets
      calls := s.calls.filter (·.1 ≠ call) }

def returned : SubnetStep → Option (IpCidr × Subnet)
  | .read .. => none
  | .write call => (s.pending call).bind fun p =>
    (writeSubnet s.subnets p.plan).map fun _ => (p.cidr, p.plan.row)

end SubnetSystem

def subnetLts (subnets : RowTable SubnetBase) : Lts SubnetSystem SubnetStep :=
  ⟨{ subnets }, SubnetSystem.step⟩

namespace SubnetSystem

def NoDuplicates (s : SubnetSystem) : Prop :=
  ∀ r ∈ s.subnets, ∀ r' ∈ s.subnets, r.isLive = true → r'.isLive = true → r.id ≠ r'.id →
    r.base.cidr = r'.base.cidr → Subnet.isDuplicateOf r.toRow r'.toRow = false

def ReturnsRequested (s : SubnetSystem) (l : SubnetStep) : Prop :=
  ∀ s' cidr row, s.step l = some s' → s.returned l = some (cidr, row) →
    row.base.cidr = cidr ∧ ∃ r ∈ s'.subnets, r.toRow = row ∧ r.isLive = true

def InTurn (s : SubnetSystem) : SubnetStep → Prop
  | .read _ newId now subnet =>
    (preparedSubnet newId now subnet).validTo = none ∧
      ∀ r ∈ s.subnets.rows, r.id = (preparedSubnet newId now subnet).id →
        r.base.cidr = subnet.base.cidr
  | .write call => ∀ p ∈ s.pending call, ∀ row ∈ p.plan.inserted,
      ∀ r ∈ s.subnets.rows, r.isLive = true → Subnet.isDuplicateOf row r.toRow = false

instance (s : SubnetSystem) : DecidablePred s.InTurn
  | .read _ newId now subnet =>
    inferInstanceAs (Decidable ((preparedSubnet newId now subnet).validTo = none ∧ _))
  | .write call => inferInstanceAs (Decidable (∀ p ∈ s.pending call, _))

instance : DecidablePred NoDuplicates := fun s =>
  inferInstanceAs (Decidable (∀ r ∈ s.subnets.rows, ∀ r' ∈ s.subnets.rows, _))

end SubnetSystem

section NaturalKey

/-- `p` takes the place of `r` as far as the comparison of subnets goes. The type matters only for a
bridge with an owner. -/
structure Subnet.SameKey (p r : Subnet) : Prop where
  id : p.id = r.id
  validTo : p.validTo = r.validTo
  cidr : p.base.cidr = r.base.cidr
  networkId : p.base.networkId = r.base.networkId
  source : p.base.source = r.base.source
  owner : p.base.virtualizationServiceId = r.base.virtualizationServiceId
  subnetType : p.base.subnetType = r.base.subnetType ∨ r.base.virtualizationServiceId = none

theorem Subnet.SameKey.refl (r : Subnet) : Subnet.SameKey r r :=
  ⟨rfl, rfl, rfl, rfl, rfl, rfl, .inl rfl⟩

theorem Subnet.SameKey.trans {p q r : Subnet} (h : Subnet.SameKey p q) (h' : Subnet.SameKey q r) :
    Subnet.SameKey p r := by
  refine ⟨h.id.trans h'.id, h.validTo.trans h'.validTo, h.cidr.trans h'.cidr,
    h.networkId.trans h'.networkId, h.source.trans h'.source, h.owner.trans h'.owner, ?_⟩
  rcases h.subnetType with htype | hnone
  · rw [htype]
    exact h'.subnetType
  · exact .inr (h'.owner ▸ hnone)

theorem Subnet.SameKey.symm {p r : Subnet} (h : Subnet.SameKey p r) : Subnet.SameKey r p := by
  refine ⟨h.id.symm, h.validTo.symm, h.cidr.symm, h.networkId.symm, h.source.symm, h.owner.symm, ?_⟩
  rcases h.subnetType with htype | hnone
  · exact .inl htype.symm
  · exact .inr (h.owner.trans hnone)

/-- Whether two bridges are of one runtime, as far as that is known. -/
def sameOwner (a b : Option Uuid) : Bool :=
  match a, b with
  | some a, some b => a = b
  | _, _ => true

theorem sameOwner_comm (a b : Option Uuid) : sameOwner a b = sameOwner b a := by
  cases a <;> cases b <;> simp [sameOwner, eq_comm]

theorem isDuplicateOf_eq (a b : Subnet) : a.isDuplicateOf b = (a.eq b &&
    (a.base.source ≠ .system && b.base.source ≠ .system) &&
    (!(a.base.source = .discovery && b.base.source = .discovery &&
        a.base.subnetType.isContainerBridge && b.base.subnetType.isContainerBridge) ||
      sameOwner a.base.virtualizationServiceId b.base.virtualizationServiceId)) := by
  unfold Subnet.isDuplicateOf
  cases a.eq b with
  | false => rfl
  | true =>
    cases ha : a.base.source <;> cases hb : b.base.source <;> simp
    cases a.base.subnetType.isContainerBridge <;> cases b.base.subnetType.isContainerBridge <;>
      cases a.base.virtualizationServiceId <;> cases b.base.virtualizationServiceId <;> rfl

theorem isDuplicateOf_comm (a b : Subnet) : a.isDuplicateOf b = b.isDuplicateOf a := by
  have heq : a.eq b = b.eq a := by
    unfold Subnet.eq
    grind
  rw [isDuplicateOf_eq, isDuplicateOf_eq, heq, sameOwner_comm]
  grind

theorem isDuplicateOf_sameKey {p r : Subnet} (h : Subnet.SameKey p r) (b : Subnet) :
    p.isDuplicateOf b = r.isDuplicateOf b := by
  have heq : p.eq b = r.eq b := by
    unfold Subnet.eq
    rw [h.cidr, h.networkId, h.id]
  rw [isDuplicateOf_eq, isDuplicateOf_eq, heq, h.source, h.owner]
  rcases h.subnetType with htype | hnone
  · rw [htype]
  · rw [hnone]
    simp [sameOwner]

end NaturalKey

def PendingSubnet.Fits (subnets : RowTable SubnetBase) (p : PendingSubnet) : Prop :=
  p.plan.row.validTo = none ∧ p.plan.row.base.cidr = p.cidr ∧
    ∀ row, p.plan = .refresh row → ∃ r ∈ subnets, Subnet.SameKey row r.toRow

theorem planSubnet_cases (newId : Uuid) (now : Timestamp) (subnets : RowTable SubnetBase)
    (subnet : Subnet) :
    (∃ row, ∃ existing ∈ subnets, planSubnet newId now subnets subnet = .refresh row ∧
      existing.isLive = true ∧ Subnet.SameKey row existing.toRow ∧
      (preparedSubnet newId now subnet).isDuplicateOf existing.toRow = true) ∨
    (∃ row, planSubnet newId now subnets subnet = .insert row ∧
      row.validTo = (preparedSubnet newId now subnet).validTo ∧
      row.base = (preparedSubnet newId now subnet).base) := by
  set prepared := preparedSubnet newId now subnet with hprepared
  unfold planSubnet
  dsimp only
  rw [← hprepared]
  split
  · rename_i existing hfind
    obtain ⟨hmem, hlive⟩ := mem_filter.mp (mem_of_find?_eq_some hfind)
    have hdup : prepared.isDuplicateOf existing.toRow = true := by
      simpa using find?_some hfind
    refine .inl ⟨_, existing, hmem, rfl, (and_eq_true_iff.mp hlive).1, ?_, hdup⟩
    refine ⟨rfl, rfl, rfl, rfl, rfl, rfl, ?_⟩
    dsimp only
    split_ifs with hcorrects
    · unfold Subnet.correctsContainerBridgeGuess at hcorrects
      simp only [and_eq_true, isNone_iff_eq_none] at hcorrects
      exact .inr hcorrects.1.2
    · exact .inl rfl
  · exact .inr ⟨_, rfl, rfl, rfl⟩

theorem cidr_preparedSubnet (newId : Uuid) (now : Timestamp) (subnet : Subnet) :
    (preparedSubnet newId now subnet).base.cidr = subnet.base.cidr := by
  unfold preparedSubnet
  split_ifs <;> rfl

namespace SubnetSystem
variable {s s' : SubnetSystem}
variable {p : PendingSubnet} {subnets : RowTable SubnetBase} {row : Subnet} {call : ℕ}

theorem fits_planSubnet {newId : Uuid} {now : Timestamp} {subnet : Subnet}
    (h : s.InTurn (.read call newId now subnet)) :
    PendingSubnet.Fits s.subnets
      ⟨subnet.base.cidr, planSubnet newId now s.subnets subnet⟩ := by
  obtain ⟨hopen, hid⟩ := h
  rcases planSubnet_cases newId now s.subnets subnet with
    ⟨row, existing, hmem, hplan, hlive, hkey, hdup⟩ | ⟨row, hplan, hvalid, hbase⟩
  · unfold PendingSubnet.Fits
    rw [hplan]
    refine ⟨hkey.validTo.trans (isNone_iff_eq_none.mp hlive), hkey.cidr.trans ?_, ?_⟩
    · rw [isDuplicateOf_eq, and_eq_true, and_eq_true] at hdup
      unfold Subnet.eq at hdup
      simp only [or_eq_true, and_eq_true, decide_eq_true_eq] at hdup
      rcases hdup.1.1 with ⟨hcidr, -⟩ | hsame
      · rw [← hcidr, cidr_preparedSubnet]
      · exact hid existing hmem hsame.symm
    · intro row' hrow'
      cases hrow'
      exact ⟨existing, hmem, hkey⟩
  · unfold PendingSubnet.Fits
    rw [hplan]
    refine ⟨hvalid.trans hopen, ?_, fun _ h => SubnetPlan.noConfusion h⟩
    show row.base.cidr = _
    rw [hbase, cidr_preparedSubnet]

/-- What holds in every state of a run in turn. -/
structure Sound (s : SubnetSystem) : Prop where
  noDuplicates : s.NoDuplicates
  fits : ∀ c ∈ s.calls, c.2.Fits s.subnets

theorem Sound.of_pending (hs : s.Sound)
    (hp : s.pending call = some p) : p.Fits s.subnets := by
  obtain ⟨c, hc, rfl⟩ := map_eq_some_iff.mp hp
  exact hs.fits c (mem_of_find?_eq_some hc)

theorem exists_sameKey_of_update
    (hrow : ∃ r ∈ subnets, Subnet.SameKey row r.toRow) {r' : StoredRow SubnetBase}
    (hr' : r' ∈ subnets.update [row]) :
    ∃ r ∈ subnets, Subnet.SameKey r'.toRow r.toRow := by
  obtain ⟨r, hr, rfl⟩ := RowTable.mem_update_singleton.mp hr'
  refine ⟨r, hr, ?_⟩
  split_ifs with hid
  · obtain ⟨r₀, hr₀, hkey⟩ := hrow
    have hsame : r₀ = r := subnets.eq_of_key hr₀ hr (hkey.id.symm.trans hid)
    exact hsame ▸ hkey
  · exact .refl _

theorem Fits.update
    (hrow : ∃ r ∈ subnets, Subnet.SameKey row r.toRow) (hp : p.Fits subnets) :
    p.Fits (subnets.update [row]) := by
  refine ⟨hp.1, hp.2.1, fun row' hplan => ?_⟩
  obtain ⟨r, hr, hkey⟩ := hp.2.2 row' hplan
  have hmem : (if row.id = r.id then ⟨row, r.snapshotId⟩ else r) ∈ subnets.update [row] :=
    RowTable.mem_update_singleton.mpr ⟨r, hr, rfl⟩
  obtain ⟨r₁, hr₁, hkey₁⟩ := exists_sameKey_of_update hrow hmem
  have hsame : r₁ = r := by
    refine subnets.eq_of_key hr₁ hr (hkey₁.id.symm.trans ?_)
    split_ifs with hid
    · exact hid
    · rfl
  exact ⟨_, hmem, hkey.trans (hsame ▸ hkey₁.symm)⟩

theorem NoDuplicates.of_sameKey (hs : s.NoDuplicates)
    (h : ∀ r' ∈ s'.subnets, ∃ r ∈ s.subnets, Subnet.SameKey r'.toRow r.toRow) :
    s'.NoDuplicates := by
  intro r₁ hr₁ r₂ hr₂ hlive₁ hlive₂ hne hcidr
  obtain ⟨q₁, hq₁, hkey₁⟩ := h r₁ hr₁
  obtain ⟨q₂, hq₂, hkey₂⟩ := h r₂ hr₂
  rw [isDuplicateOf_sameKey hkey₁, isDuplicateOf_comm, isDuplicateOf_sameKey hkey₂,
    isDuplicateOf_comm]
  have hlive : ∀ {r q : StoredRow SubnetBase}, Subnet.SameKey r.toRow q.toRow →
      r.isLive = true → q.isLive = true := by
    intro r q hkey hlive
    unfold Row.isLive at hlive ⊢
    rwa [← hkey.validTo]
  refine hs q₁ hq₁ q₂ hq₂ (hlive hkey₁ hlive₁) (hlive hkey₂ hlive₂) ?_ ?_
  · rw [← hkey₁.id, ← hkey₂.id]
    exact hne
  · rw [← hkey₁.cidr, ← hkey₂.cidr]
    exact hcidr

theorem NoDuplicates.insert (hs : s.NoDuplicates)
    (hinsert : s.subnets.insertMany [⟨row, none⟩] = some subnets) (hsubnets : s'.subnets = subnets)
    (hfree : ∀ r ∈ s.subnets.rows, r.isLive = true → Subnet.isDuplicateOf row r.toRow = false) :
    s'.NoDuplicates := by
  intro r₁ hr₁ r₂ hr₂ hlive₁ hlive₂ hne hcidr
  rw [hsubnets, Table.mem_insertMany hinsert, mem_singleton] at hr₁ hr₂
  rcases hr₁ with hr₁ | rfl <;> rcases hr₂ with hr₂ | rfl
  · exact hs r₁ hr₁ r₂ hr₂ hlive₁ hlive₂ hne hcidr
  · rw [isDuplicateOf_comm]
    exact hfree r₁ hr₁ hlive₁
  · exact hfree r₂ hr₂ hlive₂
  · exact absurd rfl hne

theorem Fits.insert {subnets' : RowTable SubnetBase} {new : List (StoredRow SubnetBase)}
    (hinsert : subnets.insertMany new = some subnets') (hp : p.Fits subnets) :
    p.Fits subnets' := by
  refine ⟨hp.1, hp.2.1, fun row hplan => ?_⟩
  obtain ⟨r, hr, hkey⟩ := hp.2.2 row hplan
  exact ⟨r, (Table.mem_insertMany hinsert).mpr (.inl hr), hkey⟩

theorem Sound.write (hs : s.Sound) (hp : p.Fits s.subnets)
    (hturn : ∀ row ∈ p.plan.inserted,
      ∀ r ∈ s.subnets.rows, r.isLive = true → Subnet.isDuplicateOf row r.toRow = false)
        (h : writeSubnet s.subnets p.plan = some subnets)
    (hsubnets : s'.subnets = subnets) (hcalls : ∀ c ∈ s'.calls, c ∈ s.calls) : s'.Sound := by
  cases hplan : p.plan with
  | refresh row =>
    have hrow := hp.2.2 row hplan
    rw [hplan] at h
    cases h
    refine ⟨hs.noDuplicates.of_sameKey fun r' hr' => ?_, fun c hc => ?_⟩
    · rw [hsubnets] at hr'
      exact exists_sameKey_of_update hrow hr'
    · rw [hsubnets]
      exact Fits.update hrow (hs.fits c (hcalls c hc))
  | insert row =>
    rw [hplan] at h hturn
    refine ⟨hs.noDuplicates.insert h hsubnets (hturn row rfl), fun c hc => ?_⟩
    rw [hsubnets]
    exact Fits.insert h (hs.fits c (hcalls c hc))

theorem Sound.step (hs : s.Sound) {l : SubnetStep} (hturn : s.InTurn l)
    (h : s.step l = some s') : s'.Sound := by
  cases l with
  | read call newId now subnet =>
    rw [SubnetSystem.step] at h
    split_ifs at h
    cases h
    refine ⟨hs.noDuplicates, fun c hc => ?_⟩
    rcases mem_cons.mp hc with rfl | hc
    · exact fits_planSubnet (s := s) hturn
    · exact hs.fits c hc
  | write call =>
    obtain ⟨p, hp, rfl⟩ := map_eq_some_iff.mp h
    have hcalls : ∀ c ∈ s.calls.filter (·.1 ≠ call), c ∈ s.calls := fun c hc => mem_of_mem_filter hc
    cases hwrite : writeSubnet s.subnets p.plan with
    | none => exact ⟨hs.noDuplicates, fun c hc => hs.fits c (hcalls c hc)⟩
    | some subnets => exact hs.write (hs.of_pending hp) (hturn p hp) hwrite rfl hcalls

theorem Sound.returnsRequested (hs : s.Sound) (l : SubnetStep) : s.ReturnsRequested l := by
  intro s' cidr row hstep hreturned
  cases l with
  | read => cases hreturned
  | write call =>
    obtain ⟨p, hp, hmap⟩ := bind_eq_some_iff.mp hreturned
    obtain ⟨subnets, hwrite, heq⟩ := map_eq_some_iff.mp hmap
    cases heq
    have hfits := hs.of_pending hp
    have hsubnets : s'.subnets = subnets := by
      obtain ⟨p', hp', rfl⟩ := map_eq_some_iff.mp hstep
      cases hp.symm.trans hp'
      show (writeSubnet s.subnets p.plan).getD s.subnets = subnets
      rw [hwrite]
      rfl
    refine ⟨hfits.2.1, ?_⟩
    rw [hsubnets]
    have hlive : p.plan.row.isLive = true := by
      unfold Row.isLive
      rw [hfits.1]
      rfl
    cases hplan : p.plan with
    | refresh row =>
      rw [hplan] at hwrite hlive
      cases hwrite
      obtain ⟨r, hr, hkey⟩ := hfits.2.2 row hplan
      refine ⟨⟨row, r.snapshotId⟩, RowTable.mem_update_singleton.mpr ⟨r, hr, ?_⟩, rfl, hlive⟩
      rw [if_pos hkey.id]
    | insert row =>
      rw [hplan] at hwrite hlive
      exact ⟨⟨row, none⟩, (Table.mem_insertMany hwrite).mpr (.inr (mem_singleton_self _)), rfl,
        hlive⟩

end SubnetSystem

/-- In every run in which no call brings a closed row or the id of another range, and none inserts
after another has inserted what it would be taken for, no two live subnets are duplicates, and every
call returns a live subnet of its range. -/
theorem noDuplicates_of_inTurn (subnets : RowTable SubnetBase)
    (hinit : (subnetLts subnets).init.NoDuplicates) (s : SubnetSystem)
    (hs : (subnetLts subnets).ReachableVia SubnetSystem.InTurn s) :
    s.NoDuplicates ∧ ∀ l, s.ReturnsRequested l := by
  have hsound : s.Sound := by
    refine hs.invariant ⟨hinit, fun c hc => absurd hc not_mem_nil⟩ ?_
    exact fun _ _ _ _ hsound hturn hstep => hsound.step hturn hstep
  exact ⟨hsound.noDuplicates, hsound.returnsRequested⟩

section TwoDaemons

def officeSubnet (id : Uuid) : Subnet :=
  ⟨id, 0, 0, none, none, {
    cidr := .v4 .lan, networkId := 5, name := "office", description := none
    subnetType := .lan, virtualizationServiceId := none, source := .discovery, lastSeenAt := 3 }⟩

def noSubnets : RowTable SubnetBase := ⟨[], List.nodup_nil⟩

theorem noDuplicates_oneByOne : ∃ s, (subnetLts noSubnets).run (subnetLts noSubnets).init
    [.read 0 1 4 (officeSubnet 10), .write 0, .read 1 2 5 (officeSubnet 20), .write 1] = some s ∧
      s.NoDuplicates := by
  obtain ⟨s, hs⟩ := isSome_iff_exists.mp (show ((subnetLts noSubnets).run
    (subnetLts noSubnets).init [.read 0 1 4 (officeSubnet 10), .write 0,
      .read 1 2 5 (officeSubnet 20), .write 1]).isSome = true by decide +kernel)
  have hreach : (subnetLts noSubnets).ReachableVia SubnetSystem.InTurn s :=
    Lts.reachableVia_of_run .init (by decide +kernel) hs
  exact ⟨s, hs, (noDuplicates_of_inTurn noSubnets (by decide +kernel) s hreach).1⟩

/-- Two daemons that read before either of them writes both insert the subnet. -/
theorem not_noDuplicates : ¬ ∀ (subnets : RowTable SubnetBase) (s : SubnetSystem),
    (subnetLts subnets).init.NoDuplicates → (subnetLts subnets).Reachable s →
      s.NoDuplicates ∧ ∀ l, s.ReturnsRequested l := by
  intro h
  have hrun : ∃ s, (subnetLts noSubnets).run (subnetLts noSubnets).init
      [.read 0 1 4 (officeSubnet 10), .read 1 2 4 (officeSubnet 20), .write 0, .write 1] = some s ∧
        ¬ s.NoDuplicates := ⟨_, rfl, by decide +kernel⟩
  obtain ⟨s, hs, hnot⟩ := hrun
  exact hnot (h noSubnets s (by decide +kernel) (Lts.reachable_of_run hs)).1

end TwoDaemons

end Scanopy
