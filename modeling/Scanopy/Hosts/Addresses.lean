import Scanopy.Hosts.Create

/-! Which addresses of a submission are stored: those that were before, and those for which the
loop, at their turn or at that of another row with the same address, finds no stored row. -/

namespace Scanopy
open List
namespace AddressContext
variable (c : AddressContext)
variable {l : List IPAddress} {r : StoredRow IPAddressBase}

def Recorded (rows : RowTable IPAddressBase) (a : IPAddress) : Prop :=
  ∃ r ∈ rows, r.isLive = true ∧ r.base.hostId = c.host.id ∧
    r.base.subnetId = c.resolveSubnetId a ∧ r.base.ipAddress = a.base.ipAddress

def SameAddress (a b : IPAddress) : Prop :=
  c.resolveSubnetId a = c.resolveSubnetId b ∧ a.base.ipAddress = b.base.ipAddress

def TakenByMac (rows : RowTable IPAddressBase) (a : IPAddress) : Prop :=
  ∃ mac, a.base.macAddress = some mac ∧ macCount c.incoming mac = 1 ∧
    (rows.rows.filter fun r => r.isLive && r.base.hostId = c.host.id &&
      r.base.macAddress = some mac).length = 1

structure IsNew (rows : RowTable IPAddressBase) (a : IPAddress) : Prop where
  id : ∀ r ∈ rows, r.id ≠ a.id
  mac : ¬c.TakenByMac rows a
  live : a.id = Uuid.nil ∨ a.validTo = none

variable {c} {rows rows' : RowTable IPAddressBase} {a b x : IPAddress} {s s' : AddressStage}

theorem Recorded.mono (h : c.Recorded rows a) (hrows : ∀ r ∈ rows, r ∈ rows') :
    c.Recorded rows' a := by
  obtain ⟨r, hr, hrecorded⟩ := h
  exact ⟨r, hrows r hr, hrecorded⟩

theorem Recorded.of_sameAddress (h : c.Recorded rows a) (hsame : c.SameAddress a b) :
    c.Recorded rows b := by
  obtain ⟨r, hr, hlive, hhost, hsubnet, hip⟩ := h
  exact ⟨r, hr, hlive, hhost, hsubnet.trans hsame.1, hip.trans hsame.2⟩

theorem find_address_eq_none :
    (rows.rows.filter fun r => r.isLive && r.base.hostId = (c.place a).base.hostId &&
        r.base.subnetId = (c.place a).base.subnetId).find?
      (·.base.ipAddress = (c.place a).base.ipAddress) = none ↔ ¬c.Recorded rows a := by
  rw [find?_eq_none]
  constructor
  · rintro h ⟨r, hr, hlive, hhost, hsubnet, hip⟩
    refine h r (mem_filter.mpr ⟨hr, ?_⟩) (decide_eq_true hip)
    rw [Bool.and_eq_true, Bool.and_eq_true]
    exact ⟨⟨hlive, decide_eq_true hhost⟩, decide_eq_true hsubnet⟩
  · intro h r hr hip
    obtain ⟨hr, hrow⟩ := mem_filter.mp hr
    rw [Bool.and_eq_true, Bool.and_eq_true] at hrow
    exact h ⟨r, hr, hrow.1.1, of_decide_eq_true hrow.1.2, of_decide_eq_true hrow.2,
      of_decide_eq_true hip⟩

theorem find_id_eq_none : rows.rows.find? (·.id = (c.place a).id) = none ↔
    ∀ r ∈ rows, r.id ≠ a.id := by
  rw [find?_eq_none]
  exact forall₂_congr fun r _ => not_congr decide_eq_true_iff

theorem findByMac_eq_none : c.findByMac rows (c.place a) = none ↔ ¬c.TakenByMac rows a := by
  have hmac : (c.place a).base.macAddress = a.base.macAddress := rfl
  have hhost : (c.place a).base.hostId = c.host.id := rfl
  rw [findByMac, TakenByMac, hmac, hhost]
  cases a.base.macAddress with
  | none =>
    refine iff_of_true rfl ?_
    rintro ⟨mac, hmac, -⟩
    cases hmac
  | some mac =>
    simp only [Option.some.injEq, exists_eq_left']
    by_cases hcount : macCount c.incoming mac = 1
    · rw [and_iff_right hcount, if_pos hcount]
      generalize (rows.rows.filter fun r => r.isLive && r.base.hostId = c.host.id &&
        r.base.macAddress = some mac) = onHost
      rcases onHost with _ | ⟨r, _ | _⟩
      · exact iff_of_true rfl Nat.zero_ne_one
      · exact iff_of_false (Option.some_ne_none r) fun h => h rfl
      · exact iff_of_true rfl (Nat.succ_succ_ne_one _)
    · exact iff_of_true (if_neg hcount) fun h => hcount h.1

theorem findExisting_eq_none :
    c.findExisting rows (c.place a) = none ↔
      (∀ r ∈ rows, r.id ≠ a.id) ∧ ¬c.Recorded rows a ∧ ¬c.TakenByMac rows a := by
  rw [findExisting, Option.or_eq_none_iff, Option.or_eq_none_iff, find_id_eq_none,
    find_address_eq_none, findByMac_eq_none]

theorem mem_of_findByMac (h : c.findByMac rows a = some r) :
    r ∈ rows := by
  rw [findByMac] at h
  split at h
  · exact absurd h nofun
  · split_ifs at h
    split at h
    next hfilter =>
      cases h
      have hmem := mem_singleton_self r
      rw [← hfilter] at hmem
      exact (mem_filter.mp hmem).1
    next => exact absurd h nofun

theorem mem_of_findExisting (h : c.findExisting rows a = some r) :
    r ∈ rows := by
  rcases Option.or_eq_some_iff.mp h with h | ⟨-, h⟩
  · exact mem_of_find?_eq_some h
  · rcases Option.or_eq_some_iff.mp h with h | ⟨-, h⟩
    · exact (mem_filter.mp (mem_of_find?_eq_some h)).1
    · exact mem_of_findByMac h

section NewRow
variable {n : ℕ}

theorem newRow_hostId : (c.newRow n a).base.hostId = a.base.hostId := by
  rw [newRow]
  split_ifs <;> rfl

theorem newRow_subnetId : (c.newRow n a).base.subnetId = a.base.subnetId := by
  rw [newRow]
  split_ifs <;> rfl

theorem newRow_ipAddress : (c.newRow n a).base.ipAddress = a.base.ipAddress := by
  rw [newRow]
  split_ifs <;> rfl

theorem newRow_isLive_iff :
    (c.newRow n a).isLive = true ↔ a.id = Uuid.nil ∨ a.validTo = none := by
  rw [newRow]
  split_ifs with hid
  · exact iff_of_true rfl (.inl hid)
  · exact Option.isNone_iff_eq_none.trans (or_iff_right hid).symm

end NewRow

def seenAt (r : StoredRow IPAddressBase) (time : Timestamp) : StoredRow IPAddressBase :=
  { r with base := { r.base with lastSeenAt := time } }

theorem step_cases (hupsert : c.conflictBehavior = .upsert) (h : c.step s a = some s') :
    (∃ r ∈ s.rows, c.findExisting s.rows (c.place a) = some r ∧ s'.rows = s.rows ∧
      s'.toRefresh = s.toRefresh ++ [(seenAt r a.base.lastSeenAt).toRow]) ∨
    (c.findExisting s.rows (c.place a) = none ∧ s'.toRefresh = s.toRefresh ∧ ∀ r, r ∈ s'.rows ↔
        r ∈ s.rows ∨ r = ⟨c.newRow s.created.length (c.place a), none⟩) := by
  rw [step, hupsert] at h
  dsimp only at h
  cases hexisting : c.findExisting s.rows (c.place a) with
  | some r =>
    rw [hexisting] at h
    cases h
    exact .inl ⟨r, mem_of_findExisting hexisting, rfl, rfl, rfl⟩
  | none =>
    rw [hexisting] at h
    obtain ⟨rows, hinsert, rfl⟩ := Option.map_eq_some_iff.mp h
    rw [insertAddress] at hinsert
    split_ifs at hinsert
    refine .inr ⟨rfl, rfl, fun r => ?_⟩
    rw [Table.mem_insertMany hinsert, mem_singleton]

theorem rows_subset_of_step (hupsert : c.conflictBehavior = .upsert) (h : c.step s a = some s') :
    ∀ r ∈ s.rows, r ∈ s'.rows := by
  intro r hr
  rcases step_cases hupsert h with ⟨_, _, _, hrows, _⟩ | ⟨_, _, hmem⟩
  · rw [hrows]
    exact hr
  · exact (hmem r).mpr (.inl hr)

theorem recorded_step_iff (hupsert : c.conflictBehavior = .upsert) (h : c.step s a = some s') :
    c.Recorded s'.rows x ↔ c.Recorded s.rows x ∨ (c.SameAddress a x ∧ c.IsNew s.rows a) := by
  constructor
  · rintro ⟨r, hr, hlive, hhost, hsubnet, hip⟩
    rcases step_cases hupsert h with ⟨_, _, _, hrows, _⟩ | ⟨hnone, _, hmem⟩
    · rw [hrows] at hr
      exact .inl ⟨r, hr, hlive, hhost, hsubnet, hip⟩
    · rcases (hmem r).mp hr with hr | rfl
      · exact .inl ⟨r, hr, hlive, hhost, hsubnet, hip⟩
      · obtain ⟨hid, -, hmac⟩ := findExisting_eq_none.mp hnone
        have hsubnet : (c.place a).base.subnetId = c.resolveSubnetId x :=
          newRow_subnetId.symm.trans hsubnet
        have hip : (c.place a).base.ipAddress = x.base.ipAddress := newRow_ipAddress.symm.trans hip
        have hopen : (c.place a).id = Uuid.nil ∨ (c.place a).validTo = none :=
          newRow_isLive_iff.mp hlive
        exact .inr ⟨⟨hsubnet, hip⟩, hid, hmac, hopen⟩
  · rintro (hrecorded | ⟨hsame, hnew⟩)
    · exact hrecorded.mono (rows_subset_of_step hupsert h)
    · by_cases hrecorded : c.Recorded s.rows a
      · exact (hrecorded.of_sameAddress hsame).mono (rows_subset_of_step hupsert h)
      · have hnone : c.findExisting s.rows (c.place a) = none :=
          findExisting_eq_none.mpr ⟨hnew.id, hrecorded, hnew.mac⟩
        rcases step_cases hupsert h with ⟨r, _, hsome, _⟩ | ⟨_, _, hmem⟩
        · exact absurd (hnone.symm.trans hsome) nofun
        · have hadded : c.Recorded s'.rows a :=
            ⟨_, (hmem _).mpr (.inr rfl), newRow_isLive_iff.mpr hnew.live, newRow_hostId,
              newRow_subnetId, newRow_ipAddress⟩
          exact hadded.of_sameAddress hsame

variable (c) in
/-- The address of `x` is that of a row of the list that is new at its turn. -/
def NewAtItsTurn (s : AddressStage) (l : List IPAddress) (x : IPAddress) : Prop :=
  ∃ earlier b later t, l = earlier ++ b :: later ∧ earlier.foldlM c.step s = some t ∧
    c.SameAddress b x ∧ c.IsNew t.rows b

theorem newAtItsTurn_cons_iff (h : c.step s a = some s') :
    c.NewAtItsTurn s (a :: l) x ↔
      (c.SameAddress a x ∧ c.IsNew s.rows a) ∨ c.NewAtItsTurn s' l x := by
  constructor
  · rintro ⟨_ | ⟨a', earlier⟩, b, later, t, hl, ht, hsame, hnew⟩
    · cases hl
      cases ht
      exact .inl ⟨hsame, hnew⟩
    · cases hl
      rw [foldlM_cons, h] at ht
      exact .inr ⟨earlier, b, later, t, rfl, ht, hsame, hnew⟩
  · rintro (⟨hsame, hnew⟩ | ⟨earlier, b, later, t, rfl, ht, hsame, hnew⟩)
    · exact ⟨[], a, l, s, rfl, rfl, hsame, hnew⟩
    · refine ⟨a :: earlier, b, later, t, rfl, ?_, hsame, hnew⟩
      rw [foldlM_cons, h]
      exact ht

theorem recorded_run_iff (hupsert : c.conflictBehavior = .upsert)
    (h : l.foldlM c.step s = some s') :
    c.Recorded s'.rows x ↔ c.Recorded s.rows x ∨ c.NewAtItsTurn s l x := by
  induction l generalizing s with
  | nil =>
    cases h
    refine (or_iff_left ?_).symm
    rintro ⟨earlier, b, later, t, hl, -⟩
    exact append_ne_nil_of_right_ne_nil earlier (cons_ne_nil b later) hl.symm
  | cons a l ih =>
    rw [foldlM_cons] at h
    obtain ⟨s₁, hstep, hrun⟩ := Option.bind_eq_some_iff.mp h
    rw [ih hrun, recorded_step_iff hupsert hstep, newAtItsTurn_cons_iff hstep, or_assoc]

def RefreshesStored (s : AddressStage) : Prop :=
  ∀ u ∈ s.toRefresh, ∃ r ∈ s.rows, ∃ time, u = (seenAt r time).toRow

theorem RefreshesStored.step (hs : RefreshesStored s) (hupsert : c.conflictBehavior = .upsert)
    (h : c.step s a = some s') : RefreshesStored s' := by
  intro u hu
  have hold : u ∈ s.toRefresh → ∃ r ∈ s'.rows, ∃ time, u = (seenAt r time).toRow := by
    intro hu
    obtain ⟨r, hr, time, heq⟩ := hs u hu
    exact ⟨r, rows_subset_of_step hupsert h r hr, time, heq⟩
  rcases step_cases hupsert h with ⟨r, hr, _, hrows, hrefresh⟩ | ⟨_, hrefresh, _⟩
  · rw [hrefresh, mem_append, mem_singleton] at hu
    rcases hu with hu | rfl
    · exact hold hu
    · rw [hrows]
      exact ⟨r, hr, a.base.lastSeenAt, rfl⟩
  · rw [hrefresh] at hu
    exact hold hu

theorem RefreshesStored.run (hs : RefreshesStored s) (hupsert : c.conflictBehavior = .upsert)
    (h : l.foldlM c.step s = some s') : RefreshesStored s' := by
  induction l generalizing s with
  | nil =>
    cases h
    exact hs
  | cons a l ih =>
    rw [foldlM_cons] at h
    obtain ⟨s₁, hstep, hrun⟩ := Option.bind_eq_some_iff.mp h
    exact ih (hs.step hupsert hstep) hrun

theorem mem_update_iff (hs : RefreshesStored s) :
    ∃ f : StoredRow IPAddressBase → StoredRow IPAddressBase,
      (s.rows.update s.toRefresh).rows = s.rows.rows.map f ∧
        ∀ r ∈ s.rows, ∃ time, f r = seenAt r time := by
  refine ⟨_, Table.rows_updateMany_eq_map s.rows s.toRefresh, fun r hr => ?_⟩
  have hsame : ∃ time, r = seenAt r time := ⟨r.base.lastSeenAt, rfl⟩
  refine Table.updateRow_induction (P := fun r' => ∃ time, r' = seenAt r time) hsame ?_
  rintro u hu _ ⟨time, rfl⟩ hid
  obtain ⟨r', hr', time', rfl⟩ := hs u hu
  cases s.rows.eq_of_key hr' hr hid
  exact ⟨time', rfl⟩

theorem recorded_update_iff (hs : RefreshesStored s) :
    c.Recorded (s.rows.update s.toRefresh) x ↔ c.Recorded s.rows x := by
  obtain ⟨f, hrows, hf⟩ := mem_update_iff hs
  have hmem : ∀ r, r ∈ s.rows.update s.toRefresh ↔ ∃ r₀ ∈ s.rows, f r₀ = r := by
    intro r
    show r ∈ (s.rows.update s.toRefresh).rows ↔ _
    rw [hrows, mem_map]
    rfl
  constructor
  · rintro ⟨r, hr, hrecorded⟩
    obtain ⟨r₀, hr₀, rfl⟩ := (hmem r).mp hr
    obtain ⟨time, heq⟩ := hf r₀ hr₀
    rw [heq] at hrecorded
    exact ⟨r₀, hr₀, hrecorded⟩
  · rintro ⟨r, hr, hrecorded⟩
    refine ⟨f r, (hmem _).mpr ⟨r, hr, rfl⟩, ?_⟩
    obtain ⟨time, heq⟩ := hf r hr
    rw [heq]
    exact hrecorded

theorem recorded_createIpAddresses_iff (hupsert : c.conflictBehavior = .upsert)
    {created : List IPAddress} (h : c.createIpAddresses rows = some (rows', created)) :
    c.Recorded rows' x ↔ c.Recorded rows x ∨ c.NewAtItsTurn { rows } c.incoming x := by
  obtain ⟨s, hrun, heq⟩ := Option.map_eq_some_iff.mp h
  cases heq
  have hstart : RefreshesStored { rows } := fun u hu => (not_mem_nil hu).elim
  rw [recorded_update_iff (hstart.run hupsert hrun), recorded_run_iff hupsert hrun]

end AddressContext

section Create
variable {R : Type} {env : CreateEnv} {others : OtherStages R} {limitCtx : Option HostLimitContext}
  {conflictBehavior : ConflictBehavior} {request : DiscoveryHostRequest}
  {store after : HostStore R} {response : HostResponse} {p : PreparedHost R}

theorem exists_of_bind_eq_ok {ε α β : Type} {x : Except ε α} {f : α → Except ε β} {b : β}
    (h : x >>= f = .ok b) : ∃ a, x = .ok a ∧ f a = .ok b := by
  cases x with
  | error e => exact absurd h nofun
  | ok a => exact ⟨a, rfl, h⟩

theorem eq_some_of_elim_eq_ok {ε α : Type} {o : Option α} {e : ε} {a : α}
    (h : o.elim (.error e) .ok = Except.ok a) : o = some a := by
  cases o with
  | none => exact absurd h nofun
  | some a' =>
    cases h
    rfl

theorem prepareHost_ok
    (h : prepareHost env others limitCtx conflictBehavior request store = .ok p) :
    ∃ aligned rest owner s, alignHost limitCtx conflictBehavior request store = .ok aligned ∧
      createUnlocked env store.hosts aligned = .ok (p.hosts, p.context.host) ∧
      others.ports request p.context.host store.rest = some rest ∧
      others.owners request p.context.host rest = some (p.rest, owner) ∧
      request.subnets.foldlM (SubnetStage.step env p.context.host owner)
        { subnets := store.subnets } = some s ∧
      p.context.subnets = s.subnets ∧ p.context.createdSubnetIds = s.createdSubnetIds ∧
      p.context.incoming = request.ipAddresses ∧
      p.context.conflictBehavior = conflictBehavior := by
  obtain ⟨aligned, haligned, h⟩ := exists_of_bind_eq_ok h
  obtain ⟨⟨hosts, host⟩, hcreate, h⟩ := exists_of_bind_eq_ok h
  obtain ⟨rest, hports, h⟩ := exists_of_bind_eq_ok h
  obtain ⟨⟨rest', owner⟩, howners, h⟩ := exists_of_bind_eq_ok h
  obtain ⟨s, hsubnets, h⟩ := exists_of_bind_eq_ok h
  cases h
  exact ⟨aligned, rest, owner, s, haligned, hcreate, eq_some_of_elim_eq_ok hports,
    eq_some_of_elim_eq_ok howners, eq_some_of_elim_eq_ok hsubnets, rfl, rfl, rfl, rfl⟩

theorem createWithChildren_ok
    (h : createWithChildren env others limitCtx conflictBehavior request store =
      .ok (response, after)) :
    ∃ p children, prepareHost env others limitCtx conflictBehavior request store = .ok p ∧
      p.context.createIpAddresses store.ipAddresses =
        some (after.ipAddresses, response.ipAddresses) ∧
      others.children request p.context.host (request.ipAddresses.zip response.ipAddresses)
        ⟨p.hosts, p.context.subnets, after.ipAddresses, p.rest⟩ = some (after.rest, children) ∧
      after.subnets = p.context.subnets ∧ response.id = p.context.host.id ∧
      response.ports = children.ports ∧ response.services = children.services ∧
      response.interfaces = children.interfaces := by
  obtain ⟨p, hp, h⟩ := exists_of_bind_eq_ok h
  obtain ⟨⟨ipAddresses, created⟩, hcreate, h⟩ := exists_of_bind_eq_ok h
  obtain ⟨⟨rest, children⟩, hchildren, h⟩ := exists_of_bind_eq_ok h
  cases h
  exact ⟨p, children, hp, eq_some_of_elim_eq_ok hcreate, eq_some_of_elim_eq_ok hchildren, rfl, rfl,
    rfl, rfl, rfl⟩

/-- After an upsert every submitted address is on the host that the submission is about exactly if
each was there before, or is the address of a row that is new at its turn. -/
theorem recorded_createWithChildren_iff (env : CreateEnv) (others : OtherStages R)
    (limitCtx : Option HostLimitContext) (request : DiscoveryHostRequest)
    (store after : HostStore R) (response : HostResponse)
    (h : createWithChildren env others limitCtx .upsert request store = .ok (response, after)) :
    ∃ p, prepareHost env others limitCtx .upsert request store = .ok p ∧
      response.id = p.context.host.id ∧
      ((∀ a ∈ request.ipAddresses, p.context.Recorded after.ipAddresses a) ↔
        ∀ a ∈ request.ipAddresses, p.context.Recorded store.ipAddresses a ∨
          p.context.NewAtItsTurn { rows := store.ipAddresses } request.ipAddresses a) := by
  obtain ⟨p, children, hp, hcreate, -, -, hid, -⟩ := createWithChildren_ok h
  obtain ⟨-, -, -, -, -, -, -, -, -, -, -, hincoming, hupsert⟩ := prepareHost_ok hp
  refine ⟨p, hp, hid, forall₂_congr fun a _ => ?_⟩
  rw [← hincoming]
  exact AddressContext.recorded_createIpAddresses_iff hupsert hcreate

end Create

section Laptop

def laptopEnv : CreateEnv where
  now := 5
  newHostId := 90
  newSubnetId := fun _ => 91
  newIpAddressId := fun _ => 92
  hostSeenAt := 5
  mergeHost := fun existing _ => existing

def laptopStages : OtherStages Unit where
  ports := fun _ _ _ => some ()
  owners := fun _ _ _ => some ((), fun _ => none)
  children := fun _ _ _ _ => some ((), ⟨[], [], [], []⟩)

def laptopAddress (id hostId : Uuid) (ip : BitVec 32) (mac : MacAddress) (seen : Timestamp) :
    IPAddress :=
  ⟨id, seen, seen, none, none, ⟨9, hostId, 20, .v4 ip, some mac, none, 0, seen⟩⟩

def laptopStore : HostStore Unit where
  hosts := ⟨[⟨⟨1, 0, 0, none, none, ⟨"laptop", 9, none, none, none, false, []⟩⟩, none⟩], by decide⟩
  subnets := ⟨[⟨⟨20, 0, 0, none, none, ⟨.v4 .lan, 9, "lan",
    none, .lan, none, .discovery, 0⟩⟩, none⟩], by decide⟩
  ipAddresses := ⟨[⟨laptopAddress 30 1 0x0A000005 0x3C22FB010203 0, none⟩], by decide⟩
  rest := ()

def laptopRequest (ipAddresses : List IPAddress) : DiscoveryHostRequest where
  host := ⟨40, 5, 5, none, none, ⟨"laptop", 9, none, none, none, false, []⟩⟩
  ipAddresses := ipAddresses
  ports := []
  services := []
  interfaces := []
  subnets := []
  interfacesComplete := true
  interfaceDataComplete := {}

def dockedAddresses : List IPAddress :=
  [laptopAddress 41 Uuid.nil 0x0A000005 0x3C22FB010203 5,
    laptopAddress 42 Uuid.nil 0x0A000009 0x3C22FB0A0B0C 5]

theorem recorded_createWithChildren_docked : ∃ p response after,
    prepareHost laptopEnv laptopStages none .upsert (laptopRequest dockedAddresses) laptopStore =
        .ok p ∧
      createWithChildren laptopEnv laptopStages none .upsert (laptopRequest dockedAddresses)
        laptopStore = .ok (response, after) ∧
      ∀ a ∈ dockedAddresses, p.context.Recorded after.ipAddresses a := by
  obtain ⟨response, after, hrun⟩ : ∃ response after, createWithChildren laptopEnv laptopStages none
      .upsert (laptopRequest dockedAddresses) laptopStore = .ok (response, after) := ⟨_, _, rfl⟩
  obtain ⟨p, hp, -, hiff⟩ := recorded_createWithChildren_iff laptopEnv laptopStages none
    (laptopRequest dockedAddresses) laptopStore after response hrun
  refine ⟨p, response, after, hp, hrun, hiff.mpr ?_⟩
  obtain rfl := Except.ok.inj (show Except.ok _ = Except.ok p from hp)
  intro a ha
  rcases mem_cons.mp ha with rfl | ha
  · exact .inl ⟨_, mem_cons_self, rfl, rfl, rfl, rfl⟩
  · cases mem_singleton.mp ha
    refine .inr ⟨[_], _, [], _, rfl, rfl, ⟨rfl, rfl⟩, by decide +kernel, ?_, .inr rfl⟩
    rintro ⟨mac, hmac, -, hone⟩
    cases hmac
    exact absurd hone (by decide +kernel)

/-- The laptop gets another address: its row is found by its MAC and stays as it is. -/
theorem not_recorded_createWithChildren : ¬∀ (env : CreateEnv) (others : OtherStages Unit)
    (limitCtx : Option HostLimitContext) (request : DiscoveryHostRequest)
    (store after : HostStore Unit) (response : HostResponse) (p : PreparedHost Unit),
    prepareHost env others limitCtx .upsert request store = .ok p →
    createWithChildren env others limitCtx .upsert request store = .ok (response, after) →
    ∀ a ∈ request.ipAddresses, p.context.Recorded after.ipAddresses a := by
  intro h
  have hmoved := h laptopEnv laptopStages none
    (laptopRequest [laptopAddress 41 Uuid.nil 0x0A000009 0x3C22FB010203 5]) laptopStore _ _ _ rfl
    rfl _ mem_cons_self
  obtain ⟨r, hr, -, -, -, hip⟩ := hmoved
  revert hip
  revert r
  show ∀ r ∈ _, _
  decide +kernel

end Laptop

end Scanopy
