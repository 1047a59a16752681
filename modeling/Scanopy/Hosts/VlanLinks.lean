import Scanopy.Hosts.Discovery
import Scanopy.Hosts.Frame

/-! The VLANs of a subnet are those of the interfaces on it. A call derives them again for the
subnets of its host only, enough as long as interfaces are linked to addresses of their host. -/

namespace Scanopy
open List Option Ownership InterfaceTable SnmpInterface
variable {s s' : VlanLinkStore} {c : DiscoverHostCall} {host : Host} {hostId : Uuid}

def Observed (s : VlanLinkStore) (subnetId vlanId : Uuid) : Prop :=
  ∃ i ∈ s.interfaces, i.isLive = true ∧ i.base.nativeVlanId = some vlanId ∧
    ∃ a ∈ s.ipAddresses, a.isLive = true ∧ a.base.subnetId = subnetId ∧
      i.base.ipAddressId = some a.id

def LinksMatch (s : VlanLinkStore) : Prop :=
  ∀ subnetId vlanId, ⟨subnetId, vlanId⟩ ∈ s.subnetVlans ↔ Observed s subnetId vlanId

def LinkedAtHome (ipAddresses : RowTable IPAddressBase) (i : SnmpInterface) : Prop :=
  ∀ id, i.base.ipAddressId = some id →
    ∃ a ∈ ipAddresses, a.id = id ∧ a.base.hostId = i.base.hostId

structure LinksSound (s : VlanLinkStore) : Prop where
  matched : LinksMatch s
  home : ∀ i ∈ s.interfaces, LinkedAtHome s.ipAddresses i

structure AddressesKept (hostId : Uuid) (before after : RowTable IPAddressBase) : Prop where
  rows : ∀ a ∈ before, ∃ a' ∈ after, a'.id = a.id ∧ a'.base.hostId = a.base.hostId ∧
    a'.base.subnetId = a.base.subnetId ∧ a'.isLive = a.isLive
  back : ∀ a ∈ after, a.base.hostId = hostId ∨
    ∃ a₀ ∈ before, a₀.id = a.id ∧ a₀.base.hostId = a.base.hostId

section Addresses
variable {ips ips' : RowTable IPAddressBase}

theorem AddressesKept.refl (hostId : Uuid) (ips : RowTable IPAddressBase) :
    AddressesKept hostId ips ips :=
  ⟨fun a ha => ⟨a, ha, rfl, rfl, rfl, rfl⟩, fun a ha => .inr ⟨a, ha, rfl, rfl⟩⟩

theorem LinkedAtHome.mono {i : SnmpInterface} (h : LinkedAtHome ips i)
    (hkept : AddressesKept hostId ips ips') : LinkedAtHome ips' i := by
  intro id hid
  obtain ⟨a, ha, rfl, hhost⟩ := h id hid
  obtain ⟨a', ha', hid', hhost', -⟩ := hkept.rows a ha
  exact ⟨a', ha', hid', hhost'.trans hhost⟩

theorem AddressesKept.belongsTo (h : AddressesKept hostId ips ips') {id : Uuid}
    (hid : BelongsTo ips (fun a => a.base.hostId) hostId id) :
    BelongsTo ips' (fun a => a.base.hostId) hostId id := by
  intro a ha hkey
  rcases h.back a ha with hhost | ⟨a₀, ha₀, hid₀, hhost₀⟩
  · exact hhost
  · exact hhost₀.symm.trans (hid a₀ ha₀ (hid₀.trans hkey))

namespace AddressContext
variable {ctx : AddressContext}

theorem addressesKept_step {t t' : AddressStage} {a : IPAddress}
    (hupsert : ctx.conflictBehavior = .upsert) (h : AddressesKept ctx.host.id ips t.rows)
    (hstep : ctx.step t a = some t') : AddressesKept ctx.host.id ips t'.rows := by
  constructor
  · intro r hr
    obtain ⟨r', hr', hsame⟩ := h.rows r hr
    exact ⟨r', rows_subset_of_step hupsert hstep r' hr', hsame⟩
  · intro r hr
    rcases step_cases hupsert hstep with ⟨-, -, -, hrows, -⟩ | ⟨-, -, hmem⟩
    · rw [hrows] at hr
      exact h.back r hr
    · rcases (hmem r).mp hr with hr | rfl
      · exact h.back r hr
      · exact .inl newRow_hostId

theorem addressesKept_foldUntil (hupsert : ctx.conflictBehavior = .upsert)
    (ips : RowTable IPAddressBase) (l : List IPAddress) :
    AddressesKept ctx.host.id ips (Lts.foldUntil ctx.step { rows := ips } l).1.rows := by
  refine Lts.invariant_of_foldUntil
    (P := fun t : AddressStage => AddressesKept ctx.host.id ips t.rows) (.refl _ _) ?_
  exact fun a _ t t' ht hstep => addressesKept_step hupsert ht hstep

theorem addressesKept_update {t : AddressStage} (h : AddressesKept hostId ips t.rows)
    (hrefresh : RefreshesStored t) : AddressesKept hostId ips (t.rows.update t.toRefresh) := by
  obtain ⟨f, hrows, hf⟩ := mem_update_iff hrefresh
  have hmem : ∀ r, r ∈ t.rows.update t.toRefresh ↔ ∃ r₀ ∈ t.rows, f r₀ = r := by
    intro r
    show r ∈ (t.rows.update t.toRefresh).rows ↔ _
    rw [hrows, List.mem_map]
    rfl
  constructor
  · intro a ha
    obtain ⟨r, hr, hsame⟩ := h.rows a ha
    obtain ⟨time, hseen⟩ := hf r hr
    refine ⟨f r, (hmem _).mpr ⟨r, hr, rfl⟩, ?_⟩
    rw [hseen]
    exact hsame
  · intro a ha
    obtain ⟨r, hr, rfl⟩ := (hmem a).mp ha
    obtain ⟨time, hseen⟩ := hf r hr
    rw [hseen]
    exact h.back r hr

end AddressContext

theorem DiscoverHostCall.storeAddresses_spec (c : DiscoverHostCall) (host : Host)
    (s : VlanLinkStore) :
    (c.storeAddresses host s).1.interfaces = s.interfaces ∧
      (c.storeAddresses host s).1.subnetVlans = s.subnetVlans ∧
      AddressesKept host.id s.ipAddresses (c.storeAddresses host s).1.ipAddresses := by
  unfold storeAddresses
  split_ifs
  · exact ⟨rfl, rfl, .refl _ _⟩
  split
  · exact ⟨rfl, rfl, .refl _ _⟩
  next stage _ =>
    have hupsert : (c.addressContext host stage).conflictBehavior = .upsert := rfl
    have hkept := AddressContext.addressesKept_foldUntil hupsert s.ipAddresses
      c.stamped.request.ipAddresses
    have hrefresh : AddressContext.RefreshesStored (Lts.foldUntil (c.addressContext host stage).step
        { rows := s.ipAddresses } c.stamped.request.ipAddresses).1 := by
      refine Lts.invariant_of_foldUntil (fun u hu => (not_mem_nil hu).elim) ?_
      exact fun a _ t t' ht hstep => ht.step hupsert hstep
    split
    next addresses hrun =>
      rw [hrun] at hkept
      exact ⟨rfl, rfl, hkept⟩
    next addresses hrun =>
      rw [hrun] at hkept hrefresh
      exact ⟨rfl, rfl, AddressContext.addressesKept_update hkept hrefresh⟩

theorem LinksSound.addresses (h : LinksSound s) (hinterfaces : s'.interfaces = s.interfaces)
    (hlinks : s'.subnetVlans = s.subnetVlans)
    (hkept : AddressesKept hostId s.ipAddresses s'.ipAddresses) : LinksSound s' := by
  constructor
  · intro subnetId vlanId
    rw [hlinks, h.matched subnetId vlanId]
    constructor
    · rintro ⟨i, hi, hlive, hnative, a, ha, haLive, hsubnet, hlinked⟩
      obtain ⟨a', ha', hid, -, hsubnet', hlive'⟩ := hkept.rows a ha
      refine ⟨i, hinterfaces ▸ hi, hlive, hnative, a', ha', hlive'.trans haLive,
        hsubnet'.trans hsubnet, ?_⟩
      rw [hid]
      exact hlinked
    · rintro ⟨i, hi, hlive, hnative, a', ha', haLive, hsubnet, hlinked⟩
      rw [hinterfaces] at hi
      obtain ⟨a, ha, hid, -⟩ := h.home i hi a'.id hlinked
      obtain ⟨a'', ha'', hid'', -, hsubnet'', hlive''⟩ := hkept.rows a ha
      have hsame : a'' = a' := s'.ipAddresses.eq_of_key ha'' ha' (hid''.trans hid)
      subst hsame
      refine ⟨i, hi, hlive, hnative, a, ha, hlive''.symm.trans haLive,
        hsubnet''.symm.trans hsubnet, ?_⟩
      rw [hid]
      exact hlinked
  · intro i hi
    rw [hinterfaces] at hi
    exact (h.home i hi).mono hkept

end Addresses

section Interfaces
variable {ips : RowTable IPAddressBase} {t t' : InterfaceTable} {env : ChildEnv}
  {collected : InterfaceDataComplete} {stage stage' : InterfaceStage} {entry : SnmpInterface}

theorem exists_of_kept (h : Kept neighborReference hostId t t') {i : SnmpInterface} (hi : i ∈ t')
    (hother : i.base.hostId ≠ hostId) :
    ∃ i₀ ∈ t, i = i₀ ∨ i = SnmpInterface.setNeighbor i₀ none := by
  obtain ⟨i₀, hi₀, hkey, howner⟩ := h.back i hi hother
  have hother₀ : i₀.base.hostId ≠ hostId := howner ▸ hother
  rcases h.rows i₀ hi₀ hother₀ with hmem | ⟨-, -, -, hmem⟩
  · exact ⟨i₀, hi₀, .inl (t'.eq_of_key hi hmem hkey.symm)⟩
  · exact ⟨i₀, hi₀, .inr (t'.eq_of_key hi hmem hkey.symm)⟩

theorem linkedAtHome_mergeReport {existing : SnmpInterface} (h : LinkedAtHome ips entry) :
    LinkedAtHome ips (InterfaceTable.mergeReport entry existing collected) := by
  intro id hid
  have hframe := preserveUncollectedData_frame
    (preserveImmutableFields { entry with id := existing.id } existing) existing
    collected
  obtain ⟨a, ha, hid', hhost⟩ := h id (hframe.2.2.2.symm.trans hid)
  exact ⟨a, ha, hid', hhost.trans hframe.1.symm⟩

theorem linkedAtHome_newReport {env : IngestEnv} (h : LinkedAtHome ips entry) :
    LinkedAtHome ips (InterfaceTable.newReport env entry) := by
  unfold newReport
  split_ifs <;> exact h

theorem InterfaceStage.home_step (h : ∀ i ∈ stage.table, LinkedAtHome ips i)
    (hentry : ∀ id, entry.base.ipAddressId = some id →
      ∃ a ∈ ips, a.id = id ∧ a.base.hostId = host.id)
    (hstep : InterfaceStage.step env host collected stage entry = some stage') :
    ∀ i ∈ stage'.table, LinkedAtHome ips i := by
  unfold InterfaceStage.step at hstep
  dsimp only at hstep
  split at hstep
  next table row hingest =>
    cases hstep
    intro i hi
    have hrow : LinkedAtHome ips row := by
      rcases createOrUpdateFromDiscovery_cases hingest with
        ⟨existing, -, rfl, -⟩ | ⟨-, rfl, -⟩
      · exact linkedAtHome_mergeReport hentry
      · exact linkedAtHome_newReport hentry
    replace hi : i ∈ table.rows := hi
    rcases createOrUpdateFromDiscovery_cases hingest with
      ⟨-, -, -, hrows⟩ | ⟨-, -, hrows, -⟩
    · rw [hrows] at hi
      obtain ⟨j, hj, rfl⟩ := List.mem_map.mp hi
      split_ifs
      · exact hrow
      · exact h j hj
    · rw [hrows, mem_append, mem_singleton] at hi
      rcases hi with hi | rfl
      · exact h i hi
      · exact hrow
  next =>
    split at hstep
    · exact absurd hstep (some_ne_none _).symm
    · cases hstep
      exact h

theorem InterfaceStage.table_of_skipped
    (hstep : InterfaceStage.step env host collected stage entry = some stage')
    (hskipped : stage'.skipped ≠ stage.skipped) : stage'.table = stage.table := by
  unfold InterfaceStage.step at hstep
  dsimp only at hstep
  split at hstep
  next =>
    cases hstep
    exact absurd rfl hskipped
  next =>
    split at hstep
    · exact absurd hstep (some_ne_none _).symm
    · cases hstep
      rfl

theorem home_pruneInterfaces (h : ∀ i ∈ t, LinkedAtHome ips i) (kept : List Uuid) :
    ∀ i ∈ t.pruneInterfaces hostId kept, LinkedAtHome ips i := by
  unfold pruneInterfaces
  refine List.foldlRecOn (motive := fun t => ∀ i ∈ t, LinkedAtHome ips i) (t.getForHost hostId) _ h
    fun t ht j _ => ?_
  split_ifs
  · exact ht
  · intro i hi
    obtain ⟨i₀, hi₀, rfl⟩ := List.mem_map.mp hi
    have hhome := ht i₀ (Table.mem_delete.mp hi₀).1
    unfold releaseNeighbor
    split_ifs <;> exact hhome

def DiscoverHostCall.NamesOwn (c : DiscoverHostCall) (hostId : Uuid)
    (ipAddresses : RowTable IPAddressBase) : Prop :=
  ∀ entry ∈ c.stamped.interfaces, ∀ id, entry.base.ipAddressId = some id →
    BelongsTo ipAddresses (fun a => a.base.hostId) hostId id

namespace DiscoverHostCall

theorem interfaceStep_eq_some (h : c.interfaceStep host ips stage entry = some stage') :
    InterfaceStage.step c.childEnv host c.stamped.request.interfaceDataComplete stage entry =
        some stage' ∧
      (stage'.skipped ≠ stage.skipped ∨
        ∀ id, entry.base.ipAddressId = some id → ∃ a ∈ ips, a.id = id) := by
  obtain ⟨hstep, hcheck⟩ := filter_eq_some_iff.mp h
  refine ⟨hstep, ?_⟩
  rcases (Bool.or_eq_true _ _).mp hcheck with hskipped | hstored
  · exact .inl (of_decide_eq_true hskipped)
  · refine .inr fun id hid => ?_
    rw [hid] at hstored
    obtain ⟨a, ha, heq⟩ := List.any_eq_true.mp hstored
    exact ⟨a, ha, of_decide_eq_true heq⟩

theorem home_interfaceStep (h : ∀ i ∈ stage.table, LinkedAtHome ips i)
    (hown : ∀ id, entry.base.ipAddressId = some id →
      BelongsTo ips (fun a => a.base.hostId) host.id id)
    (hstep : c.interfaceStep host ips stage entry = some stage') :
    ∀ i ∈ stage'.table, LinkedAtHome ips i := by
  obtain ⟨hstep, hskipped | hstored⟩ := interfaceStep_eq_some hstep
  · exact InterfaceStage.table_of_skipped hstep hskipped ▸ h
  · refine InterfaceStage.home_step h (fun id hid => ?_) hstep
    obtain ⟨a, ha, rfl⟩ := hstored id hid
    exact ⟨a, ha, rfl, hown _ hid a ha rfl⟩

theorem storeInterfaces_spec (hhome : ∀ i ∈ s.interfaces, LinkedAtHome s.ipAddresses i)
    (hown : c.NamesOwn host.id s.ipAddresses) :
    (c.storeInterfaces host s).1.ipAddresses = s.ipAddresses ∧
      (c.storeInterfaces host s).1.subnetVlans = s.subnetVlans ∧
      Kept neighborReference host.id s.interfaces (c.storeInterfaces host s).1.interfaces ∧
      ∀ i ∈ (c.storeInterfaces host s).1.interfaces, LinkedAtHome s.ipAddresses i := by
  have hkept : Kept neighborReference host.id s.interfaces (Lts.foldUntil
      (c.interfaceStep host s.ipAddresses) { table := s.interfaces }
      c.stamped.interfaces).1.table := by
    refine Lts.invariant_of_foldUntil (P := fun stage : InterfaceStage =>
      Kept neighborReference host.id s.interfaces stage.table) (Kept.refl _ _ _) ?_
    intro entry _ t t' ht hstep
    exact ht.trans (InterfaceStage.kept_step (interfaceStep_eq_some hstep).1)
  have hloop : ∀ i ∈ (Lts.foldUntil (c.interfaceStep host s.ipAddresses)
      { table := s.interfaces } c.stamped.interfaces).1.table, LinkedAtHome s.ipAddresses i := by
    refine Lts.invariant_of_foldUntil (P := fun stage : InterfaceStage =>
      ∀ i ∈ stage.table, LinkedAtHome s.ipAddresses i) hhome ?_
    exact fun entry hentry t t' ht hstep => home_interfaceStep ht (hown entry hentry) hstep
  unfold storeInterfaces
  split
  next stage hrun =>
    rw [hrun] at hkept hloop
    exact ⟨rfl, rfl, hkept, hloop⟩
  next stage hrun =>
    rw [hrun] at hkept hloop
    refine ⟨rfl, rfl, ?_, ?_⟩
    · dsimp only
      split_ifs
      · exact hkept.trans (kept_pruneInterfaces _ _ _)
      · exact hkept
    · dsimp only
      split_ifs
      · exact home_pruneInterfaces hloop _
      · exact hloop

theorem storeInterfaces_of_isEmpty (hempty : c.stamped.interfaces.isEmpty = true) :
    c.storeInterfaces host s = (s, true) := by
  unfold storeInterfaces
  rw [List.isEmpty_iff.mp hempty]
  simp [Lts.foldUntil, shouldPruneInterfaces]

end DiscoverHostCall
end Interfaces

section Links

namespace VlanLinkStore

theorem mem_ipAddressesOfHost {a : IPAddress} :
    a ∈ s.ipAddressesOfHost hostId ↔
      ∃ r ∈ s.ipAddresses, r.isLive = true ∧ r.base.hostId = hostId ∧ r.toRow = a := by
  unfold ipAddressesOfHost
  simp only [mem_insertionSort, List.mem_map, mem_filter, Bool.and_eq_true,
    decide_eq_true_eq, and_assoc]
  rfl

theorem mem_freshVlanIds {subnetId vlanId : Uuid} :
    vlanId ∈ s.freshVlanIds subnetId ↔ Observed s subnetId vlanId := by
  unfold freshVlanIds interfacesByIpAddressIds ipAddressesOfSubnet
  dsimp only
  rw [mem_dedup, mem_insertionSort]
  simp only [mem_filterMap, mem_filter,
    Bool.and_eq_true, Option.any_eq_true, contains_iff_mem, List.mem_map, decide_eq_true_eq]
  constructor
  · rintro ⟨i, ⟨hi, hlive, _, hlinked, _, ⟨a, ⟨ha, haLive, hsubnet⟩, rfl⟩, rfl⟩, hnative⟩
    exact ⟨i, hi, hlive, hnative, a, ha, haLive, hsubnet, hlinked⟩
  · rintro ⟨i, hi, hlive, hnative, a, ha, haLive, hsubnet, hlinked⟩
    exact ⟨i, ⟨hi, hlive, a.id, hlinked, a.toRow, ⟨a, ⟨ha, haLive, hsubnet⟩, rfl⟩, rfl⟩, hnative⟩

theorem mem_planInterfaceIpLinks {interfaces : List SnmpInterface} {ipAddresses : List IPAddress}
    {link : Uuid × Uuid} (h : link ∈ planInterfaceIpLinks interfaces ipAddresses) :
    ∃ a ∈ ipAddresses, a.id = link.2 := by
  obtain ⟨i, -, hlink⟩ := mem_filterMap.mp h
  obtain ⟨id, hplanned, rfl⟩ := map_eq_some_iff.mp hlink
  unfold plannedLink at hplanned
  split_ifs at hplanned
  · obtain ⟨a, hfind, hid⟩ := map_eq_some_iff.mp hplanned
    exact ⟨a, mem_of_find?_eq_some hfind, hid⟩
  · obtain ⟨mac, -, hplanned⟩ := bind_eq_some_iff.mp hplanned
    obtain ⟨a, hfind, hid⟩ := map_eq_some_iff.mp hplanned
    exact ⟨a, mem_reverse.mp (mem_of_find?_eq_some hfind), hid⟩

theorem kept_linkInterface {t t' : InterfaceTable} {i : SnmpInterface}
    (hkept : Kept neighborReference hostId s.interfaces t) (hi : i ∈ s.interfaces.getForHost hostId)
    (ipAddressId : Uuid)
    (hupdate : t.update { i with base := { i.base with ipAddressId := some ipAddressId } } =
      some t') : Kept neighborReference hostId s.interfaces t' := by
  obtain ⟨hmem, -, hhost⟩ := mem_getForHost.mp hi
  have hbelongs : BelongsTo s.interfaces (fun j : SnmpInterface => j.base.hostId) hostId i.id := by
    intro j hj hid
    rw [s.interfaces.eq_of_key hj hmem hid]
    exact hhost
  have hset : t' = t.set { i with base := { i.base with ipAddressId := some ipAddressId } } := by
    apply Table.ext_rows
    rw [rows_update hupdate]
    exact map_congr_left fun j _ => if_congr eq_comm rfl rfl
  rw [hset]
  exact hkept.trans (kept_set hhost (hbelongs.mono hkept))

theorem linkInterfacesToIpAddresses_spec
    (hhome : ∀ i ∈ s.interfaces, LinkedAtHome s.ipAddresses i) :
    Kept neighborReference hostId s.interfaces (s.linkInterfacesToIpAddresses hostId).interfaces ∧
      ∀ i ∈ (s.linkInterfacesToIpAddresses hostId).interfaces, LinkedAtHome s.ipAddresses i := by
  unfold linkInterfacesToIpAddresses
  refine List.foldlRecOn (motive := fun t => Kept neighborReference hostId s.interfaces t ∧
    ∀ i ∈ t, LinkedAtHome s.ipAddresses i) _ _ ⟨Kept.refl _ _ _, hhome⟩ ?_
  rintro t ⟨hkept, ht⟩ i hi
  split
  next _ ipAddressId hfind =>
    cases hupdate : InterfaceTable.update t
        { i with base := { i.base with ipAddressId := some ipAddressId } } with
    | none => exact ⟨hkept, ht⟩
    | some t' =>
      refine ⟨kept_linkInterface hkept hi ipAddressId hupdate, fun j hj => ?_⟩
      replace hj : j ∈ t'.rows := hj
      rw [rows_update hupdate] at hj
      obtain ⟨j₀, hj₀, rfl⟩ := List.mem_map.mp hj
      split_ifs
      · obtain ⟨a, ha, hid⟩ := mem_planInterfaceIpLinks (mem_of_find?_eq_some hfind)
        obtain ⟨r, hr, -, hhost, rfl⟩ := mem_ipAddressesOfHost.mp ha
        intro id heq
        cases heq
        exact ⟨r, hr, hid, hhost.trans (mem_getForHost.mp hi).2.2.symm⟩
      · exact ht j₀ hj₀
  next => exact ⟨hkept, ht⟩

end VlanLinkStore

variable {l : SubnetVlanRecordBase} {subnetId : Uuid}

theorem mem_saveForSubnet {links : List SubnetVlanRecordBase}
    {vlanIds : List Uuid} :
    l ∈ saveForSubnet links subnetId vlanIds ↔
      (l.subnetId = subnetId ∧ l.vlanId ∈ vlanIds) ∨ (l.subnetId ≠ subnetId ∧ l ∈ links) := by
  obtain ⟨lSubnet, lVlan⟩ := l
  unfold saveForSubnet
  by_cases hsubnet : lSubnet = subnetId
  · subst hsubnet
    by_cases hlink : ⟨lSubnet, lVlan⟩ ∈ links <;> simp [hlink]
  · have hsubnet' : subnetId ≠ lSubnet := fun h => hsubnet h.symm
    simp [hsubnet, hsubnet']

theorem mem_foldl_saveForSubnet {fresh : Uuid → List Uuid}
    (subnetIds : List Uuid) (links : List SubnetVlanRecordBase) :
    l ∈ subnetIds.foldl (fun links id => saveForSubnet links id (fresh id)) links ↔
      (l.subnetId ∈ subnetIds ∧ l.vlanId ∈ fresh l.subnetId) ∨
        (l.subnetId ∉ subnetIds ∧ l ∈ links) := by
  induction subnetIds generalizing links with
  | nil => simp
  | cons id ids ih =>
    rw [foldl_cons, ih, mem_saveForSubnet]
    by_cases hid : l.subnetId = id
    · subst hid
      simp only [mem_cons_self, not_true, true_and, false_and, or_false, ne_eq]
      tauto
    · simp only [mem_cons, hid, false_or, false_and, ne_eq, not_false_eq_true, true_and]

theorem observed_of_kept (hips : s'.ipAddresses = s.ipAddresses)
    (hkept : Kept neighborReference hostId s.interfaces s'.interfaces)
    (hhome : ∀ i ∈ s.interfaces, LinkedAtHome s.ipAddresses i)
    (hhome' : ∀ i ∈ s'.interfaces, LinkedAtHome s.ipAddresses i)
    (hnone : ∀ a ∈ s.ipAddresses, a.isLive = true → a.base.subnetId = subnetId →
      a.base.hostId ≠ hostId) (vlanId : Uuid) :
    Observed s subnetId vlanId ↔ Observed s' subnetId vlanId := by
  -- the host of an interface is the host of its address
  have hother : ∀ i : SnmpInterface, LinkedAtHome s.ipAddresses i → ∀ a ∈ s.ipAddresses,
      a.isLive = true → a.base.subnetId = subnetId → i.base.ipAddressId = some a.id →
      i.base.hostId ≠ hostId := by
    intro i hi a ha hlive hsubnet hlinked
    obtain ⟨a', ha', hid, hhost⟩ := hi a.id hlinked
    rw [s.ipAddresses.eq_of_key ha' ha hid] at hhost
    rw [← hhost]
    exact hnone a ha hlive hsubnet
  constructor
  · rintro ⟨i, hi, hlive, hnative, a, ha, haLive, hsubnet, hlinked⟩
    have hhost := hother i (hhome i hi) a ha haLive hsubnet hlinked
    rw [← hips] at ha
    rcases hkept.rows i hi hhost with hmem | ⟨-, -, -, hmem⟩
    · exact ⟨i, hmem, hlive, hnative, a, ha, haLive, hsubnet, hlinked⟩
    · exact ⟨_, hmem, hlive, hnative, a, ha, haLive, hsubnet, hlinked⟩
  · rintro ⟨i, hi, hlive, hnative, a, ha, haLive, hsubnet, hlinked⟩
    rw [hips] at ha
    have hhost := hother i (hhome' i hi) a ha haLive hsubnet hlinked
    obtain ⟨i₀, hi₀, rfl | rfl⟩ := exists_of_kept hkept hi hhost
    · exact ⟨i, hi₀, hlive, hnative, a, ha, haLive, hsubnet, hlinked⟩
    · exact ⟨i₀, hi₀, hlive, hnative, a, ha, haLive, hsubnet, hlinked⟩

theorem LinksSound.reconcile (h : LinksSound s) (hips : s'.ipAddresses = s.ipAddresses)
    (hlinks : s'.subnetVlans = s.subnetVlans)
    (hkept : Kept neighborReference hostId s.interfaces s'.interfaces)
    (hhome : ∀ i ∈ s'.interfaces, LinkedAtHome s.ipAddresses i) (previous : List Uuid) :
    LinksSound (s'.reconcileSubnetVlansForHost hostId previous) := by
  refine ⟨fun subnetId vlanId => ?_, ?_⟩
  · show _ ∈ List.foldl _ _ _ ↔ Observed s' subnetId vlanId
    rw [mem_foldl_saveForSubnet, VlanLinkStore.mem_freshVlanIds, hlinks, h.matched]
    by_cases hmem :
        subnetId ∈ previous ++ (s'.ipAddressesOfHost hostId).map (·.base.subnetId)
    · simp only [hmem, true_and, not_true, false_and, or_false]
    · simp only [hmem, false_and, false_or, not_false_eq_true, true_and]
      refine observed_of_kept hips hkept h.home hhome ?_ vlanId
      intro a ha hlive hsubnet hhost
      refine hmem (mem_append_right _ (List.mem_map.mpr ⟨a.toRow, ?_, hsubnet⟩))
      rw [← hips] at ha
      exact VlanLinkStore.mem_ipAddressesOfHost.mpr ⟨a, ha, hlive, hhost, rfl⟩
  · show ∀ i ∈ s'.interfaces, LinkedAtHome s'.ipAddresses i
    rw [hips]
    exact hhome

end Links

section Calls

namespace DiscoverHostCall

/-- The row of an interface cannot be written at its turn, and the interface cannot be skipped
either: it is matched with a stored one and takes a name that another one of the host has, or it
names an address that is not stored. -/
def interfaceRefused (c : DiscoverHostCall) (host : Host) (ipAddresses : RowTable IPAddressBase)
    (stage : InterfaceStage) (entry : SnmpInterface) : Bool :=
  let reported := SnmpInterface.normalizeBlankIdentity { entry with base := { entry.base with
    hostId := host.id, networkId := host.base.networkId } }
  let unknownAddress := !entry.base.ipAddressId.all fun id => ipAddresses.rows.any (·.id = id)
  match stage.table.findMatchingExisting reported (stage.created.map (·.id)) with
  | some existing => unknownAddress || stage.table.ifNameTaken
      (InterfaceTable.mergeReport reported existing c.stamped.request.interfaceDataComplete)
  | none => unknownAddress && (stage.table.insert (InterfaceTable.newReport
      ⟨c.childEnv.scanTime, c.childEnv.now,
        c.childEnv.newInterfaceId (stage.created.length + stage.skipped)⟩ reported)).isSome

theorem interfaceStep_eq_none_iff {ips : RowTable IPAddressBase} {stage : InterfaceStage}
    {entry : SnmpInterface} : c.interfaceStep host ips stage entry = none ↔
      c.interfaceRefused host ips stage entry = true := by
  unfold interfaceStep interfaceRefused InterfaceStage.step
    createOrUpdateFromDiscovery
  dsimp only
  generalize (entry.base.ipAddressId.all fun id => ips.rows.any (·.id = id)) = stored
  generalize normalizeBlankIdentity { entry with base := { entry.base with
    hostId := host.id, networkId := host.base.networkId } } = reported
  cases hmatch : stage.table.findMatchingExisting reported (stage.created.map (·.id)) with
  | some existing =>
    dsimp only
    rw [InterfaceTable.update]
    cases stage.table.ifNameTaken _ <;> cases stored <;> simp
  | none =>
    dsimp only
    cases stage.table.insert _ <;> cases stored <;> simp

def interfaceLoop (c : DiscoverHostCall) (host : Host) (s : VlanLinkStore) :
    Lts InterfaceStage SnmpInterface where
  init := { table := s.interfaces }
  step := c.interfaceStep host s.ipAddresses

def Settles (s : VlanLinkStore) (c : DiscoverHostCall) : Prop :=
  ∀ hosts host, c.resolveHost s = .ok (hosts, host) →
    c.NamesOwn host.id s.ipAddresses ∧
      ∀ after, c.storeAddresses host { s with hosts } = (after, true) →
        (c.interfaceLoop host after).Guarded
          (fun stage entry => c.interfaceRefused host after.ipAddresses stage entry = false)
          { table := after.interfaces } c.stamped.interfaces

theorem storeInterfaces_of_guarded (h : (c.interfaceLoop host s).Guarded
    (fun stage entry => c.interfaceRefused host s.ipAddresses stage entry = false)
    { table := s.interfaces } c.stamped.interfaces) :
    (c.storeInterfaces host s).2 = true := by
  have hturns : (c.interfaceLoop host s).Guarded
      (fun stage entry => (c.interfaceLoop host s).step stage entry ≠ none)
      { table := s.interfaces } c.stamped.interfaces := by
    refine (Lts.guarded_congr (fun stage entry => ?_) _ _).mp h
    rw [← Bool.not_eq_true, ← interfaceStep_eq_none_iff]
    rfl
  have hend := Lts.foldUntil_of_guarded hturns
  unfold storeInterfaces
  split
  next hrun =>
    have hstop : (Lts.foldUntil (c.interfaceStep host s.ipAddresses) { table := s.interfaces }
      c.stamped.interfaces).2 = false := by rw [hrun]
    exact absurd (hstop.symm.trans hend) Bool.false_ne_true
  next => rfl

end DiscoverHostCall

theorem LinksSound.interfaces (h : LinksSound s) (hown : c.NamesOwn host.id s.ipAddresses)
    (previous : List Uuid) :
    LinksSound (((c.storeInterfaces host s).1.linkInterfacesToIpAddresses
      host.id).reconcileSubnetVlansForHost host.id previous) := by
  obtain ⟨hips, hlinks, hkept, hhome⟩ := DiscoverHostCall.storeInterfaces_spec h.home hown
  rw [← hips] at hhome
  obtain ⟨hkept', hhome'⟩ := VlanLinkStore.linkInterfacesToIpAddresses_spec hhome
  rw [hips] at hhome'
  have hips' : ((c.storeInterfaces host s).1.linkInterfacesToIpAddresses host.id).ipAddresses =
    s.ipAddresses := hips
  exact h.reconcile hips' hlinks (hkept.trans hkept') hhome' previous

theorem LinksSound.discoverHost (h : LinksSound s) (hsettles : c.Settles s) :
    LinksSound (c.discoverHost s).1 := by
  unfold DiscoverHostCall.discoverHost
  split
  · exact h
  next hosts host hresolve =>
    obtain ⟨hown, hloop⟩ := hsettles hosts host hresolve
    obtain ⟨hinterfaces, hlinks, hkept⟩ := c.storeAddresses_spec host { s with hosts }
    have hstart : LinksSound { s with hosts } := ⟨h.matched, h.home⟩
    have haddresses := hstart.addresses hinterfaces hlinks hkept
    split
    next after hstored =>
      rw [hstored] at haddresses
      exact haddresses
    next after hstored =>
      have hend := DiscoverHostCall.storeInterfaces_of_guarded (hloop after hstored)
      rw [hstored] at haddresses hkept
      have hown' : c.NamesOwn host.id after.ipAddresses :=
        fun entry hentry id hid => hkept.belongsTo (hown entry hentry id hid)
      split
      next hstopped =>
        rw [hstopped] at hend
        exact absurd hend Bool.false_ne_true
      next settled hcompleted =>
        have hall := haddresses.interfaces hown' (c.previousSubnets s)
        rw [hcompleted] at hall
        dsimp only
        split_ifs with hempty
        · rw [DiscoverHostCall.storeInterfaces_of_isEmpty hempty] at hcompleted
          cases hcompleted
          exact haddresses
        · exact hall

/-- In every run whose calls all settle, the links of every subnet are what is observed on it. -/
theorem linksMatch_of_settledCalls {init : VlanLinkStore} (hinit : LinksSound init)
    (h : (discoverHostLts init).ReachableVia (fun s c => c.Settles s) s) : LinksMatch s := by
  have hsound : LinksSound s := by
    refine h.invariant hinit ?_
    intro s c s' _ hs hsettles hstep
    cases hstep
    exact hs.discoverHost hsettles
  exact hsound.matched

end Calls

section Renumbered

def renumberedStore : VlanLinkStore where
  hosts := laptopStore.hosts
  subnets := laptopStore.subnets
  ipAddresses := laptopStore.ipAddresses
  interfaces := ⟨[], List.nodup_nil⟩
  subnetVlans := []

def renumberedInterface (id : Uuid) (index : ℤ) (name : Option String) (mac : Option MacAddress)
    (vlan : Option Uuid) : SnmpInterface :=
  ⟨id, 0, 0, none, none, {
    hostId := Uuid.nil, networkId := 9, ifIndex := index, ifDescr := "", macAddress := mac
    ipAddressId := none, neighbor := none, nativeVlanId := vlan, vlanIds := none, ifName := name }⟩

def renumberedCall (interfaces : List SnmpInterface) : DiscoverHostCall where
  env := laptopEnv
  childEnv := switchEnv
  limitCtx := none
  submission := {
    request := { laptopRequest [laptopAddress 41 Uuid.nil 0x0A000005 0x3C22FB010203 5] with
      interfaces := interfaces.map (Row.map (·.toInterfaceBase)) }
    ports := []
    services := []
    interfaces
    ports_eq := rfl
    services_eq := rfl
    interfaces_eq := rfl }
  portsStored := true
  owner := fun _ => none
  servicesStored := true

def firstScan : DiscoverHostCall :=
  renumberedCall [renumberedInterface 70 1 (some "eth0") (some 0x3C22FB010203) (some 40),
    renumberedInterface 71 2 none none none]

def renumberedScan : DiscoverHostCall :=
  renumberedCall [renumberedInterface 72 1 (some "eth0") (some 0x3C22FB010203) (some 41),
    renumberedInterface 73 2 (some "eth0") none none]

theorem linksSound_renumberedStore : LinksSound renumberedStore := by
  refine ⟨fun subnetId vlanId => ?_, fun i hi => absurd hi not_mem_nil⟩
  refine iff_of_false not_mem_nil ?_
  rintro ⟨i, hi, -⟩
  exact not_mem_nil hi

theorem settles_firstScan : firstScan.Settles renumberedStore := by
  rintro hosts host hresolve
  refine ⟨?_, ?_⟩
  · intro entry hentry id hid
    have hnone : ∀ entry ∈ firstScan.stamped.interfaces, entry.base.ipAddressId = none := by
      decide
    rw [hnone entry hentry] at hid
    exact absurd hid.symm (some_ne_none id)
  · have hok : Except.ok _ = Except.ok (hosts, host) := hresolve
    obtain ⟨rfl, rfl⟩ := Prod.mk.inj (Except.ok.inj hok)
    intro after hafter
    obtain ⟨rfl, -⟩ := Prod.mk.inj hafter
    refine ⟨by decide +kernel, fun stage hstage => ?_⟩
    obtain rfl := some.inj (show some _ = some stage from hstage)
    exact ⟨by decide +kernel, fun _ _ => trivial⟩

/-- The first scan settles: the VLAN is linked to the subnet. -/
theorem linksMatch_of_settledCalls_firstScan :
    (discoverHostLts renumberedStore).ReachableVia (fun s c => c.Settles s)
        (firstScan.discoverHost renumberedStore).1 ∧
      LinksMatch (firstScan.discoverHost renumberedStore).1 ∧
      Observed (firstScan.discoverHost renumberedStore).1 20 40 := by
  have hreach : (discoverHostLts renumberedStore).ReachableVia (fun s c => c.Settles s)
      (firstScan.discoverHost renumberedStore).1 := .step .init settles_firstScan rfl
  have hmatch := linksMatch_of_settledCalls linksSound_renumberedStore hreach
  exact ⟨hreach, hmatch, (hmatch 20 40).mp (by decide +kernel)⟩

/-- The second scan fails at its second interface, when the first one has lost its address: no
interface is on the subnet, and the link is still there. -/
theorem not_linksMatch_of_calls : ¬∀ (init s : VlanLinkStore) (calls : List DiscoverHostCall),
    LinksSound init → (discoverHostLts init).run init calls = some s → LinksMatch s := by
  intro h
  have hmatch := h renumberedStore _ [firstScan, renumberedScan] linksSound_renumberedStore rfl
  obtain ⟨i, hi, -, -, a, -, -, -, hlinked⟩ := (hmatch 20 40).mp (by decide +kernel)
  have hnone : ∀ i ∈ (renumberedScan.discoverHost
      (firstScan.discoverHost renumberedStore).1).1.interfaces.rows,
      i.base.ipAddressId = none := by decide +kernel
  rw [hnone i hi] at hlinked
  exact absurd hlinked.symm (some_ne_none a.id)

end Renumbered
end Scanopy
