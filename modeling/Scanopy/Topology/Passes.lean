import Scanopy.Topology.Links

/-! What a pass over the ports of a network does to the table. No lookup reads the neighbour of a
row, and a pass writes nothing else, so it is one update of the selected rows. -/

namespace Scanopy
open List Lookup SnmpInterface

def SnmpInterface.forgetNeighbor (i : SnmpInterface) : SnmpInterface :=
  SnmpInterface.setNeighbor i none

namespace NetworkInventory

def forgetNeighbors (inv : NetworkInventory) : NetworkInventory :=
  { inv with interfaces := inv.interfaces.modify SnmpInterface.forgetNeighbor fun _ => rfl }

theorem eq_of_rows {inv inv' : NetworkInventory} (hhosts : inv.hosts = inv'.hosts)
    (haddresses : inv.ipAddresses = inv'.ipAddresses)
    (hrows : inv.interfaces.rows = inv'.interfaces.rows) : inv = inv' := by
  obtain ⟨hosts, ipAddresses, ⟨rows, nodup⟩⟩ := inv
  obtain ⟨hosts', ipAddresses', ⟨rows', nodup'⟩⟩ := inv'
  cases hhosts
  cases haddresses
  cases hrows
  rfl

section Forget
variable (inv : NetworkInventory) (parseMac : String → Option MacAddress)

theorem liveInterface_forget {A : Type} {f : SnmpInterface → A}
    (hf : ∀ i, f (SnmpInterface.forgetNeighbor i) = f i) (id : Uuid) :
    (inv.forgetNeighbors.liveInterface id).map f = (inv.liveInterface id).map f :=
  map_find?_map (g := forgetNeighbor) (fun _ => rfl) hf inv.interfaces.rows

theorem findHostByIfName_forget (name : String) (networkId : Uuid) :
    inv.forgetNeighbors.findHostByIfName name networkId = inv.findHostByIfName name networkId :=
  map_find?_map (g := forgetNeighbor) (fun _ => rfl) (fun _ => rfl)
    inv.interfaces.rows

theorem interfacesByMac_forget (mac : MacAddress) (hostId : Uuid) :
    inv.forgetNeighbors.interfacesByMac mac hostId =
      (inv.interfacesByMac mac hostId).map SnmpInterface.forgetNeighbor :=
  filter_map_of_eq (g := forgetNeighbor) (fun _ => rfl) inv.interfaces.rows

theorem findIfEntryByMacAddr_forget (mac : MacAddress) (hostId : Uuid) :
    inv.forgetNeighbors.findIfEntryByMacAddr mac hostId = inv.findIfEntryByMacAddr mac hostId := by
  rw [findIfEntryByMacAddr, findIfEntryByMacAddr, interfacesByMac_forget]
  match inv.interfacesByMac mac hostId with
  | [] => rfl
  | [i] => rfl
  | i :: j :: l => rfl

theorem findIfEntryByMac_forget (mac : String) (hostId : Uuid) :
    inv.forgetNeighbors.findIfEntryByMac parseMac mac hostId =
      inv.findIfEntryByMac parseMac mac hostId := by
  unfold findIfEntryByMac
  simp only [findIfEntryByMacAddr_forget]

theorem findIfEntryByName_forget (name : String) (hostId : Uuid) :
    inv.forgetNeighbors.findIfEntryByName name hostId = inv.findIfEntryByName name hostId := by
  refine firstOfTiers_map (g := forgetNeighbor) (fun p hp i => ?_) (fun _ => rfl)
    inv.interfaces.rows
  obtain ⟨n, -, hp⟩ := mem_flatMap.mp hp
  simp only [nameColumns, map_cons, map_nil, mem_cons, not_mem_nil, or_false] at hp
  rcases hp with rfl | rfl | rfl
  · rfl
  · rfl
  · rfl

theorem findIfEntryByIp_forget (ip : IpAddr) (hostId : Uuid) :
    inv.forgetNeighbors.findIfEntryByIp ip hostId = inv.findIfEntryByIp ip hostId := by
  refine congrArg (Option.bind _) (funext fun a => ?_)
  exact map_find?_map (g := forgetNeighbor) (fun _ => rfl) (fun _ => rfl)
    inv.interfaces.rows

theorem findIfEntryByIfIndex_forget (ifIndex : ℤ) (hostId : Uuid) :
    inv.forgetNeighbors.findIfEntryByIfIndex ifIndex hostId =
      inv.findIfEntryByIfIndex ifIndex hostId :=
  map_find?_map (g := forgetNeighbor) (fun _ => rfl) (fun _ => rfl)
    inv.interfaces.rows

theorem findHostByMac_forget (mac : String) (networkId : Uuid) :
    inv.forgetNeighbors.findHostByMac parseMac mac networkId =
      inv.findHostByMac parseMac mac networkId := by
  refine congrArg (Option.bind _) (funext fun macAddr => ?_)
  refine congrArg (Option.or _) (congrArg (fun l => onlyMatch (List.dedup l)) ?_)
  show List.map _ (List.filter _ (inv.interfaces.rows.map _)) = _
  rw [filter_map_of_eq (g := forgetNeighbor) (fun _ => rfl), map_map]
  rfl

theorem resolveHostId_forget (c : LldpChassisId) (networkId : Uuid) (sysName : Option String) :
    inv.forgetNeighbors.resolveHostId parseMac c networkId sysName =
      inv.resolveHostId parseMac c networkId sysName := by
  have hsubtype : inv.forgetNeighbors.findHostBySubtype parseMac networkId c =
      inv.findHostBySubtype parseMac networkId c := by
    cases c with
    | macAddress mac => exact findHostByMac_forget inv parseMac mac networkId
    | interfaceName name => exact findHostByIfName_forget inv name networkId
    | networkAddress _ | chassisComponent _ | locallyAssigned _ | interfaceAlias _
    | portComponent _ => rfl
  unfold resolveHostId
  rw [hsubtype]
  rfl

theorem resolveIfEntryId_forget (p : LldpPortId) (hostId : Uuid) :
    inv.forgetNeighbors.resolveIfEntryId parseMac p hostId =
      inv.resolveIfEntryId parseMac p hostId := by
  have hlocal : ∀ id, inv.forgetNeighbors.resolveDeviceLocalPort id hostId =
      inv.resolveDeviceLocalPort id hostId := by
    intro id
    unfold resolveDeviceLocalPort
    simp only [findIfEntryByName_forget, findIfEntryByIfIndex_forget]
  cases p with
  | macAddress mac => exact findIfEntryByMac_forget inv parseMac mac hostId
  | networkAddress ip =>
    exact congrArg IdentityResolution.found (findIfEntryByIp_forget inv ip hostId)
  | interfaceAlias id | interfaceName id | portComponent id | agentCircuitId id
  | locallyAssigned id => exact hlocal id

theorem advertisedPort_forget (i : SnmpInterface) (hostId : Uuid) :
    inv.forgetNeighbors.advertisedPort parseMac i hostId = inv.advertisedPort parseMac i hostId := by
  unfold advertisedPort
  simp only [resolveIfEntryId_forget, findIfEntryByName_forget]

theorem deviceVerdict_forget (networkId : Uuid) (i : SnmpInterface) :
    inv.forgetNeighbors.deviceVerdict parseMac networkId i =
      inv.deviceVerdict parseMac networkId i := by
  have hlive := fun id => liveInterface_forget inv (f := fun i => i.base.hostId) (fun _ => rfl) id
  unfold deviceVerdict
  simp only [hlive, resolveHostId_forget]
  rfl

theorem reExaminePortBinding_forget (pair : Option (Uuid × Uuid)) (i : SnmpInterface)
    (boundId : Uuid) : inv.forgetNeighbors.reExaminePortBinding pair i boundId =
      inv.reExaminePortBinding pair i boundId := by
  have hlive := liveInterface_forget inv
    (f := fun i => (i.base.macAddress, i.base.hostId)) (fun _ => rfl) boundId
  unfold reExaminePortBinding
  simp only [findIfEntryByMacAddr_forget]
  cases hbound : inv.liveInterface boundId with
  | none =>
    rw [hbound, Option.map_none, Option.map_eq_none_iff] at hlive
    rw [hlive]
  | some bound =>
    rw [hbound, Option.map_some] at hlive
    obtain ⟨bound', hbound', heq⟩ := Option.map_eq_some_iff.mp hlive
    rw [Prod.mk.injEq] at heq
    simp only [hbound', heq.1, heq.2]

theorem resolveNeighbor_forget (hostOf : IdentityResolution) (pair : Option (Uuid × Uuid))
    (i : SnmpInterface) : inv.forgetNeighbors.resolveNeighbor parseMac hostOf pair i =
      inv.resolveNeighbor parseMac hostOf pair i := by
  unfold resolveNeighbor resolveTiers
  simp only [reExaminePortBinding_forget, advertisedPort_forget]

theorem fdbNeighbor_forget (networkId : Uuid) (i : SnmpInterface) :
    inv.forgetNeighbors.fdbNeighbor parseMac networkId i =
      inv.fdbNeighbor parseMac networkId i := by
  unfold fdbNeighbor
  simp only [findHostByMac_forget, findIfEntryByMac_forget]

end Forget

/-- A pass over the selected rows of the store, in which each row is given what `neighborOf` finds
in the store as it is at its turn. -/
def runPass (selects : SnmpInterface → Bool)
    (neighborOf : NetworkInventory → SnmpInterface → Option Neighbor) (inv : NetworkInventory) :
    NetworkInventory :=
  (inv.interfaces.rows.filter selects).foldl
    (fun current i => current.persistNeighbor i (neighborOf current i)) inv

def afterPass (selects : SnmpInterface → Bool) (neighborOf : SnmpInterface → Option Neighbor)
    (i : SnmpInterface) : SnmpInterface :=
  if selects i then SnmpInterface.setNeighbor i (neighborOf i) else i

theorem id_afterPass (selects : SnmpInterface → Bool)
    (neighborOf : SnmpInterface → Option Neighbor) (i : SnmpInterface) :
    (afterPass selects neighborOf i).id = i.id := by
  unfold afterPass
  split_ifs
  · rfl
  · rfl

section Pass
variable {selects : SnmpInterface → Bool}
  {neighborOf : NetworkInventory → SnmpInterface → Option Neighbor} {inv : NetworkInventory}
variable {current : NetworkInventory} {i : SnmpInterface}

theorem eq_of_forgetNeighbors
    (hcurrent : current.forgetNeighbors = inv.forgetNeighbors) {j : SnmpInterface}
    (hi : i ∈ inv.interfaces) (hj : j ∈ current.interfaces) (hid : i.id = j.id) :
    SnmpInterface.forgetNeighbor j = SnmpInterface.forgetNeighbor i := by
  have hmem : forgetNeighbor j ∈ inv.forgetNeighbors.interfaces := by
    rw [← hcurrent]
    exact mem_map_of_mem hj
  have hmem' : forgetNeighbor i ∈ inv.forgetNeighbors.interfaces := mem_map_of_mem hi
  exact inv.forgetNeighbors.interfaces.eq_of_key hmem hmem' hid.symm

theorem persistNeighbor_forget
    (hcurrent : current.forgetNeighbors = inv.forgetNeighbors)
    (hi : i ∈ inv.interfaces) (neighbor : Option Neighbor) :
    (current.persistNeighbor i neighbor).forgetNeighbors = inv.forgetNeighbors := by
  rw [persistNeighbor]
  split_ifs with hchanged
  · rw [← hcurrent]
    have hrows : (current.interfaces.rows.map fun j => if i.id = j.id then
        setNeighbor i neighbor else j).map forgetNeighbor =
        current.interfaces.rows.map forgetNeighbor := by
      rw [map_map]
      refine map_congr_left fun j hj => ?_
      show forgetNeighbor (if i.id = j.id then _ else j) = _
      split_ifs with hid
      · exact (eq_of_forgetNeighbors hcurrent hi hj hid).symm
      · rfl
    exact eq_of_rows rfl rfl hrows
  · exact hcurrent

def saveInterfaces (inv : NetworkInventory) (rows : List SnmpInterface) : NetworkInventory :=
  { inv with interfaces := inv.interfaces.updateMany rows (·.id) (fun u _ => u) fun _ _ h => h }

def passUpdates (neighborOf : SnmpInterface → Option Neighbor) (rows : List SnmpInterface) :
    List SnmpInterface :=
  (rows.filter fun i => neighborOf i ≠ i.base.neighbor).map fun i =>
    SnmpInterface.setNeighbor i (neighborOf i)

variable (hsees : ∀ inv i, neighborOf inv.forgetNeighbors i = neighborOf inv i)
include hsees

theorem foldl_persistNeighbor
    {rows : List SnmpInterface} (hrows : ∀ i ∈ rows, i ∈ inv.interfaces)
    (hcurrent : current.forgetNeighbors = inv.forgetNeighbors) :
    rows.foldl (fun current i => current.persistNeighbor i (neighborOf current i)) current =
      current.saveInterfaces (passUpdates (neighborOf inv) rows) := by
  induction rows generalizing current with
  | nil => rfl
  | cons i rows ih =>
    have hi := hrows i mem_cons_self
    have hfound : neighborOf current i = neighborOf inv i := by
      rw [← hsees current, hcurrent, hsees]
    have hnext := persistNeighbor_forget hcurrent hi (neighborOf inv i)
    rw [foldl_cons, hfound, ih (fun j hj => hrows j (mem_cons_of_mem i hj)) hnext]
    unfold persistNeighbor passUpdates
    by_cases hchanged : neighborOf inv i ≠ i.base.neighbor
    · rw [if_pos hchanged, filter_cons, if_pos (decide_eq_true hchanged)]
      rfl
    · rw [if_neg hchanged, filter_cons, if_neg (by rwa [decide_eq_true_iff])]

theorem runPass_eq_saveInterfaces :
    runPass selects neighborOf inv =
      inv.saveInterfaces (passUpdates (neighborOf inv) (inv.interfaces.rows.filter selects)) :=
  foldl_persistNeighbor hsees (fun _ hi => (mem_filter.mp hi).1) rfl

theorem rows_runPass :
    (runPass selects neighborOf inv).interfaces.rows =
      inv.interfaces.rows.map (afterPass selects (neighborOf inv)) := by
  rw [runPass_eq_saveInterfaces hsees, passUpdates, filter_filter]
  show (inv.interfaces.updateMany _ (·.id) (fun u _ => u) fun _ _ h => h).rows = _
  rw [Table.rows_updateMany inv.interfaces _
    (fun i => setNeighbor i (neighborOf inv i)) fun _ => rfl]
  refine map_congr_left fun i _ => ?_
  rw [afterPass]
  by_cases hselects : selects i = true
  · by_cases hchanged : neighborOf inv i = i.base.neighbor
    · rw [hchanged, if_neg (by simp), if_pos hselects]
      rfl
    · simp [hselects, hchanged]
  · simp [hselects]

theorem hosts_runPass :
    (runPass selects neighborOf inv).hosts = inv.hosts := by
  rw [runPass_eq_saveInterfaces hsees]
  rfl

theorem ipAddresses_runPass :
    (runPass selects neighborOf inv).ipAddresses = inv.ipAddresses := by
  rw [runPass_eq_saveInterfaces hsees]
  rfl

theorem forgetNeighbors_runPass :
    (runPass selects neighborOf inv).forgetNeighbors = inv.forgetNeighbors := by
  have hrows : (runPass selects neighborOf inv).interfaces.rows.map forgetNeighbor =
      inv.interfaces.rows.map forgetNeighbor := by
    rw [rows_runPass hsees, map_map]
    refine map_congr_left fun i _ => ?_
    rw [Function.comp_apply, afterPass]
    split_ifs
    · rfl
    · rfl
  exact eq_of_rows (hosts_runPass hsees) (ipAddresses_runPass hsees) hrows

end Pass

section Links
variable (parseMac : String → Option MacAddress) (networkId : Uuid) (inv : NetworkInventory)

/-- What the pass over LLDP and CDP leaves on a port. -/
def lldpNeighbor (i : SnmpInterface) : Option Neighbor :=
  inv.resolveNeighbor parseMac (inv.deviceVerdict parseMac networkId i)
    (inv.reciprocal parseMac networkId i) i

theorem rows_resolveLldpLinks : (inv.resolveLldpLinks parseMac networkId).interfaces.rows =
    inv.interfaces.rows.map
      (afterPass (namesNeighbor networkId) (inv.lldpNeighbor parseMac networkId)) :=
  rows_runPass fun inv' i => resolveNeighbor_forget inv' parseMac _ _ i

theorem forgetNeighbors_resolveLldpLinks :
    (inv.resolveLldpLinks parseMac networkId).forgetNeighbors = inv.forgetNeighbors :=
  forgetNeighbors_runPass fun inv' i => resolveNeighbor_forget inv' parseMac _ _ i

theorem setNeighbor_eq_iff {i : SnmpInterface} {n : Option Neighbor} :
    SnmpInterface.setNeighbor i n = i ↔ n = i.base.neighbor := by
  constructor
  · intro h
    exact congrArg (fun j : SnmpInterface => j.base.neighbor) h
  · rintro rfl
    rfl

theorem resolveLldpLinks_eq_self_iff : inv.resolveLldpLinks parseMac networkId = inv ↔
    ∀ i ∈ inv.interfaces, namesNeighbor networkId i = true →
      inv.lldpNeighbor parseMac networkId i = i.base.neighbor := by
  have hsees := fun inv' i => resolveNeighbor_forget inv' parseMac
    (inv.deviceVerdict parseMac networkId i) (inv.reciprocal parseMac networkId i) i
  have hrows : inv.resolveLldpLinks parseMac networkId = inv ↔
      (inv.resolveLldpLinks parseMac networkId).interfaces.rows = inv.interfaces.rows := by
    constructor
    · intro h
      rw [h]
    · exact eq_of_rows (hosts_runPass hsees) (ipAddresses_runPass hsees)
  have hself : ∀ f : SnmpInterface → SnmpInterface,
      inv.interfaces.rows.map f = inv.interfaces.rows ↔ ∀ i ∈ inv.interfaces.rows, f i = i := by
    intro f
    have hid := map_inj_left (l := inv.interfaces.rows) (f := f) (g := id)
    rwa [map_id] at hid
  rw [hrows, rows_resolveLldpLinks, hself]
  refine forall₂_congr fun i _ => ?_
  rw [afterPass]
  cases namesNeighbor networkId i with
  | false => exact iff_of_true rfl fun h => absurd h Bool.false_ne_true
  | true => exact setNeighbor_eq_iff.trans ⟨fun h _ => h, fun h => h rfl⟩

theorem resolveFdbLinks_eq_runPass : inv.resolveFdbLinks parseMac networkId =
    runPass (hasUnresolvedFdb networkId) (fun inv i => inv.fdbNeighbor parseMac networkId i) inv := by
  refine foldl_ext _ _ _ fun current i hi => ?_
  have hnone : i.base.neighbor = none := by
    have hsel := (mem_filter.mp hi).2
    simp only [hasUnresolvedFdb, Bool.and_eq_true, Option.isNone_iff_eq_none] at hsel
    exact hsel.1.1.2
  beta_reduce
  cases current.fdbNeighbor parseMac networkId i with
  | none =>
    rw [persistNeighbor, hnone]
    rfl
  | some neighbor =>
    rw [persistNeighbor, hnone]
    rfl

theorem rows_resolveFdbLinks : (inv.resolveFdbLinks parseMac networkId).interfaces.rows =
    inv.interfaces.rows.map
      (afterPass (hasUnresolvedFdb networkId) (inv.fdbNeighbor parseMac networkId)) := by
  rw [resolveFdbLinks_eq_runPass]
  exact rows_runPass fun inv' i => fdbNeighbor_forget inv' parseMac networkId i

end Links
end NetworkInventory
end Scanopy
