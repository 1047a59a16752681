import Scanopy.Graph.Forest

/-! The ids of a request. Every id belongs to one table, and no two rows of a table share one; the ids
that are made from names are of a kind of their own, and the names of a request get different ones. -/

namespace Scanopy.Graph

open List

namespace Inventory
variable (inv : Inventory)

structure WellKeyed (env : BuildEnv) (kind : Uuid → EntityDiscriminants) : Prop where
  hosts : (inv.hosts.map (·.id)).Nodup
  services : (inv.services.map (·.id)).Nodup
  ipAddresses : (inv.ipAddresses.map (·.id)).Nodup
  interfaces : (inv.interfaces.map (·.id)).Nodup
  host_kind : ∀ h ∈ inv.hosts, kind h.id = .host
  service_kind : ∀ s ∈ inv.services, kind s.id = .service
  ipAddress_kind : ∀ i ∈ inv.ipAddresses, kind i.id = .ipAddress
  interface_kind : ∀ e ∈ inv.interfaces, kind e.id = .interface
  subnet_kind : ∀ s ∈ inv.subnets, kind s.id = .subnet
  address_subnet_kind : ∀ i ∈ inv.ipAddresses, kind i.subnetId = .subnet
  port_address_kind : ∀ e ∈ inv.interfaces, ∀ id, e.ipAddressId = some id → kind id = .ipAddress
  newV5_kind : ∀ name, kind (env.newV5 name) = .topology
  ungrouped_kind : kind ungroupedContainerId = .unknown

def hostIds : List Uuid :=
  inv.hosts.map (·.id) ++ inv.services.map (·.hostId) ++ inv.interfaces.map (·.hostId)

def managerIds : List Uuid :=
  inv.hosts.filterMap (·.virtualizationServiceId) ++
    inv.services.filterMap (·.virtualizationServiceId)

def projects : List String :=
  inv.services.filterMap fun s => s.virtualizationMetadata.bind (·.composeProject)

def subnetIds : List Uuid := inv.subnets.map (·.id) ++ inv.ipAddresses.map (·.subnetId)

inductive IsBoxName : IdName → Prop
  | l2Host {hostId : Uuid} (h : hostId ∈ inv.hostIds) : IsBoxName (.l2Host hostId)
  | workloadsHost {hostId : Uuid} (h : hostId ∈ inv.hostIds) : IsBoxName (.workloadsHost hostId)
  | applicationTag {tag : Tag} (h : tag ∈ inv.tags) : IsBoxName (.applicationTag tag.id)

def IsBox (env : BuildEnv) (id : Uuid) : Prop :=
  id ∈ inv.subnetIds ∨ id = ungroupedContainerId ∨ ∃ name, inv.IsBoxName name ∧ id = env.newV5 name

def KnowsKey : GroupKey → Prop
  | .virtualizer serviceId => serviceId ∈ inv.managerIds
  | .stack project => project ∈ inv.projects
  | .matched | .trunk | .vlan _ | .status _ => True

def names (env : BuildEnv) (rules : List (IdentifiedRule ElementRule)) : Set IdName :=
  {name | inv.IsBoxName name ∨ ∃ g : Group, ∃ r ∈ rules,
    inv.IsBox env g.parentId ∧ inv.KnowsKey g.key ∧ name = g.idName r.id}

end Inventory

theorem Group.idName_ne_boxName {inv : Inventory} {g : Group} {ruleId : Uuid} {name : IdName}
    (h : inv.IsBoxName name) : g.idName ruleId ≠ name := by
  obtain ⟨parentId, key, elementIds⟩ := g
  cases h <;> cases key <;> exact nofun

structure Request (inv : Inventory) (options : TopologyRequestOptions) (env : BuildEnv)
    (kind : Uuid → EntityDiscriminants) : Prop where
  keyed : inv.WellKeyed env kind
  rules : (options.elementRules.map (·.id)).Nodup
  names : Set.InjOn env.newV5 (inv.names env options.elementRules)

/-- Without rules and tags, what ids are made up for are the boxes of hosts. -/
theorem Inventory.injOn_names {inv : Inventory} {env : BuildEnv} {ids : List Uuid}
    (hids : inv.hostIds ⊆ ids) (htags : inv.tags = [])
    (hnodup : ((ids.flatMap fun id => [IdName.l2Host id, .workloadsHost id]).map env.newV5).Nodup) :
    Set.InjOn env.newV5 (inv.names env []) := by
  have hnames : ∀ name ∈ inv.names env [],
      name ∈ ids.flatMap fun id => [IdName.l2Host id, .workloadsHost id] := by
    rintro name (hname | ⟨-, r, hr, -⟩)
    · cases hname with
      | l2Host hid => exact mem_flatMap.mpr ⟨_, hids hid, mem_cons_self⟩
      | workloadsHost hid =>
        exact mem_flatMap.mpr ⟨_, hids hid, mem_cons_of_mem _ mem_cons_self⟩
      | applicationTag htag => exact absurd (htags ▸ htag) not_mem_nil
    · exact absurd hr not_mem_nil
  exact fun name hname name' hname' heq =>
    inj_on_of_nodup_map hnodup (hnames name hname) (hnames name' hname') heq

section Rules
variable {inv : Inventory} {options : TopologyRequestOptions} {env : BuildEnv}
  {kind : Uuid → EntityDiscriminants} {view : TopologyView}
variable {input : RuleInput}

theorem Request.viewRules (h : Request inv options env kind) (view : TopologyView) :
    ((GroupingConfig.fromRequestOptions options view).elementRules.map (·.id)).Nodup :=
  h.rules.sublist (filter_sublist.map _)

theorem mem_of_mem_viewRules {r : IdentifiedRule ElementRule}
    (h : r ∈ (GroupingConfig.fromRequestOptions options view).elementRules) :
    r ∈ options.elementRules := (mem_filter.mp h).1

theorem madeNames_subset
    (hbox : ∀ id d parentId, input.matchData id = some d → input.IsIn id parentId →
      inv.IsBox env parentId)
    (hkey : ∀ id d (rule : ElementRule) k, input.matchData id = some d → rule.key d = some k →
      inv.KnowsKey k) :
    input.MadeNames (GroupingConfig.fromRequestOptions options view).elementRules ⊆
      inv.names env options.elementRules := by
  rintro name ⟨r, hr, g, ⟨id, d, hin, hd, hk⟩, rfl⟩
  exact .inr ⟨g, r, mem_of_mem_viewRules hr, hbox id d g.parentId hd hin, hkey id d r.rule g.key hd hk, rfl⟩

theorem Request.ne_of_madeName (h : Request inv options env kind)
    {rules : List (IdentifiedRule ElementRule)}
    (hsub : input.MadeNames rules ⊆ inv.names env options.elementRules) {id : Uuid}
    (hid : kind id ≠ .topology ∨ ∃ name, inv.IsBoxName name ∧ id = env.newV5 name) {name : IdName}
    (hname : name ∈ input.MadeNames rules) : id ≠ env.newV5 name := by
  rintro rfl
  obtain hkind | ⟨box, hbox, heq⟩ := hid
  · exact hkind (h.keyed.newV5_kind name)
  · have hboxname := h.names (hsub hname) (.inl hbox) heq
    obtain ⟨r, -, g, -, rfl⟩ := hname
    exact Group.idName_ne_boxName hbox hboxname

end Rules

section KnownKeys
variable {inv : Inventory} {d : ElementMatchData}

theorem knowsKey_of_key {rule : ElementRule} {k : GroupKey}
    (hvirtualizer : ∀ serviceId, d.virtualizerServiceId = some serviceId →
      serviceId ∈ inv.managerIds)
    (hproject : ∀ project, d.deploymentGroup = some project → project ∈ inv.projects)
    (h : rule.key d = some k) : inv.KnowsKey k := by
  cases k with
  | virtualizer serviceId => exact hvirtualizer serviceId (ElementRule.key_eq_virtualizer h)
  | stack project => exact hproject project (ElementRule.key_eq_stack h).2
  | matched | trunk | vlan vlanNumber | status status => exact trivial

end KnownKeys

end Scanopy.Graph
