import Scanopy.Storage.Conditions

/-! Filters as conjunctions. Whatever calls a filter is made of, a query with it returns the rows that
meet the condition of each of them. -/

namespace Scanopy

open List Clauses Clauses.Token Sql

namespace StorableFilter

abbrev RowCondition := SqlDatabase → SqlRow → Prop

section RowConditions
variable (T : FilterEntity) (column : String)

def Is (value : SqlValue) : RowCondition := fun _ row => row (qualifyColumn T column) = some value

/-- Nothing is one of none. -/
def IsOneOf (values : List SqlValue) : RowCondition := fun _ row =>
  ∃ value ∈ values, row (qualifyColumn T column) = some value

def IsNoneOf (values : List SqlValue) : RowCondition := fun _ row =>
  ∃ u, row (qualifyColumn T column) = some u ∧ u ∉ values

def IsBefore (t : Timestamp) : RowCondition := fun _ row =>
  ∃ u, row (qualifyColumn T column) = some (.timestamp u) ∧ u < t

def IsBetween (first last : Timestamp) : RowCondition := fun _ row =>
  (∃ u, row (qualifyColumn T column) = some (.timestamp u) ∧ first ≤ u) ∧
    ∃ u, row (qualifyColumn T column) = some (.timestamp u) ∧ u ≤ last

def IsNull : RowCondition := fun _ row => row (qualifyColumn T column) = none

def IsNotNull : RowCondition := fun _ row => row (qualifyColumn T column) ≠ none

/-- The field `type` of a JSON column is the text. -/
def HasType (value : String) : RowCondition := fun _ row =>
  row (jsonField column "type") = some (.string value)

def HasOtherType (value : String) : RowCondition := fun _ row =>
  ∃ u, row (jsonField column "type") = some u ∧ u ≠ .string value

/-- The row was live at `t`. -/
def AsOf (t : Timestamp) : RowCondition := fun _ row =>
  (∃ u, row (qualifyColumn T "valid_from") = some (.timestamp u) ∧ u ≤ t) ∧
    (row (qualifyColumn T "valid_to") = none ∨
      ∃ u, row (qualifyColumn T "valid_to") = some (.timestamp u) ∧ t < u)

def LiveOrAsOf : Option Timestamp → RowCondition
  | some t => AsOf T t
  | none => IsNull T "valid_to"

def IdOrLineageIn (ids : List Uuid) : RowCondition := fun _ row =>
  ∃ id ∈ ids, row (qualifyColumn T "id") = some (.uuid id) ∨
    row (qualifyColumn T "lineage_id") = some (.uuid id)

/-- One of the fragments is true with the pattern in it. Nothing matches a blank query. -/
def Matches (query : String) : RowCondition := fun db row =>
  trim query ≠ "" ∧ ∃ p ∈ T.searchPredicates, db.Satisfies row
    (p.mapParams fun _ => some (.string ("%" ++ escapeLike (trim query) ++ "%")))

def managedColumn : String := jsonField (qualifyColumn T "source") "type"

/-- What a discovery refreshes was last seen before the cutoff of its network, or what is not stale:
the rest. Without cutoffs there is nothing to compare with. -/
def IsStale (cutoffs : List (Uuid × Timestamp)) (stale : Bool) : RowCondition := fun _ row =>
  if stale then
    (∃ u, row (managedColumn T) = some u ∧ u ∈ managedNames) ∧ ∃ x ∈ cutoffs,
      row (qualifyColumn T "network_id") = some (.uuid x.1) ∧
        ∃ u, row (qualifyColumn T "last_seen_at") = some (.timestamp u) ∧ u < x.2
  else cutoffs ≠ [] ∧ ((∃ u, row (managedColumn T) = some u ∧ u ∉ managedNames) ∨ ∃ x ∈ cutoffs,
    row (qualifyColumn T "network_id") = some (.uuid x.1) ∧
      ∃ u, row (qualifyColumn T "last_seen_at") = some (.timestamp u) ∧ x.2 ≤ u)

def HasTag (tagIds : List Uuid) (entityType : EntityDiscriminants) : RowCondition := fun db row =>
  ∃ r ∈ db.tables "entity_tags", (r "entity_type" = some (.entityDiscriminant entityType) ∧
    ∃ id ∈ tagIds, r "tag_id" = some (.uuid id)) ∧
      ∃ v, row (qualifyColumn T "id") = some v ∧ r "entity_id" = some v

def HasPort (ports : List (BitVec 16)) : RowCondition := fun db row =>
  ∃ r ∈ db.tables "bindings b JOIN ports p ON b.port_id = p.id",
    (r "b.valid_to" = none ∧ r "p.valid_to" = none ∧
      ∃ port ∈ ports, r "p.port_number" = some (.i32 port.toNat)) ∧
        ∃ v, row (qualifyColumn T "id") = some v ∧ r "b.service_id" = some v

def AnyNotNull (columns : List String) : RowCondition := fun _ row =>
  ∃ column ∈ columns, row (qualifyColumn T column) ≠ none

def SingleFdbMac : RowCondition := fun _ row => row (qualifyColumn T "fdb_macs") ≠ none ∧
  row ("jsonb_array_length(" ++ qualifyColumn T "fdb_macs" ++ ")") = some (.i32 1)

def NeighborIs (hostId : Uuid) : RowCondition := fun db row =>
  row (qualifyColumn T "neighbor_host_id") = some (.uuid hostId) ∨
    ∃ r ∈ db.tables "interfaces", r "host_id" = some (.uuid hostId) ∧
      ∃ v, row (qualifyColumn T "neighbor_interface_id") = some v ∧ r "id" = some v

def UserManaged : RowCondition := fun _ row =>
  row (managedColumn T) = some (.string "Manual") ∨
    ∃ u, row (qualifyColumn T "subnet_type") = some u ∧
      ∀ category ∈ syntheticCategories, u ≠ .string category

end RowConditions

def both (P Q : RowCondition) : RowCondition := fun db row => P db row ∧ Q db row

def unlessEmpty {A : Type} (l : List A) (P : RowCondition) : RowCondition := fun db row =>
  l = [] ∨ P db row

inductive Builder (T : FilterEntity) : (StorableFilter T → StorableFilter T) → RowCondition → Prop
  | limit (n : BitVec 32) : Builder T (·.limit n) fun _ _ => True
  | offset (n : BitVec 32) : Builder T (·.offset n) fun _ _ => True
  | join (joinClause : String) : Builder T (·.join joinClause) fun _ _ => True
  | entityId (id : Uuid) : Builder T (·.entityId id) (Is T "id" (.uuid id))
  | entityIds (ids : List Uuid) : Builder T (·.entityIds ids) (IsOneOf T "id" (ids.map .uuid))
  | networkIds (ids : List Uuid) :
    Builder T (·.networkIds ids) (IsOneOf T "network_id" (ids.map .uuid))
  | userId (id : Uuid) : Builder T (·.userId id) (Is T "user_id" (.uuid id))
  | userIds (ids : List Uuid) : Builder T (·.userIds ids) (IsOneOf T "user_id" (ids.map .uuid))
  | hiddenIs (hidden : Bool) : Builder T (·.hiddenIs hidden) (Is T "hidden" (.bool hidden))
  | live : Builder T (·.live) (IsNull T "valid_to")
  | asOf (t : Timestamp) : Builder T (·.asOf t) (AsOf T t)
  | liveOrAsOf (at' : Option Timestamp) : Builder T (·.liveOrAsOf at') (LiveOrAsOf T at')
  | lineageId (id : Uuid) : Builder T (·.lineageId id) (Is T "lineage_id" (.uuid id))
  | snapshotId (id : Uuid) : Builder T (·.snapshotId id) (Is T "snapshot_id" (.uuid id))
  | idOrLineageIn (ids : List Uuid) : Builder T (·.idOrLineageIn ids) (IdOrLineageIn T ids)
  | takenAtLt (t : Timestamp) : Builder T (·.takenAtLt t) (IsBefore T "taken_at" t)
  | hostId (id : Uuid) : Builder T (·.hostId id) (Is T "host_id" (.uuid id))
  | subnetId (id : Uuid) : Builder T (·.subnetId id) (Is T "subnet_id" (.uuid id))
  | macAddress (mac : MacAddress) :
    Builder T (·.macAddress mac) (Is T "mac_address" (.macAddress mac))
  | passwordResetToken (token : String) :
    Builder T (·.passwordResetToken token) (Is T "password_reset_token" (.string token))
  | emailVerificationToken (token : String) :
    Builder T (·.emailVerificationToken token) (Is T "email_verification_token" (.string token))
  | name (name : String) : Builder T (·.name name) (Is T "name" (.string name))
  | textSearch (query : String) : Builder T (·.textSearch query) (Matches T query)
  | serviceDefinitionNotIn (definitions : List String) :
    Builder T (·.serviceDefinitionNotIn definitions)
      (unlessEmpty definitions (IsNoneOf T "service_definition" (definitions.map .string)))
  | dependencyId (id : Uuid) : Builder T (·.dependencyId id) (Is T "dependency_id" (.uuid id))
  | dependencyIds (ids : List Uuid) :
    Builder T (·.dependencyIds ids) (IsOneOf T "dependency_id" (ids.map .uuid))
  | bindingId (id : Uuid) : Builder T (·.bindingId id) (Is T "binding_id" (.uuid id))
  | hostIds (ids : List Uuid) : Builder T (·.hostIds ids) (IsOneOf T "host_id" (ids.map .uuid))
  | apiKey (apiKey : String) : Builder T (·.apiKey apiKey) (Is T "key" (.string apiKey))
  | jsonFieldEq (column key value : String) : Builder T (·.jsonFieldEq column key value) fun _ row =>
    row (jsonField (qualifyColumn T column) key) = some (.string value)
  | scheduledDiscovery : Builder T (·.scheduledDiscovery) (both (HasType "run_type" "Scheduled")
    fun _ row => row "(run_type->>'enabled')::boolean" = some (.bool true))
  | historicalDiscovery : Builder T (·.historicalDiscovery) (HasType "run_type" "Historical")
  | historicalSession (sessionId : Uuid) : Builder T (·.historicalSession sessionId)
    (both (HasType "run_type" "Historical")
      fun _ row => row "run_type->'results'->>'session_id'" = some (.string (uuidText sessionId)))
  | excludeHistorical : Builder T (·.excludeHistorical) (HasOtherType "run_type" "Historical")
  | rescanDiscovery : Builder T (·.rescanDiscovery) (HasType "discovery_type" "Rescan")
  | excludeRescans : Builder T (·.excludeRescans) (HasOtherType "discovery_type" "Rescan")
  | liveConfigs : Builder T (·.liveConfigs)
    (both (HasOtherType "run_type" "Historical") (HasOtherType "discovery_type" "Rescan"))
  | oidcSubject (subject : String) : Builder T (·.oidcSubject subject)
    (both (Is T "oidc_subject" (.string subject)) (IsNotNull T "oidc_provider"))
  | email (email : String) : Builder T (·.email email) (Is T "email" (.email email))
  | organizationId (id : Uuid) : Builder T (·.organizationId id) (Is T "organization_id" (.uuid id))
  | topologyId (id : Uuid) : Builder T (·.topologyId id) (Is T "topology_id" (.uuid id))
  | userPermissions (permissions : UserOrgPermissions) : Builder T (·.userPermissions permissions)
    (Is T "permissions" (.userOrgPermissions permissions))
  | userPermissionsIn (permissions : List UserOrgPermissions) :
    Builder T (·.userPermissionsIn permissions)
      (IsOneOf T "permissions" (permissions.map .userOrgPermissions))
  | expiresBefore (t : Timestamp) : Builder T (·.expiresBefore t) (IsBefore T "expires_at" t)
  | createdBefore (t : Timestamp) : Builder T (·.createdBefore t) (IsBefore T "created_at" t)
  | lastSeenBefore (t : Timestamp) : Builder T (·.lastSeenBefore t) (IsBefore T "last_seen_at" t)
  | staleByNetwork (cutoffs : List (Uuid × Timestamp)) (stale : Bool) :
    Builder T (·.staleByNetwork cutoffs stale) (IsStale T cutoffs stale)
  | updatedBefore (t : Timestamp) : Builder T (·.updatedBefore t) (IsBefore T "updated_at" t)
  | createdBetween (first last : Timestamp) :
    Builder T (·.createdBetween first last) (IsBetween T "created_at" first last)
  | updatedBetween (first last : Timestamp) :
    Builder T (·.updatedBetween first last) (IsBetween T "updated_at" first last)
  | validToBetween (first last : Timestamp) :
    Builder T (·.validToBetween first last) (IsBetween T "valid_to" first last)
  | lastSeenBetween (first last : Timestamp) :
    Builder T (·.lastSeenBetween first last) (IsBetween T "last_seen_at" first last)
  | u16Column (column : String) (value : BitVec 16) :
    Builder T (·.u16Column column value) (Is T column (.u16 value))
  | uuidColumn (column : String) (id : Uuid) :
    Builder T (·.uuidColumn column id) (Is T column (.uuid id))
  | uuidsColumn (column : String) (ids : List Uuid) :
    Builder T (·.uuidsColumn column ids) (IsOneOf T column (ids.map .uuid))
  | serviceId (id : Uuid) : Builder T (·.serviceId id) (Is T "service_id" (.uuid id))
  | daemonMode (mode : DaemonMode) : Builder T (·.daemonMode mode) (Is T "mode" (.daemonMode mode))
  | isUnreachable (isUnreachable : Bool) :
    Builder T (·.isUnreachable isUnreachable) (Is T "is_unreachable" (.bool isUnreachable))
  | standby (standby : Bool) : Builder T (·.standby standby) (Is T "standby" (.bool standby))
  | entityType (entityType : EntityDiscriminants) :
    Builder T (·.entityType entityType) (Is T "entity_type" (.entityDiscriminant entityType))
  | tagId (id : Uuid) : Builder T (·.tagId id) (Is T "tag_id" (.uuid id))
  | hasAnyTags (tagIds : List Uuid) (entityType : EntityDiscriminants) :
    Builder T (·.hasAnyTags tagIds entityType) (unlessEmpty tagIds (HasTag T tagIds entityType))
  | boundToPort (ports : List (BitVec 16)) :
    Builder T (·.boundToPort ports) (unlessEmpty ports (HasPort T ports))
  | ipAddress (ip : IpAddr) : Builder T (·.ipAddress ip) (Is T "ip_address" (.ipAddr ip))
  | ifDescr (descr : String) : Builder T (·.ifDescr descr) (Is T "if_descr" (.string descr))
  | ifName (name : String) : Builder T (·.ifName name) (Is T "if_name" (.string name))
  | ifAlias (name : String) : Builder T (·.ifAlias name) (Is T "if_alias" (.string name))
  | physicalIfTypes :
    Builder T (·.physicalIfTypes) (IsNoneOf T "if_type" (excludedIfTypes.map .i32))
  | ifIndex (ifIndex : ℤ) : Builder T (·.ifIndex ifIndex) (Is T "if_index" (.i32 ifIndex))
  | chassisId (chassisId : String) :
    Builder T (·.chassisId chassisId) (Is T "chassis_id" (.string chassisId))
  | sysName (sysName : String) : Builder T (·.sysName sysName) (Is T "sys_name" (.string sysName))
  | ipAddressId (id : Uuid) : Builder T (·.ipAddressId id) (Is T "ip_address_id" (.uuid id))
  | unresolvedLldpPortInNetwork (networkId : Uuid) :
    Builder T (·.unresolvedLldpPortInNetwork networkId)
      (both (both (both (Is T "network_id" (.uuid networkId))
        (AnyNotNull T ["lldp_chassis_id", "cdp_device_id", "cdp_address"]))
          (IsNull T "neighbor_interface_id")) (IsNull T "valid_to"))
  | lldpNeighborsInNetwork (networkId : Uuid) : Builder T (·.lldpNeighborsInNetwork networkId)
    (both (both (Is T "network_id" (.uuid networkId)) (AnyNotNull T ["lldp_chassis_id",
      "cdp_device_id", "cdp_address", "neighbor_interface_id", "neighbor_host_id"]))
        (IsNull T "valid_to"))
  | unresolvedFdbInNetwork (networkId : Uuid) : Builder T (·.unresolvedFdbInNetwork networkId)
    (both (both (both (both (both (both (Is T "network_id" (.uuid networkId)) (SingleFdbMac T))
      (IsNull T "neighbor_interface_id")) (IsNull T "neighbor_host_id"))
        (IsNull T "lldp_chassis_id")) (IsNull T "cdp_device_id")) (IsNull T "valid_to"))
  | hasNeighbor : Builder T (·.hasNeighbor)
    (AnyNotNull T ["neighbor_interface_id", "neighbor_host_id"])
  | hasNeighborIfEntry : Builder T (·.hasNeighborIfEntry) (IsNotNull T "neighbor_interface_id")
  | neighborHost (hostId : Uuid) : Builder T (·.neighborHost hostId) (NeighborIs T hostId)
  | withoutBrevoCompanyId : Builder T (·.withoutBrevoCompanyId) (IsNull T "brevo_company_id")
  | withBrevoCompanyId : Builder T (·.withBrevoCompanyId) (IsNotNull T "brevo_company_id")
  | stripeCustomerId (id : String) :
    Builder T (·.stripeCustomerId id) (Is T "stripe_customer_id" (.string id))
  | userManaged : Builder T (·.userManaged) (UserManaged T)

variable {T : FilterEntity} {apply : StorableFilter T → StorableFilter T} {P : RowCondition}

theorem Builder.describes (h : Builder T apply P) : Describes apply P := by
  cases h with
  | limit | offset | join => exact .of_eq (fun _ => rfl) fun _ => rfl
  | entityId | userId | hiddenIs | lineageId | snapshotId | hostId | subnetId | macAddress
  | passwordResetToken | emailVerificationToken | name | dependencyId | bindingId | apiKey | email
  | organizationId | topologyId | userPermissions | u16Column | uuidColumn | serviceId | daemonMode
  | isUnreachable | standby | entityType | tagId | ipAddress | ifDescr | ifName | ifAlias | ifIndex
  | chassisId | sysName | ipAddressId | stripeCustomerId => exact .columnEq _ _
  | entityIds | networkIds | userIds | dependencyIds | hostIds | userPermissionsIn | uuidsColumn =>
    exact .columnIn _ _
  | takenAtLt | expiresBefore | createdBefore | lastSeenBefore | updatedBefore =>
    exact .columnLt _ _
  | createdBetween | updatedBetween | validToBetween | lastSeenBetween => exact .columnBetween _ _ _
  | live | withoutBrevoCompanyId => exact .isNull _
  | hasNeighborIfEntry | withBrevoCompanyId => exact .isNotNull _
  | historicalDiscovery | rescanDiscovery => exact .literal_eq _ _
  | excludeHistorical | excludeRescans => exact .literal_ne _ _
  | asOf t => exact .asOf t
  | liveOrAsOf at' =>
    cases at' with
    | some t => exact .asOf t
    | none => exact .isNull _
  | idOrLineageIn ids => exact .idOrLineageIn ids
  | textSearch query => exact .textSearch query
  | serviceDefinitionNotIn definitions => exact .serviceDefinitionNotIn definitions
  | jsonFieldEq column key value => exact .param_eq _ _
  | scheduledDiscovery => exact (Describes.literal_eq _ _).comp (.literal_eq _ _)
  | historicalSession sessionId => exact (Describes.literal_eq _ _).comp (.param_eq _ _)
  | liveConfigs => exact (Describes.literal_ne _ _).comp (.literal_ne _ _)
  | oidcSubject subject => exact (Describes.columnEq _ _).comp (.isNotNull _)
  | staleByNetwork cutoffs stale => exact .staleByNetwork cutoffs stale
  | hasAnyTags tagIds entityType => exact .hasAnyTags tagIds entityType
  | boundToPort ports => exact .boundToPort ports
  | physicalIfTypes => exact .physicalIfTypes
  | unresolvedLldpPortInNetwork networkId =>
    exact (((Describes.columnEq _ _).comp (.anyNotNull (cons_ne_nil _ _))).comp
      (.isNull _)).comp (.isNull _)
  | lldpNeighborsInNetwork networkId =>
    exact ((Describes.columnEq _ _).comp (.anyNotNull (cons_ne_nil _ _))).comp (.isNull _)
  | unresolvedFdbInNetwork networkId =>
    exact ((((((Describes.columnEq _ _).comp .singleFdbMac).comp (.isNull _)).comp (.isNull _)).comp
      (.isNull _)).comp (.isNull _)).comp (.isNull _)
  | hasNeighbor => exact .anyNotNull (cons_ne_nil _ _)
  | neighborHost hostId => exact .neighborHost hostId
  | userManaged => exact .userManaged

structure FilterCall (T : FilterEntity) where
  apply : StorableFilter T → StorableFilter T
  Holds : RowCondition
  builder : Builder T apply Holds

inductive EmptyInput (T : FilterEntity) : (StorableFilter T → StorableFilter T) → Prop
  | entityIds : EmptyInput T (·.entityIds [])
  | networkIds : EmptyInput T (·.networkIds [])
  | userIds : EmptyInput T (·.userIds [])
  | idOrLineageIn : EmptyInput T (·.idOrLineageIn [])
  | dependencyIds : EmptyInput T (·.dependencyIds [])
  | hostIds : EmptyInput T (·.hostIds [])
  | userPermissionsIn : EmptyInput T (·.userPermissionsIn [])
  | uuidsColumn (column : String) : EmptyInput T (·.uuidsColumn column [])
  | staleByNetwork (stale : Bool) : EmptyInput T (·.staleByNetwork [] stale)

structure IsConjunction (f : StorableFilter T) (calls : List (FilterCall T)) : Prop where
  placeholders : ∀ k, param k ∈ f.whereClause ↔ 1 ≤ k ∧ k ≤ f.values.length
  /-- With the values in place, the conditions are those that each call writes on its own. -/
  conditions : f.boundConditions = calls.flatMap fun call => (call.apply new).boundConditions
  selects : ∀ db row, f.Selects db row ↔ ∀ call ∈ calls, call.Holds db row
  empty : ∀ call ∈ calls, EmptyInput T call.apply → ∀ db row, ¬f.Selects db row

def build (calls : List (FilterCall T)) : StorableFilter T :=
  calls.foldl (fun f call => call.apply f) new

namespace Appends
variable {f : StorableFilter T} {bounds : List (Sql (Option SqlValue))}

theorem boundConditions (h : Appends new f bounds) : f.boundConditions = bounds := by
  obtain ⟨added, vals, hconditions, hvalues, hbounds, -⟩ := h.written
  rw [← hbounds, StorableFilter.boundConditions, hconditions]
  rfl

theorem mem_whereClause (h : Appends new f bounds) (k : ℕ) :
    param k ∈ f.whereClause ↔ 1 ≤ k ∧ k ≤ f.values.length := by
  obtain ⟨added, vals, hconditions, hvalues, -, hplaceholders⟩ := h.written
  rw [whereClause, mem_intercalate (by nofun), hconditions]
  exact hplaceholders k

theorem selects_iff (h : Appends new f bounds) (db : SqlDatabase) (row : SqlRow) :
    f.Selects db row ↔ ∀ b ∈ bounds, db.Satisfies row b := by
  have hbounds : f.whereClause.mapParams (bound f.values) = [.and].intercalate bounds := by
    rw [← h.boundConditions, whereClause, mapParams_intercalate]
    rfl
  have hnil : f.conditions = [] ↔ bounds = [] := by
    rw [← h.boundConditions, StorableFilter.boundConditions, map_eq_nil_iff]
  rw [Selects, hbounds, hnil]
  by_cases hempty : bounds = []
  · simp [hempty]
  · rw [or_iff_right hempty, SqlDatabase.Satisfies,
      AtomReader.holds_intercalate hempty h.conjunctive, Truth.all_eq_true, forall_mem_map]
    rfl

end Appends

namespace FilterCall

def bounds (call : FilterCall T) : List (Sql (Option SqlValue)) := (call.apply new).boundConditions

theorem appends (call : FilterCall T) (f : StorableFilter T) :
    Appends f (call.apply f) call.bounds := by
  obtain ⟨bounds, happends, -⟩ := call.builder.describes
  rw [FilterCall.bounds, (happends new).boundConditions]
  exact happends f

theorem holds_iff (call : FilterCall T) (db : SqlDatabase) (row : SqlRow) :
    (∀ b ∈ call.bounds, db.Satisfies row b) ↔ call.Holds db row := by
  obtain ⟨bounds, happends, hholds⟩ := call.builder.describes
  rw [FilterCall.bounds, (happends new).boundConditions, hholds]

theorem bounds_of_emptyInput {call : FilterCall T} (h : EmptyInput T call.apply) :
    call.bounds = [[never]] := by
  unfold FilterCall.bounds
  cases call with
  | mk apply Holds builder => cases h with | _ => rfl

theorem appends_foldl (calls : List (FilterCall T)) (f : StorableFilter T) :
    Appends f (calls.foldl (fun f call => call.apply f) f) (calls.flatMap bounds) := by
  induction calls generalizing f with
  | nil => exact .of_eq rfl rfl
  | cons call calls ih => exact (call.appends f).trans (ih (call.apply f))

end FilterCall

/-- A filter is the conjunction of its builder calls, however many there are and whatever they are
given: every placeholder is one of `$1` to `$n` and each of these is used, the values stand where
their builders put them, and no condition reaches into another one. -/
theorem isConjunction_build (calls : List (FilterCall T)) : IsConjunction (build calls) calls := by
  have happends : Appends new (build calls) (calls.flatMap FilterCall.bounds) :=
    FilterCall.appends_foldl calls new
  have hselects (db : SqlDatabase) (row : SqlRow) :
      (build calls).Selects db row ↔ ∀ call ∈ calls, call.Holds db row := by
    rw [happends.selects_iff, forall_mem_flatMap]
    exact forall₂_congr fun call _ => call.holds_iff db row
  refine ⟨happends.mem_whereClause, happends.boundConditions, hselects, ?_⟩
  intro call hcall hempty db row hrow
  have hholds := (call.holds_iff db row).mpr ((hselects db row).mp hrow call hcall)
  rw [FilterCall.bounds_of_emptyInput hempty] at hholds
  exact SqlDatabase.satisfies_never (hholds _ mem_cons_self)

end StorableFilter
end Scanopy
