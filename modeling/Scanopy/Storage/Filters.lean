import Scanopy.Credentials.Tokens
import Scanopy.Interfaces.Service
import Scanopy.Lib.Clauses

/-! The WHERE clauses of queries. A filter is put together by calls that each add conditions, and the
values for their placeholders. -/

namespace Scanopy

open Clauses Clauses.Token

inductive DaemonMode
  | serverPoll | daemonPoll
  deriving DecidableEq

inductive UserOrgPermissions
  | owner | admin | member | viewer
  deriving DecidableEq

inductive SqlValue
  | uuid (id : Uuid)
  | string (s : String)
  | i32 (n : ℤ)
  | u16 (n : BitVec 16)
  | bool (b : Bool)
  | email (address : String)
  | timestamp (t : Timestamp)
  | uuidArray (ids : List Uuid)
  | ipAddr (ip : IpAddr)
  | macAddress (mac : MacAddress)
  | entityDiscriminant (entityType : EntityDiscriminants)
  | userOrgPermissions (permissions : UserOrgPermissions)
  | daemonMode (mode : DaemonMode)
  deriving DecidableEq

inductive Comparison
  | eq | ne | lt | le | gt | ge | ilike
  deriving DecidableEq

def Comparison.text : Comparison → String
  | eq => " = "
  | ne => " != "
  | lt => " < "
  | le => " <= "
  | gt => " > "
  | ge => " >= "
  | ilike => " ILIKE "

/-- What a condition is made of, next to connectives and parentheses. -/
inductive SqlWord (P : Type)
  | operand (expression : String)
  | literal (value : SqlValue)
  | param (p : P)
  | cmp (c : Comparison)
  | eqAny | isIn | isNotIn | isNull | isNotNull | comma | never
  | text (s : String)
  | select (column source : String)
  deriving DecidableEq

abbrev Sql (P : Type) := List (Token (SqlWord P))

namespace SqlWord
variable {P Q : Type}

def map (f : P → Q) : SqlWord P → SqlWord Q
  | operand expression => operand expression
  | literal value => literal value
  | param p => param (f p)
  | cmp c => cmp c
  | eqAny => eqAny
  | isIn => isIn
  | isNotIn => isNotIn
  | isNull => isNull
  | isNotNull => isNotNull
  | comma => comma
  | never => never
  | text s => text s
  | select column source => select column source

def toText : SqlWord ℕ → String
  | operand expression => expression
  | literal (.string s) => "'" ++ s ++ "'"
  | literal (.bool b) => toString b
  | literal (.i32 n) => toString n
  | literal _ => ""
  | param p => "$" ++ toString p
  | cmp c => c.text
  | eqAny => " = ANY"
  | isIn => " IN "
  | isNotIn => " NOT IN "
  | isNull => " IS NULL"
  | isNotNull => " IS NOT NULL"
  | comma => ", "
  | never => "FALSE"
  | text s => s
  | select column source => "SELECT " ++ column ++ " FROM " ++ source ++ " WHERE "

end SqlWord

namespace Sql
variable {P Q : Type}

@[match_pattern] abbrev operand (expression : String) : Token (SqlWord P) :=
  leaf (.operand expression)

@[match_pattern] abbrev literal (value : SqlValue) : Token (SqlWord P) := leaf (.literal value)

@[match_pattern] abbrev param (p : P) : Token (SqlWord P) := leaf (.param p)

@[match_pattern] abbrev comparison (c : Comparison) : Token (SqlWord P) := leaf (.cmp c)

@[match_pattern] abbrev eqAny : Token (SqlWord P) := leaf .eqAny

@[match_pattern] abbrev isIn : Token (SqlWord P) := leaf .isIn

@[match_pattern] abbrev isNotIn : Token (SqlWord P) := leaf .isNotIn

@[match_pattern] abbrev isNull : Token (SqlWord P) := leaf .isNull

@[match_pattern] abbrev isNotNull : Token (SqlWord P) := leaf .isNotNull

@[match_pattern] abbrev comma : Token (SqlWord P) := leaf .comma

@[match_pattern] abbrev never : Token (SqlWord P) := leaf .never

@[match_pattern] abbrev text (s : String) : Token (SqlWord P) := leaf (.text s)

@[match_pattern] abbrev select (column source : String) : Token (SqlWord P) :=
  leaf (.select column source)

def mapToken (f : P → Q) : Token (SqlWord P) → Token (SqlWord Q)
  | .leaf word => .leaf (word.map f)
  | .lparen => .lparen
  | .rparen => .rparen
  | .and => .and
  | .or => .or
  | .not => .not

def mapParams (f : P → Q) (sql : Sql P) : Sql Q := sql.map (mapToken f)

def tokenText : Token (SqlWord ℕ) → String
  | .leaf word => word.toText
  | .lparen => "("
  | .rparen => ")"
  | .and => " AND "
  | .or => " OR "
  | .not => "NOT "

def toText (sql : Sql ℕ) : String := String.join (sql.map tokenText)

def bound (values : List SqlValue) (p : ℕ) : Option SqlValue := if p = 0 then none else values[p - 1]?

def commaSeparated (tokens : List (Token (SqlWord P))) : Sql P :=
  [comma].intercalate (tokens.map ([·]))

/-- `count` placeholders after the first `start` ones. -/
def placeholders (start count : ℕ) : Sql ℕ :=
  commaSeparated ((List.range count).map fun i => param (start + i + 1))

end Sql

open Sql

/-- The values of the expressions over the columns of a row; NULL is `none`. -/
abbrev SqlRow := String → Option SqlValue

structure SqlDatabase where
  tables : String → List SqlRow
  ilike : String → String → Bool
  other : Sql (Option SqlValue) → SqlRow → Truth

namespace SqlDatabase
variable (db : SqlDatabase)

def compare : Comparison → SqlValue → SqlValue → Bool
  | .eq, a, b => a = b
  | .ne, a, b => a ≠ b
  | .lt, .timestamp a, .timestamp b => a < b
  | .le, .timestamp a, .timestamp b => a ≤ b
  | .gt, .timestamp a, .timestamp b => b < a
  | .ge, .timestamp a, .timestamp b => b ≤ a
  | .ilike, .string a, .string b => db.ilike a b
  | _, _, _ => false

def compareTruth (c : Comparison) : Option SqlValue → Option SqlValue → Truth
  | some a, some b => some (db.compare c a b)
  | _, _ => none

def isInTruth (a : Option SqlValue) (items : List (Option SqlValue)) : Truth :=
  Truth.any (items.map (db.compareTruth .eq a))

def termValue (row : SqlRow) : Token (SqlWord (Option SqlValue)) → Option (Option SqlValue)
  | operand expression => some (row expression)
  | literal value => some (some value)
  | param (some value) => some (some value)
  | _ => none

def listItems (row : SqlRow) : Sql (Option SqlValue) → Option (List (Option SqlValue))
  | [t, .rparen] => (termValue row t).map ([·])
  | t :: comma :: ts => do
    let item ← termValue row t
    let items ← listItems row ts
    some (item :: items)
  | _ => none

def inItems (sub : SqlRow → Sql (Option SqlValue) → Truth) (row : SqlRow) :
    Sql (Option SqlValue) → Option (List (Option SqlValue))
  | select column source :: ts =>
    if ts.getLast? = some .rparen then
      some (((db.tables source).filter fun r => sub r ts.dropLast = some true).map (· column))
    else none
  | ts => listItems row ts

/-- What a condition without connectives says about a row. -/
def readAtom (sub : SqlRow → Sql (Option SqlValue) → Truth) (row : SqlRow)
    (ts : Sql (Option SqlValue)) : Truth :=
  match ts with
  | [never] => some false
  | [operand a, isNull] => some (row a).isNone
  | [operand a, isNotNull] => some (row a).isSome
  | [operand a, comparison c, t] =>
    match termValue row t with
    | some b => db.compareTruth c (row a) b
    | none => db.other ts row
  | [operand a, eqAny, .lparen, param (some (.uuidArray ids)), .rparen] =>
    db.isInTruth (row a) (ids.map fun id => some (.uuid id))
  | operand a :: isIn :: .lparen :: rest =>
    match db.inItems sub row rest with
    | some items => db.isInTruth (row a) items
    | none => db.other ts row
  | operand a :: isNotIn :: .lparen :: rest =>
    match db.inItems sub row rest with
    | some items => (db.isInTruth (row a) items).not
    | none => db.other ts row
  | _ => db.other ts row

theorem inItems_congr {sub sub' : SqlRow → Sql (Option SqlValue) → Truth} {row : SqlRow}
    {ts : Sql (Option SqlValue)}
    (h : ∀ r' ts', ts'.length < ts.length → sub r' ts' = sub' r' ts') :
    db.inItems sub row ts = db.inItems sub' row ts := by
  unfold inItems
  split
  · have hsub (r : SqlRow) := h r (List.dropLast ‹_›)
      (by rw [List.length_dropLast, List.length_cons]; omega)
    simp only [hsub]
  · rfl

def atoms : AtomReader (SqlWord (Option SqlValue)) SqlRow where
  read := db.readAtom
  read_congr {sub sub' row ts} h := by
    have hitems {a : String} {word : SqlWord (Option SqlValue)} {rest : Sql (Option SqlValue)}
        (hts : ts = operand a :: .leaf word :: .lparen :: rest) :
        db.inItems sub row rest = db.inItems sub' row rest :=
      db.inItems_congr fun r' ts' hlt => h r' ts' (by rw [hts]; simp only [List.length_cons]; omega)
    unfold readAtom
    split <;> try rfl
    · rw [hitems rfl]
    · rw [hitems rfl]

def Satisfies (row : SqlRow) (condition : Sql (Option SqlValue)) : Prop :=
  db.atoms.holds row condition = some true

end SqlDatabase

structure FilterEntity where
  tableName : String
  searchPredicates : List (Sql Unit)
  conjunctive : ∀ p ∈ searchPredicates, Conjunctive p
  has_hole : ∀ p ∈ searchPredicates, param () ∈ p

namespace FilterEntity

def ilike (column : String) : Sql Unit := [operand column, comparison .ilike, param ()]

/-- `EXISTS (SELECT 1 ...)` over the rows of another table that belong to the row. -/
def existsLike (source key owner : String) (validTo : Option String) (column : String) : Sql Unit :=
  text "EXISTS " :: .lparen :: (select "1" source :: operand key :: comparison .eq ::
    operand owner :: .and :: validTo.elim [] (fun validTo => [operand validTo, isNull, .and]) ++
      ilike column) ++ [.rparen]

variable {source key owner : String} {validTo : Option String} {column : String}

theorem balanced_ilike {p : Token (SqlWord Unit) → Prop} (h : ∀ word, p (leaf word)) :
    Balanced p (ilike column) :=
  .cons (h _) rfl (.cons (h _) rfl (.cons (h _) rfl .nil))

theorem conjunctive_ilike : Conjunctive (ilike column) := balanced_ilike fun _ => rfl

theorem conjunctive_existsLike : Conjunctive (existsLike source key owner validTo column) := by
  have hvalid : Balanced (fun _ => True)
      (validTo.elim [] (fun validTo => [operand validTo, isNull, .and]) : Sql Unit) := by
    cases validTo with
    | none => exact .nil
    | some c => exact .cons trivial rfl (.cons trivial rfl (.cons trivial rfl .nil))
  refine .cons rfl rfl (.group ?_ .nil)
  refine .cons trivial rfl (.cons trivial rfl (.cons trivial rfl (.cons trivial rfl ?_)))
  exact .cons trivial rfl (hvalid.append (balanced_ilike fun _ => trivial))

theorem hole_mem_ilike : param () ∈ ilike column := by simp [ilike]

theorem hole_mem_existsLike : param () ∈ existsLike source key owner validTo column := by
  simp [existsLike, ilike]

def service : FilterEntity where
  tableName := "services"
  searchPredicates := [ilike "services.name", ilike "services.service_definition",
    existsLike "hosts h" "h.id" "services.host_id" (some "h.valid_to") "h.name"]
  conjunctive := by simp [conjunctive_ilike, conjunctive_existsLike]
  has_hole := by simp [hole_mem_ilike, hole_mem_existsLike]

def host : FilterEntity where
  tableName := "hosts"
  searchPredicates := [ilike "hosts.name", ilike "hosts.hostname", ilike "hosts.description",
    existsLike "ip_addresses ia" "ia.host_id" "hosts.id" (some "ia.valid_to") "host(ia.ip_address)",
    existsLike "services s" "s.host_id" "hosts.id" (some "s.valid_to") "s.name"]
  conjunctive := by simp [conjunctive_ilike, conjunctive_existsLike]
  has_hole := by simp [hole_mem_ilike, hole_mem_existsLike]

def discovery : FilterEntity where
  tableName := "discovery"
  searchPredicates := [ilike "discovery.name",
    existsLike "daemons d" "d.id" "discovery.daemon_id" none "d.name"]
  conjunctive := by simp [conjunctive_ilike, conjunctive_existsLike]
  has_hole := by simp [hole_mem_ilike, hole_mem_existsLike]

end FilterEntity

structure StorableFilter (T : FilterEntity) where
  conditions : List (Sql ℕ)
  values : List SqlValue
  limitValue : Option (BitVec 32)
  offsetValue : Option (BitVec 32)
  joins : List String

/-- Puts a backslash before what LIKE takes for a wildcard. -/
def escapeLike (input : String) : String :=
  String.ofList (input.toList.flatMap fun ch =>
    if ch = '\\' ∨ ch = '%' ∨ ch = '_' then ['\\', ch] else [ch])

/-- The names of `SubnetType::synthetic_categories`. -/
def syntheticCategories : List String := ["Internet", "Remote", "Loopback"]

namespace StorableFilter
variable {T : FilterEntity}

def new : StorableFilter T := ⟨[], [], none, none, []⟩

section Builders
variable (f : StorableFilter T)

def qualifyColumn (T : FilterEntity) (column : String) : String := T.tableName ++ "." ++ column

def push (condition : Sql ℕ) (values : List SqlValue) : StorableFilter T :=
  { f with conditions := f.conditions ++ [condition], values := f.values ++ values }

def columnComparison (c : Comparison) (column : String) (value : SqlValue) : StorableFilter T :=
  f.push [operand (qualifyColumn T column), comparison c, param (f.values.length + 1)] [value]

def columnEq (column : String) (value : SqlValue) : StorableFilter T :=
  f.columnComparison .eq column value

def columnLt (column : String) (value : SqlValue) : StorableFilter T :=
  f.columnComparison .lt column value

def columnIn (column : String) (values : List SqlValue) : StorableFilter T :=
  if values.isEmpty then f.push [never] []
  else f.push (operand (qualifyColumn T column) :: isIn :: .lparen ::
    placeholders f.values.length values.length ++ [.rparen]) values

def columnBetween (column : String) (first last : Timestamp) : StorableFilter T :=
  let col := operand (qualifyColumn T column)
  f.push [col, comparison .ge, param (f.values.length + 1), .and,
    col, comparison .le, param (f.values.length + 2)] [.timestamp first, .timestamp last]

def limit (limit : BitVec 32) : StorableFilter T := { f with limitValue := some limit }

def offset (offset : BitVec 32) : StorableFilter T := { f with offsetValue := some offset }

def join (joinClause : String) : StorableFilter T := { f with joins := f.joins ++ [joinClause] }

def entityId (id : Uuid) : StorableFilter T := f.columnEq "id" (.uuid id)

def entityIds (ids : List Uuid) : StorableFilter T := f.columnIn "id" (ids.map .uuid)

def networkIds (ids : List Uuid) : StorableFilter T := f.columnIn "network_id" (ids.map .uuid)

def userId (id : Uuid) : StorableFilter T := f.columnEq "user_id" (.uuid id)

def userIds (ids : List Uuid) : StorableFilter T := f.columnIn "user_id" (ids.map .uuid)

def hiddenIs (hidden : Bool) : StorableFilter T := f.columnEq "hidden" (.bool hidden)

def live : StorableFilter T := f.push [operand (qualifyColumn T "valid_to"), isNull] []

def asOf (t : Timestamp) : StorableFilter T :=
  let validTo := operand (qualifyColumn T "valid_to")
  f.push [operand (qualifyColumn T "valid_from"), comparison .le, param (f.values.length + 1), .and,
    .lparen, validTo, isNull, .or, validTo, comparison .gt, param (f.values.length + 2), .rparen]
    [.timestamp t, .timestamp t]

def liveOrAsOf : Option Timestamp → StorableFilter T
  | some t => f.asOf t
  | none => f.live

def lineageId (id : Uuid) : StorableFilter T := f.columnEq "lineage_id" (.uuid id)

def snapshotId (id : Uuid) : StorableFilter T := f.columnEq "snapshot_id" (.uuid id)

def idOrLineageIn (ids : List Uuid) : StorableFilter T :=
  if ids.isEmpty then f.push [never] []
  else f.push [.lparen, operand (qualifyColumn T "id"), eqAny, .lparen, param (f.values.length + 1),
    .rparen, .or, operand (qualifyColumn T "lineage_id"), eqAny, .lparen,
    param (f.values.length + 2), .rparen, .rparen] [.uuidArray ids, .uuidArray ids]

def takenAtLt (t : Timestamp) : StorableFilter T := f.columnLt "taken_at" (.timestamp t)

def hostId (id : Uuid) : StorableFilter T := f.columnEq "host_id" (.uuid id)

def subnetId (id : Uuid) : StorableFilter T := f.columnEq "subnet_id" (.uuid id)

def macAddress (mac : MacAddress) : StorableFilter T := f.columnEq "mac_address" (.macAddress mac)

def passwordResetToken (token : String) : StorableFilter T :=
  f.columnEq "password_reset_token" (.string token)

def emailVerificationToken (token : String) : StorableFilter T :=
  f.columnEq "email_verification_token" (.string token)

def name (name : String) : StorableFilter T := f.columnEq "name" (.string name)

def textSearch (query : String) : StorableFilter T :=
  let trimmed := trim query
  if T.searchPredicates.isEmpty || trimmed.isEmpty then f.push [never] []
  else
    let clauses := T.searchPredicates.map (mapParams fun _ => f.values.length + 1)
    f.push (.lparen :: [.or].intercalate clauses ++ [.rparen])
      [.string ("%" ++ escapeLike trimmed ++ "%")]

def serviceDefinitionNotIn (definitions : List String) : StorableFilter T :=
  if definitions.isEmpty then f
  else f.push (operand (qualifyColumn T "service_definition") :: isNotIn :: .lparen ::
    placeholders f.values.length definitions.length ++ [.rparen]) (definitions.map .string)

def dependencyId (id : Uuid) : StorableFilter T := f.columnEq "dependency_id" (.uuid id)

def dependencyIds (ids : List Uuid) : StorableFilter T :=
  f.columnIn "dependency_id" (ids.map .uuid)

def bindingId (id : Uuid) : StorableFilter T := f.columnEq "binding_id" (.uuid id)

def hostIds (ids : List Uuid) : StorableFilter T := f.columnIn "host_id" (ids.map .uuid)

def apiKey (apiKey : String) : StorableFilter T := f.columnEq "key" (.string apiKey)

def jsonField (column key : String) : String := column ++ "->>'" ++ key ++ "'"

def jsonFieldEq (column key value : String) : StorableFilter T :=
  f.push [operand (jsonField (qualifyColumn T column) key), comparison .eq,
    param (f.values.length + 1)] [.string value]

def fieldLiteral (column : String) (c : Comparison) (value : String) : StorableFilter T :=
  f.push [operand (jsonField column "type"), comparison c, literal (.string value)] []

def scheduledDiscovery : StorableFilter T :=
  (f.fieldLiteral "run_type" .eq "Scheduled").push
    [operand "(run_type->>'enabled')::boolean", comparison .eq, literal (.bool true)] []

def historicalDiscovery : StorableFilter T := f.fieldLiteral "run_type" .eq "Historical"

def historicalSession (sessionId : Uuid) : StorableFilter T :=
  let f := f.fieldLiteral "run_type" .eq "Historical"
  f.push [operand "run_type->'results'->>'session_id'", comparison .eq, param (f.values.length + 1)]
    [.string (uuidText sessionId)]

def excludeHistorical : StorableFilter T := f.fieldLiteral "run_type" .ne "Historical"

def rescanDiscovery : StorableFilter T := f.fieldLiteral "discovery_type" .eq "Rescan"

def excludeRescans : StorableFilter T := f.fieldLiteral "discovery_type" .ne "Rescan"

def liveConfigs : StorableFilter T :=
  (f.fieldLiteral "run_type" .ne "Historical").fieldLiteral "discovery_type" .ne "Rescan"

def columnIsNull (column : String) : StorableFilter T :=
  f.push [operand (qualifyColumn T column), isNull] []

def columnIsNotNull (column : String) : StorableFilter T :=
  f.push [operand (qualifyColumn T column), isNotNull] []

def oidcSubject (subject : String) : StorableFilter T :=
  (f.columnEq "oidc_subject" (.string subject)).columnIsNotNull "oidc_provider"

def email (email : String) : StorableFilter T := f.columnEq "email" (.email email)

def organizationId (organizationId : Uuid) : StorableFilter T :=
  f.columnEq "organization_id" (.uuid organizationId)

def topologyId (topologyId : Uuid) : StorableFilter T := f.columnEq "topology_id" (.uuid topologyId)

def userPermissions (permissions : UserOrgPermissions) : StorableFilter T :=
  f.columnEq "permissions" (.userOrgPermissions permissions)

def userPermissionsIn (permissions : List UserOrgPermissions) : StorableFilter T :=
  f.columnIn "permissions" (permissions.map .userOrgPermissions)

def expiresBefore (t : Timestamp) : StorableFilter T := f.columnLt "expires_at" (.timestamp t)

def createdBefore (t : Timestamp) : StorableFilter T := f.columnLt "created_at" (.timestamp t)

def lastSeenBefore (t : Timestamp) : StorableFilter T := f.columnLt "last_seen_at" (.timestamp t)

def networkClauses (networkCol seenCol : String) (c : Comparison) :
    List (Uuid × Timestamp) → List SqlValue → List (Sql ℕ) × List SqlValue
  | [], values => ([], values)
  | (networkId, cutoff) :: cutoffs, values =>
    let clause : Sql ℕ := [.lparen, operand networkCol, comparison .eq, param (values.length + 1), .and,
      operand seenCol, comparison c, param (values.length + 2), .rparen]
    let rest := networkClauses networkCol seenCol c cutoffs
      (values ++ [.uuid networkId, .timestamp cutoff])
    (clause :: rest.1, rest.2)

def managedClause (T : FilterEntity) {P : Type} : Sql P :=
  [operand (jsonField (qualifyColumn T "source") "type"), isIn, .lparen,
    literal (.string "Discovery"), comma, literal (.string "DiscoveryWithMatch"), .rparen]

def staleByNetwork (cutoffs : List (Uuid × Timestamp)) (stale : Bool) : StorableFilter T :=
  if cutoffs.isEmpty then f.push [never] []
  else
    let clauses := networkClauses (qualifyColumn T "network_id") (qualifyColumn T "last_seen_at")
      (if stale then .lt else .ge) cutoffs f.values
    let perNetwork := [.or].intercalate clauses.1
    let condition := if stale then
        .lparen :: managedClause T ++ .and :: .lparen :: perNetwork ++ [.rparen, .rparen]
      else
        .lparen :: .not :: .lparen :: managedClause T ++ .rparen :: .or :: .lparen :: perNetwork ++
          [.rparen, .rparen]
    { f with conditions := f.conditions ++ [condition], values := clauses.2 }

def updatedBefore (t : Timestamp) : StorableFilter T := f.columnLt "updated_at" (.timestamp t)

def createdBetween (first last : Timestamp) : StorableFilter T :=
  f.columnBetween "created_at" first last

def updatedBetween (first last : Timestamp) : StorableFilter T :=
  f.columnBetween "updated_at" first last

def validToBetween (first last : Timestamp) : StorableFilter T :=
  f.columnBetween "valid_to" first last

def lastSeenBetween (first last : Timestamp) : StorableFilter T :=
  f.columnBetween "last_seen_at" first last

def u16Column (column : String) (value : BitVec 16) : StorableFilter T :=
  f.columnEq column (.u16 value)

def uuidColumn (column : String) (id : Uuid) : StorableFilter T := f.columnEq column (.uuid id)

def uuidsColumn (column : String) (ids : List Uuid) : StorableFilter T :=
  f.columnIn column (ids.map .uuid)

def serviceId (id : Uuid) : StorableFilter T := f.columnEq "service_id" (.uuid id)

def daemonMode (mode : DaemonMode) : StorableFilter T := f.columnEq "mode" (.daemonMode mode)

def isUnreachable (isUnreachable : Bool) : StorableFilter T :=
  f.columnEq "is_unreachable" (.bool isUnreachable)

def standby (standby : Bool) : StorableFilter T := f.columnEq "standby" (.bool standby)

def entityType (entityType : EntityDiscriminants) : StorableFilter T :=
  f.columnEq "entity_type" (.entityDiscriminant entityType)

def tagId (id : Uuid) : StorableFilter T := f.columnEq "tag_id" (.uuid id)

def hasAnyTags (tagIds : List Uuid) (entityType : EntityDiscriminants) : StorableFilter T :=
  if tagIds.isEmpty then f
  else f.push (operand (qualifyColumn T "id") :: isIn :: .lparen ::
    select "entity_id" "entity_tags" :: operand "entity_type" :: comparison .eq ::
    param (f.values.length + 1) :: .and :: operand "tag_id" :: isIn :: .lparen ::
    placeholders (f.values.length + 1) tagIds.length ++ [.rparen, .rparen])
    (.entityDiscriminant entityType :: tagIds.map .uuid)

def boundToPort (ports : List (BitVec 16)) : StorableFilter T :=
  if ports.isEmpty then f
  else f.push (operand (qualifyColumn T "id") :: isIn :: .lparen ::
    select "b.service_id" "bindings b JOIN ports p ON b.port_id = p.id" ::
    operand "b.valid_to" :: isNull :: .and :: operand "p.valid_to" :: isNull :: .and ::
    operand "p.port_number" :: isIn :: .lparen ::
    placeholders f.values.length ports.length ++ [.rparen, .rparen])
    (ports.map fun port => .i32 port.toNat)

def ipAddress (ip : IpAddr) : StorableFilter T := f.columnEq "ip_address" (.ipAddr ip)

def ifDescr (descr : String) : StorableFilter T := f.columnEq "if_descr" (.string descr)

def ifName (name : String) : StorableFilter T := f.columnEq "if_name" (.string name)

def ifAlias (name : String) : StorableFilter T := f.columnEq "if_alias" (.string name)

def physicalIfTypes : StorableFilter T :=
  f.push (operand (qualifyColumn T "if_type") :: isNotIn :: .lparen ::
    placeholders f.values.length excludedIfTypes.length ++ [.rparen]) (excludedIfTypes.map .i32)

def ifIndex (ifIndex : ℤ) : StorableFilter T := f.columnEq "if_index" (.i32 ifIndex)

def chassisId (chassisId : String) : StorableFilter T := f.columnEq "chassis_id" (.string chassisId)

def sysName (sysName : String) : StorableFilter T := f.columnEq "sys_name" (.string sysName)

def ipAddressId (ipAddressId : Uuid) : StorableFilter T :=
  f.columnEq "ip_address_id" (.uuid ipAddressId)

def anyNotNull (columns : List String) : StorableFilter T :=
  f.push (.lparen :: [.or].intercalate (columns.map fun column =>
    [operand (qualifyColumn T column), isNotNull]) ++ [.rparen]) []

def unresolvedLldpPortInNetwork (networkId : Uuid) : StorableFilter T :=
  (((f.columnEq "network_id" (.uuid networkId)).anyNotNull
    ["lldp_chassis_id", "cdp_device_id", "cdp_address"]).columnIsNull "neighbor_interface_id").live

def lldpNeighborsInNetwork (networkId : Uuid) : StorableFilter T :=
  ((f.columnEq "network_id" (.uuid networkId)).anyNotNull ["lldp_chassis_id", "cdp_device_id",
    "cdp_address", "neighbor_interface_id", "neighbor_host_id"]).live

def singleFdbMac : StorableFilter T :=
  let fdbCol := qualifyColumn T "fdb_macs"
  f.push [operand fdbCol, isNotNull, .and, operand ("jsonb_array_length(" ++ fdbCol ++ ")"),
    comparison .eq, literal (.i32 1)] []

def unresolvedFdbInNetwork (networkId : Uuid) : StorableFilter T :=
  ((((((f.columnEq "network_id" (.uuid networkId)).singleFdbMac).columnIsNull
    "neighbor_interface_id").columnIsNull "neighbor_host_id").columnIsNull
      "lldp_chassis_id").columnIsNull "cdp_device_id").live

def hasNeighbor : StorableFilter T := f.anyNotNull ["neighbor_interface_id", "neighbor_host_id"]

def hasNeighborIfEntry : StorableFilter T := f.columnIsNotNull "neighbor_interface_id"

def neighborHost (hostId : Uuid) : StorableFilter T :=
  f.push [.lparen, operand (qualifyColumn T "neighbor_host_id"), comparison .eq,
    param (f.values.length + 1), .or, operand (qualifyColumn T "neighbor_interface_id"), isIn, .lparen,
    select "id" "interfaces", operand "host_id", comparison .eq, param (f.values.length + 1),
    .rparen, .rparen] [.uuid hostId]

def withoutBrevoCompanyId : StorableFilter T := f.columnIsNull "brevo_company_id"

def withBrevoCompanyId : StorableFilter T := f.columnIsNotNull "brevo_company_id"

def stripeCustomerId (id : String) : StorableFilter T :=
  f.columnEq "stripe_customer_id" (.string id)

def userManaged : StorableFilter T :=
  f.push (.lparen :: operand (jsonField (qualifyColumn T "source") "type") :: comparison .eq ::
    literal (.string "Manual") :: .or :: operand (qualifyColumn T "subnet_type") :: isNotIn ::
    .lparen :: placeholders f.values.length syntheticCategories.length ++ [.rparen, .rparen])
    (syntheticCategories.map .string)

def whereClause : Sql ℕ := [.and].intercalate f.conditions

def toWhereClause : String :=
  if f.conditions.isEmpty then "" else "WHERE " ++ f.whereClause.toText

def boundConditions : List (Sql (Option SqlValue)) := f.conditions.map (mapParams (bound f.values))

def Selects (db : SqlDatabase) (row : SqlRow) : Prop :=
  f.conditions = [] ∨ db.Satisfies row (f.whereClause.mapParams (bound f.values))

end Builders

example : ((new (T := ⟨"tags", [], nofun, nofun⟩)).entityIds [7, 8] |>.asOf 5).toWhereClause =
    "WHERE tags.id IN ($1, $2) AND tags.valid_from <= $3 AND (tags.valid_to IS NULL OR " ++
      "tags.valid_to > $4)" := by decide

example : ((new (T := .discovery)).textSearch " a_b ").toWhereClause =
    "WHERE (discovery.name ILIKE $1 OR EXISTS (SELECT 1 FROM daemons d WHERE d.id = " ++
      "discovery.daemon_id AND d.name ILIKE $1))" := by decide

end StorableFilter
end Scanopy
