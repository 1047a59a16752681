import Scanopy.Daemon.Buffer
import Scanopy.Hosts.Records

/-! What the pending entry of a host says after several requests for it: the lists of all of them,
and everything else as the first one says. -/

namespace Scanopy

open List Option

def BufferedEntity.map {S T : Type} (f : S → T) : BufferedEntity S → BufferedEntity T
  | pending t => .pending (f t)
  | created pendingId actual => .created pendingId (f actual)

structure HostReport extends DiscoveryHostRequest where
  texts : HostText → Option String
  deriving DecidableEq

def HostReport.merge (existing host : HostReport) : HostReport where
  toDiscoveryHostRequest :=
    EntityBuffer.mergeChildren existing.toDiscoveryHostRequest host.toDiscoveryHostRequest
  texts := existing.texts

abbrev ReportBuffer := HashMap Uuid (BufferedEntity HostReport)

inductive ReportOp
  | pushHost (host : HostReport)
  | markHostCreated (pendingId : Uuid) (actual : HostResponse) (texts : HostText → Option String)

namespace ReportOp

def apply (hosts : ReportBuffer) : ReportOp → ReportBuffer
  | pushHost host => match hosts.get host.host.id with
    | some (.pending existing) => hosts.insert host.host.id (.pending (existing.merge host))
    | some (.created _ _) | none => hosts.insert host.host.id (.pending host)
  | markHostCreated pendingId actual texts => match hosts.get pendingId with
    | some (.pending _) => hosts.insert pendingId
        (.created pendingId ⟨EntityBuffer.confirmedRequest actual, texts⟩)
    | some (.created _ _) | none => hosts

def forgetTexts : ReportOp → BufferOp
  | pushHost host => .pushHost host.toDiscoveryHostRequest
  | markHostCreated pendingId actual _ => .markHostCreated pendingId actual

def requestFor (id : Uuid) : ReportOp → Option HostReport
  | pushHost host => if host.host.id = id then some host else none
  | markHostCreated _ _ _ => none

def Confirms (id : Uuid) : ReportOp → Prop
  | pushHost _ => False
  | markHostCreated pendingId _ _ => pendingId = id

end ReportOp

namespace ReportBuffer

/-- The hosts of `b` are those of `hosts` without their texts. -/
def Forgets (hosts : ReportBuffer) (b : EntityBuffer) : Prop :=
  ∀ id, b.hosts.get id = (hosts.get id).map (·.map HostReport.toDiscoveryHostRequest)

def run (hosts : ReportBuffer) (ops : List ReportOp) : ReportBuffer :=
  ops.foldl ReportOp.apply hosts

/-- The buffer does the same with the requests whether or not they carry texts. -/
theorem Forgets.apply {hosts : ReportBuffer} {b : EntityBuffer} (h : Forgets hosts b)
    (op : ReportOp) : Forgets (op.apply hosts) (op.forgetTexts.apply b) := by
  intro id
  cases op with
  | pushHost host =>
    show (b.pushHost host.toDiscoveryHostRequest).hosts.get id = _
    rw [EntityBuffer.hosts_pushHost, EntityBuffer.pushed, h host.host.id, h id, ReportOp.apply]
    rcases hosts.get host.host.id with _ | ⟨existing⟩ | ⟨pending, actual⟩ <;>
      simp only [HashMap.get_insert] <;>
      split_ifs <;> rfl
  | markHostCreated pendingId actual texts =>
    show (b.markHostCreated pendingId actual).hosts.get id = _
    rw [EntityBuffer.hosts_markHostCreated, h pendingId, h id, ReportOp.apply]
    rcases hosts.get pendingId with _ | ⟨existing⟩ | ⟨pending, actual⟩
    · exact if_neg fun hany => Bool.false_ne_true hany.2
    · simp only [HashMap.get_insert]
      by_cases hid : id = pendingId
      · rw [if_pos ⟨hid, rfl⟩, if_pos hid]
        rfl
      · rw [if_neg fun hany => hid hany.1, if_neg hid]
    · exact if_neg fun hany => Bool.false_ne_true hany.2

theorem Forgets.run {hosts : ReportBuffer} {b : EntityBuffer} (h : Forgets hosts b)
    (ops : List ReportOp) :
    Forgets (run hosts ops) ((ops.map ReportOp.forgetTexts).foldl BufferOp.apply b) := by
  induction ops generalizing hosts b with
  | nil => exact h
  | cons op ops ih => exact ih (h.apply op)

def pushOnto (entry : Option (BufferedEntity HostReport)) (request : HostReport) :
    Option (BufferedEntity HostReport) :=
  match entry with
  | some (.pending existing) => some (.pending (existing.merge request))
  | some (.created _ _) | none => some (.pending request)

variable {hosts : ReportBuffer} {ops : List ReportOp} {id : Uuid} {entry : HostReport}

theorem get_apply {op : ReportOp} (hop : ¬ op.Confirms id) :
    (op.apply hosts).get id = (op.requestFor id).toList.foldl pushOnto (hosts.get id) := by
  cases op with
  | pushHost host =>
    rw [ReportOp.apply, ReportOp.requestFor]
    by_cases hid : host.host.id = id
    · subst hid
      rw [if_pos rfl]
      -- what is pushed replaces a confirmed entry, and is merged into a pending one
      match hget : hosts.get host.host.id with
      | none | some (.created _ _) | some (.pending _) =>
        exact HashMap.get_insert_self hosts _ _
    · rw [if_neg hid]
      match hosts.get host.host.id with
      | none | some (.created _ _) | some (.pending _) =>
        exact (HashMap.get_insert hosts _ id _).trans (if_neg (Ne.symm hid))
  | markHostCreated pendingId actual texts =>
    rw [ReportOp.apply]
    match hosts.get pendingId with
    | none | some (.created _ _) => rfl
    | some (.pending _) =>
      exact (HashMap.get_insert hosts _ id _).trans (if_neg (Ne.symm hop))

theorem get_run (hops : ∀ op ∈ ops, ¬ op.Confirms id) : (run hosts ops).get id =
    (ops.filterMap (·.requestFor id)).foldl pushOnto (hosts.get id) := by
  induction ops generalizing hosts with
  | nil => rfl
  | cons op ops ih =>
    rw [forall_mem_cons] at hops
    rw [run, foldl_cons, ← run, ih hops.2, get_apply hops.1, filterMap_cons]
    cases op.requestFor id <;> rfl

theorem foldl_pushOnto_pending (existing : HostReport) (rest : List HostReport) :
    rest.foldl pushOnto (some (.pending existing)) =
      some (.pending (rest.foldl HostReport.merge existing)) := by
  induction rest generalizing existing with
  | nil => rfl
  | cons r rest ih => exact ih (existing.merge r)

theorem foldl_pushOnto {start : Option (BufferedEntity HostReport)}
    (hstart : ∀ e, start ≠ some (.pending e)) (first : HostReport) (rest : List HostReport) :
    (first :: rest).foldl pushOnto start = some (.pending (rest.foldl HostReport.merge first)) := by
  have hfirst : pushOnto start first = some (.pending first) := by
    match start with
    | none | some (.created _ _) => rfl
    | some (.pending e) => exact absurd rfl (hstart e)
  rw [foldl_cons, hfirst, foldl_pushOnto_pending]

theorem pending_run (hstart : ∀ e, hosts.get id ≠ some (.pending e))
    (hops : ∀ op ∈ ops, ¬ op.Confirms id) (hentry : (run hosts ops).get id = some (.pending entry)) :
    ∃ first rest, ops.filterMap (·.requestFor id) = first :: rest ∧
      entry = rest.foldl HostReport.merge first := by
  rw [get_run hops] at hentry
  cases hrequests : ops.filterMap (·.requestFor id) with
  | nil =>
    rw [hrequests] at hentry
    exact absurd hentry (hstart entry)
  | cons first rest =>
    rw [hrequests, foldl_pushOnto hstart] at hentry
    cases hentry
    exact ⟨first, rest, rfl, rfl⟩

end ReportBuffer

/-- What a request says it has read in full. -/
inductive CompletenessFlag
  | interfaces | lldp | cdp | fdb | vlanMembership
  deriving DecidableEq

def CompletenessFlag.read (r : HostReport) : CompletenessFlag → Bool
  | interfaces => r.interfacesComplete
  | lldp => r.interfaceDataComplete.lldp
  | cdp => r.interfaceDataComplete.cdp
  | fdb => r.interfaceDataComplete.fdb
  | vlanMembership => r.interfaceDataComplete.vlanMembership

inductive OptionalHostField
  | hostname | sysName | chassisId | sysDescr | managementUrl
  deriving DecidableEq

def OptionalHostField.read (r : HostReport) : OptionalHostField → Option String
  | hostname => r.host.base.hostname
  | sysName => r.texts .sysName
  | chassisId => r.texts .chassisId
  | sysDescr => r.texts .sysDescr
  | managementUrl => r.texts .managementUrl

structure Sums (requests : List HostReport) (entry : HostReport) : Prop where
  flags : ∀ flag : CompletenessFlag, flag.read entry = true →
    ∀ r ∈ requests, r.interfaces ≠ [] → flag.read r = true
  fields : ∀ field : OptionalHostField, (∃ r ∈ requests, (field.read r).isSome = true) →
    (field.read entry).isSome = true

/-- Of the requests after the first, none with interfaces leaves open what the first says is
complete, and none has a field that the first does not have. -/
def FirstStands : List HostReport → Prop
  | [] => True
  | first :: rest => ∀ r ∈ rest,
    (r.interfaces ≠ [] → ∀ flag : CompletenessFlag, flag.read first = true → flag.read r = true) ∧
      ∀ field : OptionalHostField, (field.read r).isSome = true → (field.read first).isSome = true

@[simp] theorem CompletenessFlag.read_foldl_merge (flag : CompletenessFlag) (first : HostReport)
    (rest : List HostReport) : flag.read (rest.foldl HostReport.merge first) = flag.read first := by
  induction rest generalizing first with
  | nil => rfl
  | cons r rest ih =>
    rw [foldl_cons, ih]
    cases flag <;> rfl

@[simp] theorem OptionalHostField.read_foldl_merge (field : OptionalHostField) (first : HostReport)
    (rest : List HostReport) : field.read (rest.foldl HostReport.merge first) = field.read first := by
  induction rest generalizing first with
  | nil => rfl
  | cons r rest ih =>
    rw [foldl_cons, ih]
    cases field <;> rfl

theorem sums_foldl_merge_iff (first : HostReport) (rest : List HostReport) :
    Sums (first :: rest) (rest.foldl HostReport.merge first) ↔ FirstStands (first :: rest) := by
  constructor
  · rintro ⟨hflags, hfields⟩ r hr
    have hmem : r ∈ first :: rest := mem_cons_of_mem _ hr
    refine ⟨fun hinterfaces flag hfirst => ?_, fun field hfilled => ?_⟩
    · exact hflags flag (by rwa [CompletenessFlag.read_foldl_merge]) r hmem hinterfaces
    · simpa using hfields field ⟨r, hmem, hfilled⟩
  · intro h
    refine ⟨fun flag hentry r hr hinterfaces => ?_, ?_⟩
    · rw [CompletenessFlag.read_foldl_merge] at hentry
      rcases mem_cons.mp hr with rfl | hr
      · exact hentry
      · exact (h r hr).1 hinterfaces flag hentry
    · rintro field ⟨r, hr, hfilled⟩
      rw [OptionalHostField.read_foldl_merge]
      rcases mem_cons.mp hr with rfl | hr
      · exact hfilled
      · exact (h r hr).2 field hfilled

/-- The pending entry sums up the requests for the host exactly if the first of them stands. -/
theorem sums_pending_iff {hosts : ReportBuffer} {ops : List ReportOp} {id : Uuid}
    {entry : HostReport} (hstart : ∀ e, hosts.get id ≠ some (.pending e))
    (hops : ∀ op ∈ ops, ¬ op.Confirms id)
    (hentry : (hosts.run ops).get id = some (.pending entry)) :
    Sums (ops.filterMap (·.requestFor id)) entry ↔ FirstStands (ops.filterMap (·.requestFor id)) := by
  obtain ⟨first, rest, hrequests, rfl⟩ := ReportBuffer.pending_run hstart hops hentry
  rw [hrequests]
  exact sums_foldl_merge_iff first rest

def earlyStub (hostId ipAddressId networkId subnetId : Uuid) (ip : IpAddr)
    (mac : Option MacAddress) (now : Timestamp) : HostReport where
  host := ⟨hostId, now, now, none, none,
    { name := ip.toText
      networkId
      hostname := none
      description := none
      virtualizationServiceId := none
      hidden := false
      credentialAssignments := [] }⟩
  ipAddresses := [⟨ipAddressId, now, now, none, none,
    { networkId
      hostId := Uuid.nil
      subnetId
      ipAddress := ip
      macAddress := mac
      name := none
      position := 0
      lastSeenAt := now }⟩]
  ports := []
  services := []
  interfaces := []
  subnets := []
  interfacesComplete := true
  interfaceDataComplete := {}
  texts _ := none

theorem firstStands_earlyStub_iff {hostId ipAddressId networkId subnetId : Uuid} {ip : IpAddr}
    {mac : Option MacAddress} {now : Timestamp} {rest : List HostReport} :
    FirstStands (earlyStub hostId ipAddressId networkId subnetId ip mac now :: rest) ↔ ∀ r ∈ rest,
      (r.interfaces ≠ [] → ∀ flag : CompletenessFlag, flag.read r = true) ∧
        ∀ field : OptionalHostField, field.read r = none := by
  have hflags : ∀ flag : CompletenessFlag,
      flag.read (earlyStub hostId ipAddressId networkId subnetId ip mac now) = true := by
    intro flag
    cases flag <;> rfl
  have hfields : ∀ field : OptionalHostField,
      field.read (earlyStub hostId ipAddressId networkId subnetId ip mac now) = none := by
    intro field
    cases field <;> rfl
  simp only [FirstStands, hflags, hfields, isSome_none, Bool.false_eq_true, imp_false,
    Bool.not_eq_true, isSome_eq_false_iff, isNone_iff_eq_none, forall_const]

section Switch

def switchStub : HostReport := earlyStub 1 2 7 3 (.v4 0x0A000002) (some 0x001122334455) 0

def switchScan (complete : Bool) : HostReport where
  toDiscoveryHostRequest := { switchStub.toDiscoveryHostRequest with
    interfaces := [⟨4, 0, 0, none, none, {
      hostId := 1
      networkId := 7
      ifIndex := 1
      ifDescr := "port 1"
      macAddress := none
      ipAddressId := none
      neighbor := none
      nativeVlanId := none
      vlanIds := none }⟩]
    interfacesComplete := complete }
  texts _ := none

def switchReports (complete : Bool) : List ReportOp :=
  [.pushHost switchStub, .pushHost (switchScan complete)]

theorem not_confirms_switchReports {complete : Bool} :
    ∀ op ∈ switchReports complete, ¬ op.Confirms 1 := by
  intro op hop
  rcases mem_pair.mp hop with rfl | rfl
  · exact not_false
  · exact not_false

theorem requestFor_switchReports (complete : Bool) :
    (switchReports complete).filterMap (·.requestFor 1) = [switchStub, switchScan complete] := rfl

theorem get_switchReports (complete : Bool) :
    (ReportBuffer.run HashMap.empty (switchReports complete)).get 1 =
      some (.pending (switchStub.merge (switchScan complete))) := by
  rw [ReportBuffer.get_run not_confirms_switchReports, requestFor_switchReports]
  rfl

theorem sums_switchReports : Sums ((switchReports true).filterMap (·.requestFor 1))
    (switchStub.merge (switchScan true)) := by
  have hstart : ∀ e, (HashMap.empty : ReportBuffer).get 1 ≠ some (.pending e) := fun _ h => nomatch h
  -- the scan is complete, and it has no texts of the host
  refine (sums_pending_iff hstart not_confirms_switchReports (get_switchReports true)).mpr ?_
  rw [requestFor_switchReports, switchStub, firstStands_earlyStub_iff]
  intro r hr
  rw [mem_singleton.mp hr]
  refine ⟨fun _ flag => ?_, fun field => ?_⟩
  · cases flag <;> rfl
  · cases field <;> rfl

/-- A scan that was cut short passes for a complete one. -/
theorem not_sums_switchReports : ¬ ∀ (ops : List ReportOp) (id : Uuid) (entry : HostReport),
    (∀ op ∈ ops, ¬ op.Confirms id) →
    (ReportBuffer.run HashMap.empty ops).get id = some (.pending entry) →
      Sums (ops.filterMap (·.requestFor id)) entry := by
  intro h
  have hsums := h _ 1 _ not_confirms_switchReports (get_switchReports false)
  rw [requestFor_switchReports] at hsums
  exact absurd (hsums.flags .interfaces rfl (switchScan false)
    (mem_cons_of_mem _ mem_cons_self) (cons_ne_nil _ _)) Bool.false_ne_true

end Switch

end Scanopy
