import Mathlib.Data.String.Basic
import Scanopy.Credentials.Probes
import Scanopy.Daemon.Rescans

/-! The lines that tell an operator which credentials did not work. The issues are grouped by their
reason, but a line looks up the labels again by the addresses of its group, among all the issues. -/

namespace Scanopy

open List Option

/-- A `BTreeSet` of some values. -/
def btreeSet {A : Type} [LinearOrder A] (l : List A) : List A := l.dedup.insertionSort (· ≤ ·)

@[simp] theorem mem_btreeSet {A : Type} [LinearOrder A] {l : List A} {a : A} :
    a ∈ btreeSet l ↔ a ∈ l :=
  (mem_insertionSort _).trans mem_dedup

/-- The reasons that share a line. -/
inductive IssueGroup
  | targetNotScanned
  | targetNotResponding
  | gateClosed
  | attempted (outcome : AttemptOutcome)
  deriving DecidableEq

def CredentialIssueReason.group : CredentialIssueReason → IssueGroup
  | targetNotScanned => .targetNotScanned
  | targetNotResponding => .targetNotResponding
  | gateClosed _ => .gateClosed
  | attempted outcome _ => .attempted outcome

/-- What is put in the place of a line: the credentials and addresses it is about, and its end. -/
structure IssueLine where
  group : IssueGroup
  labels : List String
  ips : List IpAddr
  rest : String

def maxListed : ℕ := 10

def listAddressesProse (ips : List IpAddr) : String :=
  let listed := (ips.take maxListed).map IpAddr.toText
  let elided := ips.length - listed.length
  let parts := if 0 < elided then listed ++ [s!"{elided} more"] else listed
  match parts with
  | [] => ""
  | [one] => one
  | [one, two] => s!"{one} and {two}"
  | parts => ", ".intercalate parts.dropLast ++ ", and " ++ parts.getLast?.getD ""

namespace IssueLine

/-- `describe_targets`, once the labels are known. -/
def describeTargets (line : IssueLine) : String :=
  (match line.labels with
    | [label] => s!"The {label} credential"
    | labels => s!"{labels.length} credentials (" ++ ", ".intercalate labels ++ ")") ++
      " for " ++ listAddressesProse line.ips

def text (line : IssueLine) : String := line.describeTargets ++ line.rest ++ "."

end IssueLine

namespace AttemptOutcome

def order : List AttemptOutcome :=
  [rejected, malformed, tlsFailed, notThisService, collectionFailed, collectionTimedOut,
    unreachable, timedOut, cancelled]

/-- What to tell the operator. A scan that was stopped is no finding. -/
def advice : AttemptOutcome → Option String
  | rejected => some "was refused — check the username, password or community string"
  | malformed => some "is incomplete and could not be used — re-enter it"
  | tlsFailed => some ("could not negotiate TLS — if the appliance serves a self-signed " ++
      "certificate, turn on \"accept invalid certificates\" in the daemon's scan settings")
  | notThisService => some ("reached something that is not the expected service — check the " ++
      "port on the credential")
  | collectionFailed => some ("authenticated and then failed while collecting, so this host's " ++
      "data is missing rather than out of date")
  | collectionTimedOut => some ("authenticated and then ran out of time before it finished " ++
      "collecting — rescan this host on its own, or narrow what the scan covers")
  | cancelled => none
  | unreachable | timedOut => some ("could not be reached at that address — check the address, " ++
      "port and that the service is listening")

end AttemptOutcome

section Render
variable (issues : List CredentialIssue)

def alreadyCoveredByAddressLine (issue : CredentialIssue) : Bool :=
  match issue.reason with
  | .attempted .unreachable _ | .attempted .timedOut _ => issues.any fun other =>
      other.ip = issue.ip && match other.reason with
        | .targetNotScanned | .targetNotResponding => true
        | _ => false
  | _ => false

def targetLabels (ips : List IpAddr) : List String :=
  btreeSet ((issues.filter fun i => i.ip ∈ ips).map (·.label))

def issueLine (group : IssueGroup) (matching : List CredentialIssue) (rest : String) :
    Option IssueLine :=
  if matching.isEmpty then none
  else
    let ips := btreeSet (matching.map (·.ip))
    some ⟨group, targetLabels issues ips, ips, rest⟩

def notScannedLine : Option IssueLine :=
  issueLine issues .targetNotScanned (issues.filter fun i => i.reason = .targetNotScanned)
    (" was never contacted because its address is not on any subnet this scan covers — " ++
      "add the subnet to the discovery, or move the credential to a host inside it")

def notRespondingLine : Option IssueLine :=
  issueLine issues .targetNotResponding (issues.filter fun i => i.reason = .targetNotResponding)
    (" was not tried because nothing answered at that address during the scan — check " ++
      "the address is right and the host is online")

def gatedLine : Option IssueLine :=
  let ports := btreeSet (issues.flatMap fun i => match i.reason with
    | .gateClosed ports => ports.map (·.number.toNat)
    | _ => [])
  issueLine issues .gateClosed
    (issues.filter fun i => match i.reason with
      | .gateClosed _ => true
      | _ => false)
    (" was not tried because port " ++ " / ".intercalate (ports.map toString) ++
      " was not open on it — check the port configured on the credential")

def attemptLine (outcome : AttemptOutcome) : Option IssueLine :=
  outcome.advice.bind fun advice =>
    let matching := issues.filter fun i =>
      i.reason.group = .attempted outcome && !alreadyCoveredByAddressLine issues i
    let first := (matching.findSome? fun i => match i.reason with
      | .attempted _ message => some message
      | _ => none).getD "no further detail"
    issueLine issues (.attempted outcome) matching (" " ++ advice ++ " (" ++ first ++ ")")

def issueLines : List IssueLine :=
  (notScannedLine issues).toList ++ (notRespondingLine issues).toList ++
    (gatedLine issues).toList ++ AttemptOutcome.order.filterMap (attemptLine issues)

def renderCredentialIssues : List String :=
  if issues.isEmpty then [] else (issueLines issues).map IssueLine.text

def IsReported (issue : CredentialIssue) : Prop :=
  issue.reason.group ≠ .attempted .cancelled ∧ alreadyCoveredByAddressLine issues issue = false

structure BlamesRight : Prop where
  named : ∀ line ∈ issueLines issues, ∀ label ∈ line.labels,
    ∃ i ∈ issues, i.reason.group = line.group ∧ i.label = label
  complete : ∀ i ∈ issues, IsReported issues i →
    ∃ line ∈ issueLines issues, line.group = i.reason.group ∧ i.label ∈ line.labels

def LabelsAgree : Prop :=
  ∀ i ∈ issues, ∀ j ∈ issues, IsReported issues i → j.ip = i.ip →
    ∃ k ∈ issues, k.reason.group = i.reason.group ∧ k.label = j.label

end Render

section Lines
variable {issues : List CredentialIssue} {group : IssueGroup} {line : IssueLine}
variable {i : CredentialIssue} {matching : List CredentialIssue} {rest : String}

def reportedIn (issues : List CredentialIssue) (group : IssueGroup) : List CredentialIssue :=
  issues.filter fun i => i.reason.group = group && !alreadyCoveredByAddressLine issues i

theorem mem_reportedIn : i ∈ reportedIn issues group ↔
    i ∈ issues ∧ i.reason.group = group ∧ alreadyCoveredByAddressLine issues i = false := by
  unfold reportedIn
  rw [mem_filter, Bool.and_eq_true, decide_eq_true_iff, Bool.not_eq_true']

theorem mem_targetLabels {ips : List IpAddr} {label : String} : label ∈ targetLabels issues ips ↔
    ∃ i ∈ issues, i.ip ∈ ips ∧ i.label = label := by
  unfold targetLabels
  rw [mem_btreeSet, List.mem_map]
  constructor
  · rintro ⟨i, hi, hlabel⟩
    obtain ⟨hi, hip⟩ := mem_filter.mp hi
    exact ⟨i, hi, of_decide_eq_true hip, hlabel⟩
  · rintro ⟨i, hi, hip, hlabel⟩
    exact ⟨i, mem_filter.mpr ⟨hi, decide_eq_true hip⟩, hlabel⟩

theorem of_issueLine
    (h : issueLine issues group matching rest = some line) :
    line.group = group ∧ line.labels = targetLabels issues line.ips ∧
      ∀ ip, ip ∈ line.ips ↔ ∃ i ∈ matching, i.ip = ip := by
  unfold issueLine at h
  split_ifs at h
  cases h
  refine ⟨rfl, rfl, fun ip => ?_⟩
  rw [mem_btreeSet, List.mem_map]

theorem exists_issueLine (issues : List CredentialIssue) (hi : i ∈ matching) :
    ∃ line, issueLine issues group matching rest = some line := by
  unfold issueLine
  rw [if_neg (by simpa using ne_nil_of_mem hi)]
  exact ⟨_, rfl⟩

theorem notScannedLine_eq (issues : List CredentialIssue) : ∃ rest, notScannedLine issues =
    issueLine issues .targetNotScanned (reportedIn issues .targetNotScanned) rest := by
  refine ⟨_, congrArg (issueLine issues .targetNotScanned · _) (filter_congr fun i _ => ?_)⟩
  unfold CredentialIssueReason.group alreadyCoveredByAddressLine
  cases i.reason <;> simp

theorem notRespondingLine_eq (issues : List CredentialIssue) : ∃ rest, notRespondingLine issues =
    issueLine issues .targetNotResponding (reportedIn issues .targetNotResponding) rest := by
  refine ⟨_, congrArg (issueLine issues .targetNotResponding · _) (filter_congr fun i _ => ?_)⟩
  unfold CredentialIssueReason.group alreadyCoveredByAddressLine
  cases i.reason <;> simp

theorem gatedLine_eq (issues : List CredentialIssue) : ∃ rest, gatedLine issues =
    issueLine issues .gateClosed (reportedIn issues .gateClosed) rest := by
  refine ⟨_, congrArg (issueLine issues .gateClosed · _) (filter_congr fun i _ => ?_)⟩
  unfold CredentialIssueReason.group alreadyCoveredByAddressLine
  cases i.reason <;> simp

theorem attemptLine_eq (issues : List CredentialIssue) {outcome : AttemptOutcome} (h : outcome ≠ .cancelled) : ∃ rest,
    attemptLine issues outcome =
      issueLine issues (.attempted outcome) (reportedIn issues (.attempted outcome)) rest := by
  unfold attemptLine
  cases outcome with
  | cancelled => exact absurd rfl h
  | _ => exact ⟨_, rfl⟩

structure IsLine (issues : List CredentialIssue) (line : IssueLine) : Prop where
  group_ne : line.group ≠ .attempted .cancelled
  labels : line.labels = targetLabels issues line.ips
  ips : ∀ ip, ip ∈ line.ips ↔ ∃ i ∈ reportedIn issues line.group, i.ip = ip

theorem isLine_of_issueLine
    (h : issueLine issues group (reportedIn issues group) rest = some line)
    (hgroup : group ≠ .attempted .cancelled) : IsLine issues line := by
  obtain ⟨rfl, hlabels, hips⟩ := of_issueLine h
  exact ⟨hgroup, hlabels, hips⟩

theorem isLine_of_mem_issueLines (h : line ∈ issueLines issues) : IsLine issues line := by
  unfold issueLines at h
  rcases mem_append.mp h with h | h
  · rcases mem_append.mp h with h | h
    · rcases mem_append.mp h with h | h
      · obtain ⟨rest, hrest⟩ := notScannedLine_eq issues
        rw [mem_toList, hrest] at h
        exact isLine_of_issueLine h nofun
      · obtain ⟨rest, hrest⟩ := notRespondingLine_eq issues
        rw [mem_toList, hrest] at h
        exact isLine_of_issueLine h nofun
    · obtain ⟨rest, hrest⟩ := gatedLine_eq issues
      rw [mem_toList, hrest] at h
      exact isLine_of_issueLine h nofun
  · obtain ⟨outcome, -, hline⟩ := mem_filterMap.mp h
    have hne : outcome ≠ .cancelled := by
      rintro rfl
      cases hline
    obtain ⟨rest, hrest⟩ := attemptLine_eq issues hne
    rw [hrest] at hline
    exact isLine_of_issueLine hline fun heq => hne (IssueGroup.attempted.inj heq)

theorem exists_mem_issueLines (hi : i ∈ reportedIn issues group)
    (hgroup : group ≠ .attempted .cancelled) : ∃ line ∈ issueLines issues, line.group = group := by
  have hline : ∀ rest, ∃ line, issueLine issues group (reportedIn issues group) rest = some line ∧
      line.group = group := by
    intro rest
    obtain ⟨line, hline⟩ := exists_issueLine issues hi
    exact ⟨line, hline, (of_issueLine hline).1⟩
  unfold issueLines
  cases group with
  | targetNotScanned =>
    obtain ⟨rest, hrest⟩ := notScannedLine_eq issues
    obtain ⟨line, hsome, hgroup⟩ := hline rest
    refine ⟨line, ?_, hgroup⟩
    simp [hrest, hsome]
  | targetNotResponding =>
    obtain ⟨rest, hrest⟩ := notRespondingLine_eq issues
    obtain ⟨line, hsome, hgroup⟩ := hline rest
    refine ⟨line, ?_, hgroup⟩
    simp [hrest, hsome]
  | gateClosed =>
    obtain ⟨rest, hrest⟩ := gatedLine_eq issues
    obtain ⟨line, hsome, hgroup⟩ := hline rest
    refine ⟨line, ?_, hgroup⟩
    simp [hrest, hsome]
  | attempted outcome =>
    have hne : outcome ≠ .cancelled := fun heq => hgroup (congrArg _ heq)
    have horder : outcome ∈ AttemptOutcome.order := by cases outcome <;> decide
    obtain ⟨rest, hrest⟩ := attemptLine_eq issues hne
    obtain ⟨line, hsome, hgroup⟩ := hline rest
    have hmem := mem_filterMap.mpr ⟨outcome, horder, hrest.trans hsome⟩
    exact ⟨line, mem_append_right _ hmem, hgroup⟩

theorem exists_line (hi : i ∈ issues) (hreported : IsReported issues i) :
    ∃ line ∈ issueLines issues, line.group = i.reason.group ∧
      ∀ j ∈ issues, j.ip = i.ip → j.label ∈ line.labels := by
  have hin : i ∈ reportedIn issues i.reason.group := mem_reportedIn.mpr ⟨hi, rfl, hreported.2⟩
  obtain ⟨line, hline, hgroup⟩ := exists_mem_issueLines hin hreported.1
  refine ⟨line, hline, hgroup, fun j hj hip => ?_⟩
  have hspec := isLine_of_mem_issueLines hline
  rw [hspec.labels, mem_targetLabels]
  refine ⟨j, hj, (hspec.ips j.ip).mpr ⟨i, ?_, hip.symm⟩, rfl⟩
  rw [hgroup]
  exact hin

/-- The lines blame the right credentials if the labels at each address agree with the reasons there. -/
theorem blamesRight_iff (issues : List CredentialIssue) : BlamesRight issues ↔ LabelsAgree issues := by
  constructor
  · intro h i hi j hj hreported hip
    obtain ⟨line, hline, hgroup, hlabels⟩ := exists_line hi hreported
    rw [← hgroup]
    exact h.named line hline j.label (hlabels j hj hip)
  · intro h
    refine ⟨fun line hline label hlabel => ?_, fun i hi hreported => ?_⟩
    · have hspec := isLine_of_mem_issueLines hline
      rw [hspec.labels, mem_targetLabels] at hlabel
      obtain ⟨j, hj, hip, rfl⟩ := hlabel
      obtain ⟨i, hi, heq⟩ := (hspec.ips j.ip).mp hip
      obtain ⟨hi, hgroup, hcovered⟩ := mem_reportedIn.mp hi
      have hreported : IsReported issues i := ⟨hgroup ▸ hspec.group_ne, hcovered⟩
      rw [← hgroup]
      exact h i hi j hj hreported heq.symm
    · obtain ⟨line, hline, hgroup, hlabels⟩ := exists_line hi hreported
      exact ⟨line, hline, hgroup, hlabels i hi rfl⟩

section Controller

def controllerIssues : List CredentialIssue :=
  [⟨"SNMP queries", .v4 0x0A000005, .attempted .rejected "SNMP did not authenticate"⟩,
    ⟨"UniFi controller connection", .v4 0x0A000005, .gateClosed [⟨8443, .tcp⟩]⟩]

/-- The operator is told that both were refused, and that both had their port closed. -/
theorem not_blamesRight : ¬∀ issues : List CredentialIssue, BlamesRight issues := by
  intro h
  have hrefused : ⟨"SNMP queries", .v4 0x0A000005, .attempted .rejected "SNMP did not authenticate"⟩ ∈
      controllerIssues := mem_cons_self
  obtain ⟨line, hline, hgroup, hlabels⟩ := exists_line hrefused ⟨by decide, by decide⟩
  have hlabel := hlabels _ (mem_cons_of_mem _ (mem_singleton_self _)) rfl
  obtain ⟨k, hk, hkgroup, hklabel⟩ := (h controllerIssues).named line hline _ hlabel
  rw [hgroup] at hkgroup
  have hnone : ∀ k ∈ controllerIssues, k.reason.group = .attempted .rejected →
      k.label ≠ "UniFi controller connection" := by
    decide
  exact hnone k hk hkgroup hklabel

end Controller

end Lines
end Scanopy
