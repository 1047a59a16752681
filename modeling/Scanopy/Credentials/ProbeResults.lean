import Scanopy.Credentials.Precedence

/-! What is kept of the probes at an address, where every attempt has an outcome of its own: a probe
may answer one time and not another. -/

namespace Scanopy

open List CredentialIssue CredentialQueryPayload

structure ProbeInput (H : Type) where
  mapping : CredentialMapping CredentialQueryPayload
  outcome : ℕ → Except ProbeFailure (ProbeSuccess H)

namespace ProbeEnv
variable {H : Type} (env : ProbeEnv H)

/-- One task: the attempts in order, up to the first that works. -/
def runAttempts (d : CredentialQueryPayloadDiscriminants) :
    List (CredentialQueryPayload × Option Uuid) → (ℕ → Except ProbeFailure (ProbeSuccess H)) →
      List CredentialIssue → Option (ProbeWinner H) × List CredentialIssue
  | [], _, failures => (none, failures)
  | (credential, id) :: rest, outcome, failures =>
    match outcome 0 with
    | .ok success => (some ⟨d, id, credential, success⟩, [])
    | .error failure => runAttempts d rest (fun j => outcome (j + 1))
        (failures ++ (issueForAttempt credential.discoveryLabel env.ip failure id.isSome).toList)

def settleSlot (slot : ProbeSlot) (outcome : ℕ → Except ProbeFailure (ProbeSuccess H)) :
    Option (ProbeWinner H) × List CredentialIssue × DispositionEntry :=
  match slot.task with
  | none => (none, [], slot.entry)
  | some credentials =>
    match env.runAttempts slot.entry.discriminant credentials outcome [] with
    | (some winner, _) => (some winner, [], { slot.entry with disposition := .probed })
    | (none, []) => (none, [], { slot.entry with
        disposition := .suppressed "every credential here is a network default; routine" })
    | (none, failures) => (none, failures, { slot.entry with
        disposition := .suppressed "reported by attempt_credential" })

def slotOf (input : ProbeInput H) :
    Option (ProbeSlot × (ℕ → Except ProbeFailure (ProbeSuccess H))) :=
  (env.openSlot input.mapping).map fun slot => (slot, input.outcome)

/-- `probe_integrations`, for a scan that is not cancelled. -/
def probeResults (inputs : List (ProbeInput H)) : IntegrationProbeResults H :=
  let slots := inputs.filterMap env.slotOf
  let settled := slots.map fun slot => env.settleSlot slot.1 slot.2
  let issues := slots.filterMap (·.1.issue) ++ settled.flatMap (·.2.1) ++
    resolveLedger (settled.map (·.2.2)) env.ip
  (settled.filterMap (·.1)).foldl env.merge { credentialIssues := issues }

def answers (m : CredentialMapping CredentialQueryPayload) (j : ℕ) :
    Except ProbeFailure (ProbeSuccess H) :=
  match m.leading, (resolveCredentialsForIp m env.ip)[j]? with
  | some leading, some c => env.probe leading.discriminant c.1
  | _, _ => .error ⟨.rejected, ""⟩

theorem openSlot_cases {m : CredentialMapping CredentialQueryPayload} {slot : ProbeSlot}
    (h : env.openSlot m = some slot) : ∃ leading, m.leading = some leading ∧
      slot.entry.discriminant = leading.discriminant ∧
      slot.entry.label = leading.discoveryLabel ∧
      ((leading.discriminant = .unknown ∧ slot.issue = none ∧ slot.task = none) ∨
      (leading.discriminant ≠ .unknown ∧ slot.task = none ∧
        (∃ reason, slot.entry.disposition = .suppressed reason) ∧
        (resolveCredentialsForIp m env.ip).head?.all
          (fun first => !env.gateOpen leading.discriminant first.1) = true ∧
        slot.issue = (resolveCredentialsForIp m env.ip).head?.bind fun first =>
          ((resolveCredentialsForIp m env.ip).find? fun c => c.2.isSome).map fun c =>
            ⟨c.1.discoveryLabel, env.ip, .gateClosed (probeGatePorts leading.discriminant first.1)⟩) ∨
      (leading.discriminant ≠ .unknown ∧ slot.issue = none ∧
        slot.task = some (resolveCredentialsForIp m env.ip) ∧
        (resolveCredentialsForIp m env.ip).head?.any
          (fun first => env.gateOpen leading.discriminant first.1) = true)) := by
  obtain ⟨leading, hleading, rfl⟩ := Option.map_eq_some_iff.mp h
  refine ⟨leading, hleading, ?_⟩
  dsimp only
  by_cases hunknown : leading.discriminant = .unknown
  · rw [if_pos hunknown]
    exact ⟨rfl, rfl, .inl ⟨hunknown, rfl, rfl⟩⟩
  rw [if_neg hunknown]
  cases hcredentials : resolveCredentialsForIp m env.ip with
  | nil => exact ⟨rfl, rfl, .inr (.inl ⟨hunknown, rfl, ⟨_, rfl⟩, rfl, rfl⟩)⟩
  | cons first rest =>
    obtain ⟨credential, id⟩ := first
    dsimp only [head?_cons, Option.any_some, Option.all_some, Option.bind_some]
    by_cases hopen : env.gateOpen leading.discriminant credential = true
    · rw [if_pos hopen]
      exact ⟨rfl, rfl, .inr (.inr ⟨hunknown, rfl, rfl, hopen⟩)⟩
    · have hclosed : (!env.gateOpen leading.discriminant credential) = true := by simpa using hopen
      rw [if_neg hopen]
      cases ((credential, id) :: rest).find? fun c => c.2.isSome with
      | none => exact ⟨rfl, rfl, .inr (.inl ⟨hunknown, rfl, ⟨_, rfl⟩, hclosed, rfl⟩)⟩
      | some c => exact ⟨rfl, rfl, .inr (.inl ⟨hunknown, rfl, ⟨_, rfl⟩, hclosed, rfl⟩)⟩

section Attempts
variable {env} {d : CredentialQueryPayloadDiscriminants}
  {credentials : List (CredentialQueryPayload × Option Uuid)}
  {outcome : ℕ → Except ProbeFailure (ProbeSuccess H)} {failures : List CredentialIssue}

def firstSuccess (outcome : ℕ → Except ProbeFailure (ProbeSuccess H)) (attempts : ℕ) :
    Option (ProbeSuccess H) :=
  (List.range attempts).findSome? fun j => (outcome j).toOption

theorem firstSuccess_succ (outcome : ℕ → Except ProbeFailure (ProbeSuccess H)) (attempts : ℕ) :
    firstSuccess outcome (attempts + 1) =
      (outcome 0).toOption.or (firstSuccess (fun j => outcome (j + 1)) attempts) := by
  unfold firstSuccess
  rw [range_succ_eq_map, findSome?_cons, findSome?_map]
  cases (outcome 0).toOption <;> rfl

theorem success_runAttempts : (env.runAttempts d credentials outcome failures).1.map
    (fun w => (w.discriminant, w.success)) =
      (firstSuccess outcome credentials.length).map fun success => (d, success) := by
  induction credentials generalizing outcome failures with
  | nil => rfl
  | cons c rest ih =>
    obtain ⟨credential, id⟩ := c
    rw [runAttempts, length_cons, firstSuccess_succ]
    cases outcome 0 with
    | ok success => rfl
    | error failure => exact ih

theorem mem_failures_runAttempts (hnone : firstSuccess outcome credentials.length = none)
    {issue : CredentialIssue} : issue ∈ (env.runAttempts d credentials outcome failures).2 ↔
      issue ∈ failures ∨
      ∃ (j : ℕ) (c : CredentialQueryPayload × Option Uuid) (failure : ProbeFailure),
        credentials[j]? = some c ∧ outcome j = .error failure ∧
          issueForAttempt c.1.discoveryLabel env.ip failure c.2.isSome = some issue := by
  induction credentials generalizing outcome failures with
  | nil => simp [runAttempts]
  | cons c rest ih =>
    obtain ⟨credential, id⟩ := c
    rw [length_cons, firstSuccess_succ] at hnone
    rw [runAttempts]
    cases houtcome : outcome 0 with
    | ok success =>
      rw [houtcome] at hnone
      cases hnone
    | error failure =>
      rw [houtcome] at hnone
      dsimp only
      rw [ih hnone, mem_append, Option.mem_toList, or_assoc]
      refine or_congr_right ?_
      -- the attempts of the rest are one further
      constructor
      · rintro (hfirst | ⟨j, c, failure', hc, hj, hissue⟩)
        · exact ⟨0, (credential, id), failure, rfl, houtcome, hfirst⟩
        · exact ⟨j + 1, c, failure', hc, hj, hissue⟩
      · rintro ⟨j, c, failure', hc, hj, hissue⟩
        cases j with
        | zero =>
          cases hc
          rw [houtcome] at hj
          cases hj
          exact .inl hissue
        | succ j => exact .inr ⟨j, c, failure', hc, hj, hissue⟩

end Attempts

def winnerOf (input : ProbeInput H) : Option (ProbeWinner H) :=
  (env.slotOf input).bind fun slot => (env.settleSlot slot.1 slot.2).1

def answer (input : ProbeInput H) :
    Option (CredentialQueryPayloadDiscriminants × ProbeSuccess H) :=
  input.mapping.leading.bind fun leading =>
    (resolveCredentialsForIp input.mapping env.ip).head?.bind fun first =>
      if leading.discriminant ≠ .unknown ∧ env.gateOpen leading.discriminant first.1 = true then
        (firstSuccess input.outcome (resolveCredentialsForIp input.mapping env.ip).length).map
          fun success => (leading.discriminant, success)
      else none

/-- A mapping reports a credential of the integration: the gate is closed and it is the first that
is pinned to the address, or nothing works and it is one of those that have failed. -/
def Complains (input : ProbeInput H) (d : CredentialQueryPayloadDiscriminants) : Prop :=
  let credentials := resolveCredentialsForIp input.mapping env.ip
  ∃ leading first, input.mapping.leading = some leading ∧ leading.discriminant ≠ .unknown ∧
    credentials.head? = some first ∧
    ((env.gateOpen leading.discriminant first.1 = false ∧
      ∃ c, credentials.find? (fun c => c.2.isSome) = some c ∧ c.1.discriminant = d) ∨
    (env.gateOpen leading.discriminant first.1 = true ∧
      firstSuccess input.outcome credentials.length = none ∧
      ∃ (j : ℕ) (c : CredentialQueryPayload × Option Uuid) (failure : ProbeFailure),
        credentials[j]? = some c ∧ c.2.isSome = true ∧ c.1.discriminant = d ∧
          input.outcome j = .error failure ∧ failure.outcome ≠ .cancelled))

end ProbeEnv

def CredentialIssue.IsFor (issue : CredentialIssue) (d : CredentialQueryPayloadDiscriminants) :
    Prop :=
  ∃ payload : CredentialQueryPayload, payload.discriminant = d ∧
    issue.label = payload.discoveryLabel

variable {issue : CredentialIssue} {p : CredentialQueryPayload}

theorem discoveryLabel_inj {p' : CredentialQueryPayload} :
    p.discoveryLabel = p'.discoveryLabel ↔ p.discriminant = p'.discriminant := by
  cases p <;> cases p' <;>
    simp [discoveryLabel, discriminant]

theorem CredentialIssue.isFor_iff
    (h : issue.label = p.discoveryLabel) {d : CredentialQueryPayloadDiscriminants} :
    issue.IsFor d ↔ p.discriminant = d := by
  constructor
  · rintro ⟨p', rfl, hlabel⟩
    exact discoveryLabel_inj.mp (h.symm.trans hlabel)
  · exact fun hd => ⟨p, hd, h⟩

theorem issueForAttempt_eq_some {label : String} {ip : IpAddr} {failure : ProbeFailure}
    {userAssigned : Bool} :
    issueForAttempt label ip failure userAssigned = some issue ↔
      (userAssigned = true ∧ failure.outcome ≠ .cancelled) ∧
        ⟨label, ip, .attempted failure.outcome failure.message⟩ = issue := by
  unfold issueForAttempt
  split_ifs with hquiet
  · refine iff_of_false (fun h => nomatch h) fun h => ?_
    simp [h.1.1, h.1.2] at hquiet
  · rw [Option.some.injEq]
    refine (and_iff_right ?_).symm
    simpa using hquiet

namespace ProbeEnv
variable {H : Type} {env : ProbeEnv H} {input : ProbeInput H} {inputs : List (ProbeInput H)}
  {d : CredentialQueryPayloadDiscriminants} {issue : CredentialIssue}

theorem fst_settleSlot (slot : ProbeSlot)
    (outcome : ℕ → Except ProbeFailure (ProbeSuccess H)) : (env.settleSlot slot outcome).1 =
      slot.task.bind fun credentials =>
        (env.runAttempts slot.entry.discriminant credentials outcome []).1 := by
  unfold settleSlot
  cases slot.task with
  | none => rfl
  | some credentials =>
    rcases hrun : env.runAttempts slot.entry.discriminant credentials outcome [] with
      ⟨_ | w, _ | ⟨i, is⟩⟩ <;> simp [hrun]

theorem answer_eq (env : ProbeEnv H) (input : ProbeInput H) : env.answer input =
    (env.winnerOf input).map fun w => (w.discriminant, w.success) := by
  unfold answer winnerOf slotOf
  rw [Option.bind_map]
  cases hslot : env.openSlot input.mapping with
  | none =>
    rw [Option.map_eq_none_iff.mp hslot]
    rfl
  | some slot =>
    obtain ⟨leading, hleading, hd, -, hcases⟩ := env.openSlot_cases hslot
    rw [hleading, Option.bind_some, Option.bind_some]
    show _ = (env.settleSlot slot input.outcome).1.map _
    rw [fst_settleSlot]
    rcases hcases with ⟨hunknown, -, htask⟩ | ⟨-, htask, -, hclosed, -⟩ | ⟨hknown, -, htask, hopen⟩
    · rw [htask]
      cases (resolveCredentialsForIp input.mapping env.ip).head? with
      | none => rfl
      | some first => exact if_neg fun h => h.1 hunknown
    · rw [htask]
      cases hhead : (resolveCredentialsForIp input.mapping env.ip).head? with
      | none => rfl
      | some first =>
        rw [hhead] at hclosed
        exact if_neg fun h => by simp [h.2] at hclosed
    · rw [htask, Option.bind_some, success_runAttempts, hd]
      cases hhead : (resolveCredentialsForIp input.mapping env.ip).head? with
      | none =>
        rw [hhead] at hopen
        cases hopen
      | some first =>
        rw [hhead] at hopen
        exact if_pos ⟨hknown, hopen⟩

section Results

theorem credentialIssues_foldl_merge (winners : List (ProbeWinner H))
    (results : IntegrationProbeResults H) :
    (winners.foldl env.merge results).credentialIssues = results.credentialIssues := by
  induction winners generalizing results with
  | nil => rfl
  | cons w winners ih => exact ih _

def Reports (env : ProbeEnv H) (input : ProbeInput H) (issue : CredentialIssue) : Prop :=
  ∃ slot, env.openSlot input.mapping = some slot ∧
    (slot.issue = some issue ∨ issue ∈ (env.settleSlot slot input.outcome).2.1 ∨
      issue ∈ resolveLedger [(env.settleSlot slot input.outcome).2.2] env.ip)

theorem probeResults_eq (env : ProbeEnv H) (inputs : List (ProbeInput H)) :
    ∃ issues, env.probeResults inputs =
      (inputs.filterMap env.winnerOf).foldl env.merge { credentialIssues := issues } ∧
      ∀ issue, issue ∈ issues ↔ ∃ input ∈ inputs, env.Reports input issue := by
  have hwinners : ((inputs.filterMap env.slotOf).map fun slot =>
      env.settleSlot slot.1 slot.2).filterMap (·.1) = inputs.filterMap env.winnerOf := by
    rw [map_filterMap, filterMap_filterMap]
    refine filterMap_congr fun input _ => ?_
    unfold winnerOf
    cases env.slotOf input <;> rfl
  refine ⟨_, by rw [probeResults, hwinners], fun issue => ?_⟩
  simp only [mem_append, mem_filterMap, mem_flatMap, mem_map, slotOf,
    Option.map_eq_some_iff, resolveLedger]
  constructor
  · rintro ((⟨-, ⟨input, hinput, slot, hslot, rfl⟩, hissue⟩ |
      ⟨-, ⟨-, ⟨input, hinput, slot, hslot, rfl⟩, rfl⟩, hissue⟩) |
      ⟨-, ⟨-, ⟨-, ⟨input, hinput, slot, hslot, rfl⟩, rfl⟩, rfl⟩, hissue⟩)
    · exact ⟨input, hinput, slot, hslot, .inl hissue⟩
    · exact ⟨input, hinput, slot, hslot, .inr (.inl hissue)⟩
    · exact ⟨input, hinput, slot, hslot, .inr (.inr (mem_filterMap.mpr
        ⟨_, mem_singleton_self _, hissue⟩))⟩
  · rintro ⟨input, hinput, slot, hslot, hissue | hissue | hissue⟩
    · exact .inl (.inl ⟨_, ⟨input, hinput, slot, hslot, rfl⟩, hissue⟩)
    · exact .inl (.inr ⟨_, ⟨_, ⟨input, hinput, slot, hslot, rfl⟩, rfl⟩, hissue⟩)
    · obtain ⟨entry, hentry, hissue⟩ := mem_filterMap.mp hissue
      rw [mem_singleton] at hentry
      subst hentry
      exact .inr ⟨_, ⟨_, ⟨_, ⟨input, hinput, slot, hslot, rfl⟩, rfl⟩, rfl⟩, hissue⟩

theorem workingCredentialIds_probeResults (env : ProbeEnv H) (inputs : List (ProbeInput H))
    (d : CredentialQueryPayloadDiscriminants) :
    (env.probeResults inputs).workingCredentialIds.get d =
      ((inputs.filterMap env.winnerOf).filter fun w => w.discriminant = d).getLast?.map
        fun w => (w.credentialId, w.credential) := by
  obtain ⟨issues, heq, -⟩ := probeResults_eq env inputs
  rw [heq, workingCredentialIds_foldl_merge, HashMap.get_foldl_insert]
  exact Option.or_none

theorem probeHandles_foldl_merge (winners : List (ProbeWinner H))
    (results : IntegrationProbeResults H) :
    (winners.foldl env.merge results).probeHandles =
      (winners.filterMap fun w => w.success.handle.map fun h => (w.discriminant, h)).foldl
        (fun handles e => handles.insert e.1 e.2) results.probeHandles := by
  induction winners generalizing results with
  | nil => rfl
  | cons w winners ih =>
    rw [foldl_cons, ih, filterMap_cons]
    rw [merge]
    cases w.success.handle with
    | none => simp only [Option.map_none]
    | some handle => simp only [Option.map_some, foldl_cons]

theorem probeHandles_probeResults (env : ProbeEnv H) (inputs : List (ProbeInput H))
    (d : CredentialQueryPayloadDiscriminants) :
    (env.probeResults inputs).probeHandles.get d =
      (((inputs.filterMap env.winnerOf).filter fun w => w.discriminant = d).filterMap
        fun w => w.success.handle).getLast? := by
  obtain ⟨issues, heq, -⟩ := probeResults_eq env inputs
  rw [heq, probeHandles_foldl_merge, HashMap.get_foldl_insert_filterMap]
  exact Option.or_none

theorem mem_credentialIssues : issue ∈ (env.probeResults inputs).credentialIssues ↔
    ∃ input ∈ inputs, env.Reports input issue := by
  obtain ⟨issues, heq, hissues⟩ := probeResults_eq env inputs
  rw [heq, credentialIssues_foldl_merge]
  exact hissues issue

theorem label_of_mem_resolveLedger {entry : DispositionEntry} {ip : IpAddr}
    (h : issue ∈ resolveLedger [entry] ip) :
    (∃ failure, entry.disposition = .failed failure) ∧ issue.label = entry.label := by
  obtain ⟨entry', hentry', hissue⟩ := mem_filterMap.mp h
  rw [mem_singleton] at hentry'
  subst hentry'
  split at hissue
  · rename_i failure hfailed
    obtain ⟨-, rfl⟩ := issueForAttempt_eq_some.mp hissue
    exact ⟨⟨failure, hfailed⟩, rfl⟩
  · cases hissue
  · cases hissue
  · cases hissue

theorem settleSlot_of_task (env : ProbeEnv H) {slot : ProbeSlot}
    {credentials : List (CredentialQueryPayload × Option Uuid)}
    (outcome : ℕ → Except ProbeFailure (ProbeSuccess H)) (htask : slot.task = some credentials) :
    (∀ failure, (env.settleSlot slot outcome).2.2.disposition ≠ .failed failure) ∧
      ∀ issue, issue ∈ (env.settleSlot slot outcome).2.1 ↔
        firstSuccess outcome credentials.length = none ∧
          issue ∈ (env.runAttempts slot.entry.discriminant credentials outcome []).2 := by
  have hsuccess : (env.runAttempts slot.entry.discriminant credentials outcome []).1.map
      (fun w => (w.discriminant, w.success)) = _ := success_runAttempts
  unfold settleSlot
  rw [htask]
  dsimp only
  -- of the run, only whether it has a winner matters
  revert hsuccess
  generalize env.runAttempts slot.entry.discriminant credentials outcome [] = run
  intro hsuccess
  obtain ⟨_ | w, failures⟩ := run
  · have hnone : firstSuccess outcome credentials.length = none :=
      Option.map_eq_none_iff.mp hsuccess.symm
    cases failures with
    | nil => simp
    | cons i is => simp [hnone]
  · have hsome : firstSuccess outcome credentials.length ≠ none := by
      intro hnone
      rw [hnone] at hsuccess
      cases hsuccess
    simp [hsome]

section Slot
variable {slot : ProbeSlot} {leading : CredentialQueryPayload}

theorem not_reports_of_unknown (hslot : env.openSlot input.mapping = some slot)
    (hlabel : slot.entry.label = leading.discoveryLabel) (hunknown : leading.discriminant = .unknown)
    (hissue : slot.issue = none) (htask : slot.task = none) (hd : d ≠ .unknown) :
    ¬ ∃ issue, env.Reports input issue ∧ issue.IsFor d := by
  rintro ⟨issue, ⟨slot', hslot', hreports⟩, hfor⟩
  obtain rfl := Option.some.inj (hslot.symm.trans hslot')
  rw [settleSlot, htask, hissue] at hreports
  rcases hreports with h | h | h
  · cases h
  · cases h
  · have hleads := (label_of_mem_resolveLedger h).2.trans hlabel
    exact hd ((isFor_iff hleads).mp hfor ▸ hunknown)

theorem exists_reports_of_closed (hslot : env.openSlot input.mapping = some slot)
    (htask : slot.task = none)
    (hsuppressed : ∃ reason, slot.entry.disposition = .suppressed reason) :
    (∃ issue, env.Reports input issue ∧ issue.IsFor d) ↔
      ∃ issue, slot.issue = some issue ∧ issue.IsFor d := by
  constructor
  · rintro ⟨issue, ⟨slot', hslot', hreports⟩, hfor⟩
    obtain rfl := Option.some.inj (hslot.symm.trans hslot')
    rw [settleSlot, htask] at hreports
    rcases hreports with h | h | h
    · exact ⟨issue, h, hfor⟩
    · cases h
    · obtain ⟨⟨failure, hfailed⟩, -⟩ := label_of_mem_resolveLedger h
      obtain ⟨reason, hreason⟩ := hsuppressed
      rw [hreason] at hfailed
      cases hfailed
  · rintro ⟨issue, hissue, hfor⟩
    exact ⟨issue, ⟨slot, hslot, .inl hissue⟩, hfor⟩

theorem exists_reports_of_open (hslot : env.openSlot input.mapping = some slot)
    (hissue : slot.issue = none) {credentials : List (CredentialQueryPayload × Option Uuid)}
    (htask : slot.task = some credentials) :
    (∃ issue, env.Reports input issue ∧ issue.IsFor d) ↔
      firstSuccess input.outcome credentials.length = none ∧
        ∃ (j : ℕ) (c : CredentialQueryPayload × Option Uuid) (failure : ProbeFailure),
          credentials[j]? = some c ∧ c.2.isSome = true ∧ c.1.discriminant = d ∧
            input.outcome j = .error failure ∧ failure.outcome ≠ .cancelled := by
  obtain ⟨hledger, hfailures⟩ := env.settleSlot_of_task input.outcome htask
  constructor
  · rintro ⟨issue, ⟨slot', hslot', hreports⟩, hfor⟩
    obtain rfl := Option.some.inj (hslot.symm.trans hslot')
    rcases hreports with h | h | h
    · rw [hissue] at h
      cases h
    · obtain ⟨hnone, hmem⟩ := (hfailures issue).mp h
      refine ⟨hnone, ?_⟩
      rcases (mem_failures_runAttempts hnone).mp hmem with hnil | ⟨j, c, failure, hc, hj, hattempt⟩
      · cases hnil
      · obtain ⟨⟨hassigned, hrun⟩, rfl⟩ := issueForAttempt_eq_some.mp hattempt
        exact ⟨j, c, failure, hc, hassigned, (isFor_iff rfl).mp hfor, hj, hrun⟩
    · obtain ⟨⟨failure, hfailed⟩, -⟩ := label_of_mem_resolveLedger h
      exact absurd hfailed (hledger failure)
  · rintro ⟨hnone, j, c, failure, hc, hassigned, hcd, hj, hrun⟩
    have hattempt : issueForAttempt c.1.discoveryLabel env.ip failure c.2.isSome =
        some ⟨c.1.discoveryLabel, env.ip, .attempted failure.outcome failure.message⟩ :=
      issueForAttempt_eq_some.mpr ⟨⟨hassigned, hrun⟩, rfl⟩
    exact ⟨_, ⟨slot, hslot, .inr (.inl ((hfailures _).mpr ⟨hnone,
      (mem_failures_runAttempts hnone).mpr (.inr ⟨j, c, failure, hc, hj, hattempt⟩)⟩))⟩,
      (isFor_iff rfl).mpr hcd⟩

end Slot

theorem exists_reports_iff (hd : d ≠ .unknown) :
    (∃ issue, env.Reports input issue ∧ issue.IsFor d) ↔ env.Complains input d := by
  cases hslot : env.openSlot input.mapping with
  | none =>
    have hleading : input.mapping.leading = none := Option.map_eq_none_iff.mp hslot
    refine iff_of_false ?_ ?_
    · rintro ⟨issue, ⟨slot, hsome, -⟩, -⟩
      rw [hslot] at hsome
      cases hsome
    · rintro ⟨leading, first, hsome, -⟩
      rw [hleading] at hsome
      cases hsome
  | some slot =>
    obtain ⟨leading, hleading, -, hlabel, hcases⟩ := env.openSlot_cases hslot
    rcases hcases with ⟨hunknown, hissue, htask⟩ | ⟨hknown, htask, hreason, hclosed, hissue⟩ |
      ⟨hknown, hissue, htask, hopen⟩
    · refine iff_of_false (not_reports_of_unknown hslot hlabel hunknown hissue htask hd) ?_
      rintro ⟨leading', first, hleading', hknown, -⟩
      rw [hleading] at hleading'
      cases hleading'
      exact hknown hunknown
    · rw [exists_reports_of_closed hslot htask hreason, hissue]
      constructor
      · rintro ⟨issue, h, hfor⟩
        obtain ⟨first, hfirst, h⟩ := Option.bind_eq_some_iff.mp h
        obtain ⟨c, hc, rfl⟩ := Option.map_eq_some_iff.mp h
        rw [hfirst] at hclosed
        exact ⟨leading, first, hleading, hknown, hfirst, .inl ⟨by simpa using hclosed, c, hc,
          (isFor_iff rfl).mp hfor⟩⟩
      · rintro ⟨leading', first, hleading', -, hfirst, ⟨-, c, hc, hcd⟩ | ⟨hopen, -⟩⟩
        · exact ⟨_, by rw [hfirst, Option.bind_some, hc]; rfl,
            (isFor_iff rfl).mpr hcd⟩
        · obtain rfl := Option.some.inj (hleading.symm.trans hleading')
          rw [hfirst] at hclosed
          simp [hopen] at hclosed
    · rw [exists_reports_of_open hslot hissue htask]
      obtain ⟨first, hfirst, hopen⟩ := (Option.any_eq_true _ _).mp hopen
      constructor
      · exact fun h => ⟨leading, first, hleading, hknown, hfirst, .inr ⟨hopen, h⟩⟩
      · rintro ⟨leading', first', hleading', -, hfirst', ⟨hclosed, -⟩ | ⟨-, h⟩⟩
        · obtain rfl := Option.some.inj (hleading.symm.trans hleading')
          obtain rfl := Option.some.inj (hfirst.symm.trans hfirst')
          rw [hopen] at hclosed
          cases hclosed
        · exact h

def recorded (env : ProbeEnv H) (inputs : List (ProbeInput H))
    (d : CredentialQueryPayloadDiscriminants) : Option (ProbeWinner H) :=
  ((inputs.filterMap env.winnerOf).filter fun w => w.discriminant = d).getLast?

structure BelongTogether (env : ProbeEnv H) (inputs : List (ProbeInput H)) : Prop where
  handles : ∀ d handle, (env.probeResults inputs).probeHandles.get d = some handle →
    ∃ w, env.recorded inputs d = some w ∧ w.success.handle = some handle ∧
      (env.probeResults inputs).workingCredentialIds.get d = some (w.credentialId, w.credential)
  issues : ∀ input ∈ inputs, ∀ d success, env.answer input = some (d, success) →
    ∀ issue ∈ (env.probeResults inputs).credentialIssues, ¬ issue.IsFor d

def LastHasHandle (env : ProbeEnv H) (inputs : List (ProbeInput H)) : Prop :=
  ∀ d success, ((inputs.filterMap env.answer).filter fun a => a.1 = d).getLast? = some (d, success) →
    success.handle = none → ∀ a ∈ inputs.filterMap env.answer, a.1 = d → a.2.handle = none

theorem answers_eq (env : ProbeEnv H) (inputs : List (ProbeInput H)) :
    inputs.filterMap env.answer =
      (inputs.filterMap env.winnerOf).map fun w => (w.discriminant, w.success) := by
  rw [map_filterMap]
  exact filterMap_congr fun input _ => env.answer_eq input

theorem handles_iff (env : ProbeEnv H) (inputs : List (ProbeInput H)) :
    (∀ d handle, (env.probeResults inputs).probeHandles.get d = some handle →
      ∃ w, env.recorded inputs d = some w ∧ w.success.handle = some handle ∧
        (env.probeResults inputs).workingCredentialIds.get d =
          some (w.credentialId, w.credential)) ↔ env.LastHasHandle inputs := by
  refine forall_congr' fun d => ?_
  have hrecorded : ∀ handle, (∃ w, env.recorded inputs d = some w ∧
      w.success.handle = some handle ∧ (env.probeResults inputs).workingCredentialIds.get d =
        some (w.credentialId, w.credential)) ↔
      ∃ w, env.recorded inputs d = some w ∧ w.success.handle = some handle := by
    intro handle
    rw [workingCredentialIds_probeResults]
    refine exists_congr fun w => and_congr_right fun hw => and_iff_left ?_
    exact congrArg (Option.map _) hw
  have hlast : ((inputs.filterMap env.answer).filter fun a => a.1 = d).getLast? =
      (env.recorded inputs d).map fun w => (w.discriminant, w.success) := by
    rw [answers_eq, filter_map, getLast?_map]
    rfl
  simp only [hrecorded, probeHandles_probeResults, hlast]
  refine (HashMap.getLast?_filterMap_iff (fun w : ProbeWinner H => w.success.handle) _).trans ?_
  constructor
  · intro h success hsuccess hnone a ha had
    obtain ⟨w, hw, heq⟩ := Option.map_eq_some_iff.mp hsuccess
    cases heq
    rw [answers_eq] at ha
    obtain ⟨w', hw', rfl⟩ := mem_map.mp ha
    exact h w hw hnone w' (mem_filter.mpr ⟨hw', decide_eq_true had⟩)
  · intro h w hw hnone w' hw'
    obtain ⟨hmem, hd'⟩ := mem_filter.mp hw'
    have hd : w.discriminant = d := of_decide_eq_true (mem_filter.mp (mem_of_getLast? hw)).2
    refine h w.success (Option.map_eq_some_iff.mpr ⟨w, hw, by rw [hd]⟩) hnone
      (w'.discriminant, w'.success) ?_ (of_decide_eq_true hd')
    rw [answers_eq]
    exact mem_map_of_mem hmem

theorem ne_unknown_of_answer {success : ProbeSuccess H}
    (h : env.answer input = some (d, success)) : d ≠ .unknown := by
  obtain ⟨leading, -, h⟩ := Option.bind_eq_some_iff.mp h
  obtain ⟨first, -, h⟩ := Option.bind_eq_some_iff.mp h
  split_ifs at h with hcond
  obtain ⟨_, -, h⟩ := Option.map_eq_some_iff.mp h
  cases h
  exact hcond.1

theorem belongTogether_iff (env : ProbeEnv H) (inputs : List (ProbeInput H)) :
    env.BelongTogether inputs ↔ env.LastHasHandle inputs ∧
      ∀ input ∈ inputs, ∀ d success, env.answer input = some (d, success) →
        ∀ input' ∈ inputs, ¬ env.Complains input' d := by
  rw [← handles_iff]
  have hissues : ∀ input ∈ inputs, ∀ d success, env.answer input = some (d, success) →
      ((∀ issue ∈ (env.probeResults inputs).credentialIssues, ¬ issue.IsFor d) ↔
        ∀ input' ∈ inputs, ¬ env.Complains input' d) := by
    intro input _ d success hanswer
    have hd := ne_unknown_of_answer hanswer
    constructor
    · intro h input' hinput' hcomplains
      obtain ⟨issue, hreports, hfor⟩ := (exists_reports_iff hd).mpr hcomplains
      exact h issue (mem_credentialIssues.mpr ⟨input', hinput', hreports⟩) hfor
    · intro h issue hissue hfor
      obtain ⟨input', hinput', hreports⟩ := mem_credentialIssues.mp hissue
      exact h input' hinput' ((exists_reports_iff hd).mp ⟨issue, hreports, hfor⟩)
  constructor
  · intro h
    exact ⟨h.handles, fun input hinput d success hanswer =>
      (hissues input hinput d success hanswer).mp (h.issues input hinput d success hanswer)⟩
  · rintro ⟨hhandles, h⟩
    exact ⟨hhandles, fun input hinput d success hanswer =>
      (hissues input hinput d success hanswer).mpr (h input hinput d success hanswer)⟩

end Results

def assignedVersions : List (ProbeInput Unit) :=
  let assigned (version : SnmpVersion) (id : Uuid) : CredentialMapping CredentialQueryPayload :=
    ⟨none, [⟨coreSwitch.ip, .snmp ⟨version, .value "public", none⟩, id⟩]⟩
  [⟨assigned .v1 1, fun _ => .error ⟨.timedOut, "no answer"⟩⟩,
    ⟨assigned .v2c 2, fun _ => .ok ⟨.snmp, [], none⟩⟩]

/-- The first is reported, though nothing is wrong. -/
theorem not_belongTogether_assignedVersions :
    ¬ ∀ (env : ProbeEnv Unit) (inputs : List (ProbeInput Unit)), env.BelongTogether inputs := by
  intro h
  have hissue : (⟨"SNMP queries", coreSwitch.ip, .attempted .timedOut "no answer"⟩ :
      CredentialIssue) ∈ (coreSwitch.probeResults assignedVersions).credentialIssues := by
    decide +kernel
  refine (h coreSwitch assignedVersions).issues _ (mem_of_getElem? (i := 1) rfl) .snmp _ rfl
    _ hissue ?_
  exact ⟨.snmp ⟨.v1, .value "public", none⟩, rfl, rfl⟩

end ProbeEnv
end Scanopy
