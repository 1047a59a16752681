import Scanopy.Lib.HashMap
import Scanopy.Lib.Lts
import Scanopy.Credentials.Types

/-! The two junction tables under concurrent calls. A save replaces the rows of its parent in one
transaction; a merge reads the rows it is to extend before that, and not under its lock. -/

namespace Scanopy

open List Or

abbrev NetworkCredentials := Table NetworkCredential.key
abbrev HostCredentials := Table HostCredential.key

def saveForNetwork (t : NetworkCredentials) (networkId : Uuid) (credentialIds : List Uuid) :
    Option NetworkCredentials :=
  t.replaceWhere (fun r => r.networkId = networkId) (credentialIds.map fun c => ⟨networkId, c⟩)

def saveNetworksForCredential (t : NetworkCredentials) (credentialId : Uuid)
    (networkIds : List Uuid) : Option NetworkCredentials :=
  t.replaceWhere (fun r => r.credentialId = credentialId)
    (networkIds.map fun n => ⟨n, credentialId⟩)

def saveForHost (t : HostCredentials) (hostId : Uuid) (assignments : List CredentialAssignment) :
    Option HostCredentials :=
  t.replaceWhere (fun r => r.hostId = hostId)
    (assignments.map fun a => ⟨hostId, a.credentialId, a.ipAddressIds⟩)

def saveHostAssignmentsForCredential (t : HostCredentials) (credentialId : Uuid)
    (assignments : List CredentialHostAssignment) : Option HostCredentials :=
  t.replaceWhere (fun r => r.credentialId = credentialId)
    (assignments.map fun a => ⟨a.hostId, credentialId, a.ipAddressIds⟩)

/-- The network's credentials, with those of `incoming` that it does not have yet. -/
def mergedCredentials (existing incoming : List Uuid) : List Uuid :=
  incoming.foldl (fun merged c => if merged.contains c then merged else merged ++ [c]) existing

/-- The host's assignments with those of `incoming` over them. -/
def mergedAssignments (existing incoming : List CredentialAssignment) : List CredentialAssignment :=
  existing.filter (fun a => !(incoming.map (·.credentialId)).contains a.credentialId) ++ incoming

inductive PendingMerge
  | network (networkId : Uuid) (existing incoming : List Uuid)
  | host (hostId : Uuid) (existing incoming : List CredentialAssignment)

structure JunctionState where
  networkCredentials : NetworkCredentials
  hostCredentials : HostCredentials
  merges : HashMap ℕ PendingMerge

namespace JunctionState

def credentialIdsForNetwork (s : JunctionState) (networkId : Uuid) : List Uuid :=
  (s.networkCredentials.rows.filter fun r => r.networkId = networkId).map (·.credentialId)

def assignmentsForHost (s : JunctionState) (hostId : Uuid) : List CredentialAssignment :=
  (s.hostCredentials.rows.filter fun r => r.hostId = hostId).map fun r =>
    ⟨r.credentialId, r.ipAddressIds⟩

end JunctionState

/-- A read or a save of a call. The calls of a merge are told apart by a number. -/
inductive JunctionOp
  | readNetwork (call : ℕ) (networkId : Uuid) (incoming : List Uuid)
  | saveNetwork (call : ℕ) (networkId : Uuid) (incoming : List Uuid)
  | readHost (call : ℕ) (hostId : Uuid) (incoming : List CredentialAssignment)
  | saveHost (call : ℕ) (hostId : Uuid) (incoming : List CredentialAssignment)
  | setCredentialNetworks (credentialId : Uuid) (networkIds : List Uuid)
  | setCredentialHostAssignments (credentialId : Uuid)
      (assignments : List CredentialHostAssignment)
  | fail (call : ℕ)

/-- A save that would repeat a key is rolled back: the call ends and the tables are as before. -/
def junctionStep (s : JunctionState) : JunctionOp → Option JunctionState
  | .readNetwork call networkId incoming =>
    if s.merges.contains call then none
    else
      let read := .network networkId (s.credentialIdsForNetwork networkId) incoming
      some { s with merges := s.merges.insert call read }
  | .saveNetwork call networkId incoming =>
    match s.merges.get call with
    | some (.network networkId' existing incoming') =>
      if networkId' = networkId ∧ incoming' = incoming then
        some { s with
          networkCredentials := (saveForNetwork s.networkCredentials networkId
            (mergedCredentials existing incoming)).getD s.networkCredentials
          merges := s.merges.remove call }
      else none
    | _ => none
  | .readHost call hostId incoming =>
    if s.merges.contains call then none
    else
      let read := .host hostId (s.assignmentsForHost hostId) incoming
      some { s with merges := s.merges.insert call read }
  | .saveHost call hostId incoming =>
    match s.merges.get call with
    | some (.host hostId' existing incoming') =>
      if hostId' = hostId ∧ incoming' = incoming then
        some { s with
          hostCredentials := (saveForHost s.hostCredentials hostId
            (mergedAssignments existing incoming)).getD s.hostCredentials
          merges := s.merges.remove call }
      else none
    | _ => none
  | .setCredentialNetworks credentialId networkIds =>
    some { s with
      networkCredentials := (saveNetworksForCredential s.networkCredentials credentialId
        networkIds).getD s.networkCredentials }
  | .setCredentialHostAssignments credentialId assignments =>
    some { s with
      hostCredentials := (saveHostAssignmentsForCredential s.hostCredentials credentialId
        assignments).getD s.hostCredentials }
  | .fail call =>
    if s.merges.contains call then some { s with merges := s.merges.remove call } else none

def junctions (networkCredentials : NetworkCredentials) (hostCredentials : HostCredentials) :
    Lts JunctionState JunctionOp where
  init := ⟨networkCredentials, hostCredentials, .empty⟩
  step := junctionStep

def Undisturbed (s : JunctionState) : JunctionOp → Prop
  | .saveNetwork call networkId incoming => ∀ existing,
      s.merges.get call = some (.network networkId existing incoming) →
        ∀ c, c ∈ existing ↔ c ∈ s.credentialIdsForNetwork networkId
  | .saveHost call hostId incoming => ∀ existing,
      s.merges.get call = some (.host hostId existing incoming) →
        ∀ a, a ∈ existing ↔ a ∈ s.assignmentsForHost hostId
  | _ => True

/-- The call is a set for `credentialId` that leaves out the network. -/
def OmitsNetwork (op : JunctionOp) (networkId credentialId : Uuid) : Prop :=
  ∃ networkIds, op = .setCredentialNetworks credentialId networkIds ∧ networkId ∉ networkIds

/-- The call is a set for `credentialId` that leaves out the host. -/
def OmitsHost (op : JunctionOp) (hostId credentialId : Uuid) : Prop :=
  ∃ assignments, op = .setCredentialHostAssignments credentialId assignments ∧
    hostId ∉ assignments.map (·.hostId)

def BringsAssignment (op : JunctionOp) (r : HostCredential) : Prop :=
  (∃ call incoming, op = .saveHost call r.hostId incoming ∧
    (⟨r.credentialId, r.ipAddressIds⟩ : CredentialAssignment) ∈ incoming) ∨
  ∃ assignments, op = .setCredentialHostAssignments r.credentialId assignments ∧
    (⟨r.hostId, r.ipAddressIds⟩ : CredentialHostAssignment) ∈ assignments

def JunctionState.HasHostCredential (s : JunctionState) (hostId credentialId : Uuid) : Prop :=
  ∃ ids, (⟨hostId, credentialId, ids⟩ : HostCredential) ∈ s.hostCredentials

theorem mem_mergedCredentials {existing incoming : List Uuid} {c : Uuid} :
    c ∈ mergedCredentials existing incoming ↔ c ∈ existing ∨ c ∈ incoming := by
  rw [mergedCredentials]
  induction incoming generalizing existing with
  | nil => simp
  | cons c' incoming ih =>
    rw [foldl_cons, ih, mem_cons]
    split_ifs with hcontains
    · have hmem : c' ∈ existing := by simpa using hcontains
      constructor
      · rintro (h | h)
        · exact inl h
        · exact inr (inr h)
      · rintro (h | rfl | h)
        · exact inl h
        · exact inl hmem
        · exact inr h
    · rw [mem_append, mem_singleton, or_assoc]

theorem mem_mergedAssignments {existing incoming : List CredentialAssignment}
    {a : CredentialAssignment} :
    a ∈ mergedAssignments existing incoming ↔
      (a ∈ existing ∧ a.credentialId ∉ incoming.map (·.credentialId)) ∨ a ∈ incoming := by
  rw [mergedAssignments, mem_append, mem_filter]
  simp only [Bool.not_eq_true', contains_eq_mem, decide_eq_false_iff_not]

namespace JunctionState
variable {s : JunctionState}

theorem mem_credentialIdsForNetwork {networkId c : Uuid} :
    c ∈ s.credentialIdsForNetwork networkId ↔
      (⟨networkId, c⟩ : NetworkCredential) ∈ s.networkCredentials := by
  rw [credentialIdsForNetwork, mem_map]
  constructor
  · rintro ⟨r, hr, rfl⟩
    obtain ⟨hmem, hnet⟩ := mem_filter.mp hr
    obtain rfl : r.networkId = networkId := by simpa using hnet
    exact hmem
  · intro hr
    exact ⟨⟨networkId, c⟩, mem_filter.mpr ⟨hr, decide_eq_true rfl⟩, rfl⟩

theorem mem_assignmentsForHost {hostId : Uuid} {a : CredentialAssignment} :
    a ∈ s.assignmentsForHost hostId ↔
      (⟨hostId, a.credentialId, a.ipAddressIds⟩ : HostCredential) ∈ s.hostCredentials := by
  rw [assignmentsForHost, mem_map]
  constructor
  · rintro ⟨r, hr, rfl⟩
    obtain ⟨hmem, hhost⟩ := mem_filter.mp hr
    obtain rfl : r.hostId = hostId := by simpa using hhost
    exact hmem
  · intro hr
    exact ⟨⟨hostId, a.credentialId, a.ipAddressIds⟩, mem_filter.mpr ⟨hr, decide_eq_true rfl⟩, rfl⟩

end JunctionState

section Steps
variable {s s' : JunctionState} {op : JunctionOp}
variable {credentialId hostId : Uuid} {call : ℕ}

theorem step_saveNetwork {networkId : Uuid} {incoming : List Uuid}
    (h : junctionStep s (.saveNetwork call networkId incoming) = some s') :
    ∃ existing, s.merges.get call = some (.network networkId existing incoming) ∧
      s'.hostCredentials = s.hostCredentials ∧
      (s'.networkCredentials = s.networkCredentials ∨
        saveForNetwork s.networkCredentials networkId (mergedCredentials existing incoming) =
          some s'.networkCredentials) := by
  simp only [junctionStep] at h
  split at h
  · rename_i networkId' existing incoming' hget
    split_ifs at h with heq
    obtain ⟨rfl, rfl⟩ := heq
    cases h
    refine ⟨existing, hget, rfl, ?_⟩
    cases hsave : saveForNetwork s.networkCredentials networkId'
        (mergedCredentials existing incoming') with
    | none => exact inl rfl
    | some t => exact inr rfl
  · cases h

theorem step_saveHost {incoming : List CredentialAssignment}
    (h : junctionStep s (.saveHost call hostId incoming) = some s') :
    ∃ existing, s.merges.get call = some (.host hostId existing incoming) ∧
      s'.networkCredentials = s.networkCredentials ∧
      (s'.hostCredentials = s.hostCredentials ∨
        saveForHost s.hostCredentials hostId (mergedAssignments existing incoming) =
          some s'.hostCredentials) := by
  simp only [junctionStep] at h
  split at h
  · rename_i hostId' existing incoming' hget
    split_ifs at h with heq
    obtain ⟨rfl, rfl⟩ := heq
    cases h
    refine ⟨existing, hget, rfl, ?_⟩
    cases hsave : saveForHost s.hostCredentials hostId'
        (mergedAssignments existing incoming') with
    | none => exact inl rfl
    | some t => exact inr rfl
  · cases h

theorem step_setCredentialNetworks {networkIds : List Uuid}
    (h : junctionStep s (.setCredentialNetworks credentialId networkIds) = some s') :
    s'.hostCredentials = s.hostCredentials ∧ (s'.networkCredentials = s.networkCredentials ∨
        saveNetworksForCredential s.networkCredentials credentialId networkIds =
          some s'.networkCredentials) := by
  cases h
  refine ⟨rfl, ?_⟩
  cases hsave : saveNetworksForCredential s.networkCredentials credentialId networkIds with
  | none => exact inl rfl
  | some t => exact inr rfl

theorem step_setCredentialHostAssignments
    {assignments : List CredentialHostAssignment}
    (h : junctionStep s (.setCredentialHostAssignments credentialId assignments) = some s') :
    s'.networkCredentials = s.networkCredentials ∧ (s'.hostCredentials = s.hostCredentials ∨
        saveHostAssignmentsForCredential s.hostCredentials credentialId assignments =
          some s'.hostCredentials) := by
  cases h
  refine ⟨rfl, ?_⟩
  cases hsave : saveHostAssignmentsForCredential s.hostCredentials credentialId assignments with
  | none => exact inl rfl
  | some t => exact inr rfl

theorem tables_of_step_read (h : junctionStep s op = some s')
    (hop : match op with
      | .readNetwork .. | .readHost .. | .fail _ => True
      | _ => False) :
    s'.networkCredentials = s.networkCredentials ∧ s'.hostCredentials = s.hostCredentials := by
  cases op with
  | readNetwork | readHost | fail =>
    simp only [junctionStep] at h
    split_ifs at h
    cases h
    exact ⟨rfl, rfl⟩
  | saveNetwork | saveHost | setCredentialNetworks | setCredentialHostAssignments => exact hop.elim

theorem omitsNetwork_of_step (h : junctionStep s op = some s') (hok : Undisturbed s op)
    {r : NetworkCredential} (hr : r ∈ s.networkCredentials) (hr' : r ∉ s'.networkCredentials) :
    OmitsNetwork op r.networkId r.credentialId := by
  cases op with
  | readNetwork | readHost | fail =>
    rw [(tables_of_step_read h trivial).1] at hr'
    exact absurd hr hr'
  | saveHost call hostId incoming =>
    obtain ⟨-, -, hnet, -⟩ := step_saveHost h
    rw [hnet] at hr'
    exact absurd hr hr'
  | setCredentialHostAssignments credentialId assignments =>
    rw [(step_setCredentialHostAssignments h).1] at hr'
    exact absurd hr hr'
  | saveNetwork call networkId incoming =>
    obtain ⟨existing, hget, -, heq | hsave⟩ := step_saveNetwork h
    · rw [heq] at hr'
      exact absurd hr hr'
    · refine absurd ((Table.mem_replaceWhere hsave).mpr ?_) hr'
      by_cases hnet : r.networkId = networkId
      · subst hnet
        have hmem := (hok existing hget r.credentialId).mpr
          (JunctionState.mem_credentialIdsForNetwork.mpr hr)
        exact inr (mem_map.mpr
          ⟨r.credentialId, mem_mergedCredentials.mpr (inl hmem), rfl⟩)
      · exact inl ⟨hr, decide_eq_false hnet⟩
  | setCredentialNetworks credentialId networkIds =>
    obtain ⟨-, heq | hsave⟩ := step_setCredentialNetworks h
    · rw [heq] at hr'
      exact absurd hr hr'
    · have hgone := fun hmem => hr' ((Table.mem_replaceWhere hsave).mpr hmem)
      by_cases hcred : r.credentialId = credentialId
      · subst hcred
        refine ⟨networkIds, rfl, fun hmem => hgone (inr ?_)⟩
        exact mem_map.mpr ⟨r.networkId, hmem, rfl⟩
      · exact absurd (inl ⟨hr, decide_eq_false hcred⟩) hgone

theorem omitsHost_of_step (h : junctionStep s op = some s') (hok : Undisturbed s op)
    (hr : s.HasHostCredential hostId credentialId)
    (hr' : ¬s'.HasHostCredential hostId credentialId) : OmitsHost op hostId credentialId := by
  have hsame : s'.hostCredentials = s.hostCredentials → OmitsHost op hostId credentialId := by
    intro heq
    rw [JunctionState.HasHostCredential, heq] at hr'
    exact absurd hr hr'
  obtain ⟨ids, hids⟩ := hr
  cases op with
  | readNetwork | readHost | fail => exact hsame (tables_of_step_read h trivial).2
  | saveNetwork call networkId incoming =>
    obtain ⟨-, -, heq, -⟩ := step_saveNetwork h
    exact hsame heq
  | setCredentialNetworks credentialId networkIds => exact hsame (step_setCredentialNetworks h).1
  | saveHost call host incoming =>
    obtain ⟨existing, hget, -, heq | hsave⟩ := step_saveHost h
    · exact hsame heq
    · exfalso
      by_cases hhost : hostId = host
      · subst hhost
        by_cases hnamed : credentialId ∈ incoming.map (·.credentialId)
        · obtain ⟨a, ha, rfl⟩ := mem_map.mp hnamed
          exact hr' ⟨a.ipAddressIds, (Table.mem_replaceWhere hsave).mpr (inr
            (mem_map.mpr ⟨a, mem_mergedAssignments.mpr (inr ha), rfl⟩))⟩
        · have hmem := (hok existing hget ⟨credentialId, ids⟩).mpr
            (JunctionState.mem_assignmentsForHost.mpr hids)
          exact hr' ⟨ids, (Table.mem_replaceWhere hsave).mpr (inr (mem_map.mpr
            ⟨_, mem_mergedAssignments.mpr (inl ⟨hmem, hnamed⟩), rfl⟩))⟩
      · exact hr' ⟨ids, (Table.mem_replaceWhere hsave).mpr (inl ⟨hids, decide_eq_false hhost⟩)⟩
  | setCredentialHostAssignments credential assignments =>
    obtain ⟨-, heq | hsave⟩ := step_setCredentialHostAssignments h
    · exact hsame heq
    · by_cases hcred : credentialId = credential
      · subst hcred
        refine ⟨assignments, rfl, fun hmem => hr' ?_⟩
        obtain ⟨a, ha, rfl⟩ := mem_map.mp hmem
        exact ⟨a.ipAddressIds, (Table.mem_replaceWhere hsave).mpr
          (inr (mem_map.mpr ⟨a, ha, rfl⟩))⟩
      · exact absurd ⟨ids, (Table.mem_replaceWhere hsave).mpr
          (inl ⟨hids, decide_eq_false hcred⟩)⟩ hr'

theorem brings_of_step (h : junctionStep s op = some s') (hok : Undisturbed s op)
    {r : HostCredential} (hr : r ∈ s'.hostCredentials) :
    r ∈ s.hostCredentials ∨ BringsAssignment op r := by
  have hsame : s'.hostCredentials = s.hostCredentials →
      r ∈ s.hostCredentials ∨ BringsAssignment op r := fun heq => inl (heq ▸ hr)
  cases op with
  | readNetwork | readHost | fail => exact hsame (tables_of_step_read h trivial).2
  | saveNetwork call networkId incoming =>
    obtain ⟨-, -, heq, -⟩ := step_saveNetwork h
    exact hsame heq
  | setCredentialNetworks credentialId networkIds => exact hsame (step_setCredentialNetworks h).1
  | saveHost call host incoming =>
    obtain ⟨existing, hget, -, heq | hsave⟩ := step_saveHost h
    · exact hsame heq
    · rcases (Table.mem_replaceWhere hsave).mp hr with ⟨hold, -⟩ | hnew
      · exact inl hold
      · obtain ⟨a, ha, rfl⟩ := mem_map.mp hnew
        rcases mem_mergedAssignments.mp ha with ⟨ha, -⟩ | ha
        · exact inl (JunctionState.mem_assignmentsForHost.mp ((hok existing hget a).mp ha))
        · exact inr (inl ⟨call, incoming, rfl, ha⟩)
  | setCredentialHostAssignments credential assignments =>
    obtain ⟨-, heq | hsave⟩ := step_setCredentialHostAssignments h
    · exact hsame heq
    · rcases (Table.mem_replaceWhere hsave).mp hr with ⟨hold, -⟩ | hnew
      · exact inl hold
      · obtain ⟨a, ha, rfl⟩ := mem_map.mp hnew
        exact inr (inr ⟨assignments, rfl, ha⟩)

end Steps

/-- Along any interleaving in which the rows that a merge read are still those of its network or
host when it saves: an assignment of some state is gone later only through a set for its own
credential that leaves it out, and a whole-host assignment is narrowed later only by a call that
itself brings the credential with the narrower scope. -/
theorem merges_additive (networkCredentials : NetworkCredentials)
    (hostCredentials : HostCredentials) (before after : List JunctionOp) (s s' : JunctionState)
    (hs : (junctions networkCredentials hostCredentials).run
      (junctions networkCredentials hostCredentials).init before = some s)
    (hs' : (junctions networkCredentials hostCredentials).run s after = some s')
    (hok : (junctions networkCredentials hostCredentials).Guarded Undisturbed
      (junctions networkCredentials hostCredentials).init (before ++ after)) :
    (∀ r ∈ s.networkCredentials, r ∉ s'.networkCredentials →
      ∃ op ∈ after, OmitsNetwork op r.networkId r.credentialId) ∧
    (∀ hostId credentialId, s.HasHostCredential hostId credentialId →
      ¬s'.HasHostCredential hostId credentialId → ∃ op ∈ after, OmitsHost op hostId credentialId) ∧
    ∀ hostId credentialId ids, (⟨hostId, credentialId, none⟩ : HostCredential) ∈ s.hostCredentials →
      (⟨hostId, credentialId, some ids⟩ : HostCredential) ∈ s'.hostCredentials →
        ∃ op ∈ after, BringsAssignment op ⟨hostId, credentialId, some ids⟩ := by
  have hok := Lts.guarded_of_append hok hs
  refine ⟨fun r hr hr' => ?_, fun hostId credentialId hr hr' => ?_,
    fun hostId credentialId ids hr hr' => ?_⟩
  · exact Lts.exists_step_of_run (P := fun s => r ∈ s.networkCredentials)
      (fun _ _ _ hok h => omitsNetwork_of_step h hok) hok hs' hr hr'
  · exact Lts.exists_step_of_run (P := fun s => s.HasHostCredential hostId credentialId)
      (fun _ _ _ hok h => omitsHost_of_step h hok) hok hs' hr hr'
  · -- the narrowed row has the key of the old one, so it was not there before
    have hnew : (⟨hostId, credentialId, some ids⟩ : HostCredential) ∉ s.hostCredentials := by
      intro hmem
      have heq := s.hostCredentials.eq_of_key hmem hr rfl
      cases heq
    refine Lts.exists_step_of_run
      (P := fun s => (⟨hostId, credentialId, some ids⟩ : HostCredential) ∉ s.hostCredentials)
      (fun _ _ _ hok h hr hr' => ?_) hok hs' hnew (not_not.mpr hr')
    exact (brings_of_step h hok (not_not.mp hr')).resolve_left hr

section Runs

private def noNetworkCredentials : NetworkCredentials := ⟨[], List.nodup_nil⟩

private def wholeHost : HostCredentials := ⟨[⟨2, 20, none⟩], by decide⟩

private def twoMerges : List JunctionOp :=
  [.readNetwork 0 1 [20], .readNetwork 1 1 [21], .saveNetwork 0 1 [20], .saveNetwork 1 1 [21]]

private def narrowing : List JunctionOp :=
  [.readHost 0 2 [⟨20, some [3]⟩], .saveHost 0 2 [⟨20, some [3]⟩]]

theorem merges_additive_narrowing :
    ∃ s s', (junctions noNetworkCredentials wholeHost).run
        (junctions noNetworkCredentials wholeHost).init [] = some s ∧
      (junctions noNetworkCredentials wholeHost).run s narrowing = some s' ∧
      ((⟨2, 20, some [3]⟩ : HostCredential) ∈ s'.hostCredentials ∧
        ∃ op ∈ narrowing, BringsAssignment op ⟨2, 20, some [3]⟩) := by
  obtain ⟨s', hs'⟩ : ∃ s', (junctions noNetworkCredentials wholeHost).run
      (junctions noNetworkCredentials wholeHost).init narrowing = some s' :=
    ⟨_, rfl⟩
  refine ⟨_, s', rfl, hs', ?_⟩
  have hmem : (⟨2, 20, some [3]⟩ : HostCredential) ∈ s'.hostCredentials := by
    cases hs'
    decide
  refine ⟨hmem, (merges_additive noNetworkCredentials wholeHost [] narrowing _ s' rfl hs'
    ?_).2.2 2 20 [3] (by decide) hmem⟩
  refine ⟨trivial, fun s₁ h₁ => ⟨?_, fun _ _ => trivial⟩⟩
  cases h₁
  intro existing hget a
  cases hget
  rfl

/-- Two merges lose an assignment that no set call left out, and a merge narrows an assignment. -/
theorem merge_loses_and_narrows :
    (¬∀ (networkCredentials : NetworkCredentials) (hostCredentials : HostCredentials)
      (before after : List JunctionOp) (s s' : JunctionState),
      (junctions networkCredentials hostCredentials).run
        (junctions networkCredentials hostCredentials).init before = some s →
      (junctions networkCredentials hostCredentials).run s after = some s' →
      ∀ r ∈ s.networkCredentials, r ∉ s'.networkCredentials →
        ∃ op ∈ after, OmitsNetwork op r.networkId r.credentialId) ∧
    ¬∀ (networkCredentials : NetworkCredentials) (hostCredentials : HostCredentials)
      (before : List JunctionOp) (call : ℕ) (hostId : Uuid)
      (incoming : List CredentialAssignment) (s s' : JunctionState),
      (junctions networkCredentials hostCredentials).run
        (junctions networkCredentials hostCredentials).init before = some s →
      (junctions networkCredentials hostCredentials).step s (.saveHost call hostId incoming) =
        some s' →
      ∀ credentialId ids, (⟨hostId, credentialId, none⟩ : HostCredential) ∈ s.hostCredentials →
        (⟨hostId, credentialId, some ids⟩ : HostCredential) ∉ s'.hostCredentials := by
  constructor
  · intro h
    obtain ⟨op, hop, networkIds, rfl, -⟩ := h noNetworkCredentials wholeHost
      (twoMerges.take 3) (twoMerges.drop 3) _ _ rfl rfl ⟨1, 20⟩ (by decide) (by decide)
    rw [twoMerges] at hop
    simp at hop
  · intro h
    exact h noNetworkCredentials wholeHost (narrowing.take 1) 0 2 [⟨20, some [3]⟩] _ _ rfl rfl
      20 [3] (by decide) (by decide)

end Runs
end Scanopy
