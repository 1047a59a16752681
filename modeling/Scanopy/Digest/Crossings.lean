import Mathlib.Data.Int.ConditionallyCompleteOrder
import Mathlib.Order.ConditionallyCompleteLattice.Basic
import Scanopy.Digest.Service

/-! Hosts that go stale. A digest reports that a host has passed the cutoff since the session before
it, which may be one that could not have reported the host. -/

namespace Scanopy

open List Option DigestSystem

namespace DigestSystem
variable (defs : ServiceDefinitions) (hostId : Uuid) (seen : Timestamp)

/-- The recorded sessions that count as previous ones. -/
def sweeps (s : DigestSystem) : List HistoricalDiscovery :=
  s.history.filter fun d => d.networkId = s.network.id && d.discoveryType.rescanTargetHostId.isNone

/-- The host is live, found by scans, and was last seen at `seen`. -/
def LastSeen (s : DigestSystem) : Prop :=
  ∃ h ∈ s.inventory.hosts.rows, h.id = hostId ∧ h.isLive = true ∧ h.base.networkId = s.network.id ∧
    h.base.source.isFromDiscovery = true ∧ h.base.lastSeenAt = seen

instance (s : DigestSystem) : Decidable (s.LastSeen hostId seen) :=
  inferInstanceAs (Decidable (∃ h ∈ s.inventory.hosts.rows, _))

def coversAfterCrossing : DigestSystem × DigestStep → Bool
  | (s, .finish session scanned _ _) =>
    session.phase = .complete && session.discoveryType.rescanTargetHostId.isNone &&
    session.startedAt.isSome && session.finishedAt.any (seen < s.network.staleCutoff ·) &&
    (ScanCoverage.forSession session.discoveryType scanned).coversHost hostId
      (s.inventory.hostSubnets s.network.id hostId)
  | (_, .write _) => false

def listsStale : DigestSystem × DigestStep → Bool
  | (s, .finish session scanned now rescanName) =>
    (s.digestOf defs session scanned now rescanName).any fun d =>
      d.hostsStale.any (·.host.id = hostId)
  | (_, .write _) => false

end DigestSystem

namespace DigestStep
variable (hostId : Uuid) (s : DigestSystem)

def Misses : DigestStep → Prop
  | finish _ scanned _ _ => hostId ∉ scanned.hostIds
  | write _ => True

def InOrder : DigestStep → Prop
  | finish session _ now _ => ∀ t ∈ session.finishedAt, t ≤ now ∧ ∀ d ∈ s.sweeps, d.updatedAt < t
  | write _ => True

instance : (l : DigestStep) → Decidable (l.Misses hostId)
  | finish _ scanned _ _ => inferInstanceAs (Decidable (hostId ∉ scanned.hostIds))
  | write _ => isTrue trivial

instance : (l : DigestStep) → Decidable (l.InOrder s)
  | finish session _ now _ => inferInstanceAs
      (Decidable (∀ t ∈ session.finishedAt, t ≤ now ∧ ∀ d ∈ s.sweeps, d.updatedAt < t))
  | write _ => isTrue trivial

end DigestStep

section Runs
variable (defs : ServiceDefinitions) (hostId : Uuid) (seen : Timestamp)

def ListedOnce (s : DigestSystem) (ls : List DigestStep) : Prop :=
  let steps := (DigestSystem.lts defs s).steps s ls
  steps.filter (DigestSystem.listsStale defs hostId) =
    (steps.filter (DigestSystem.coversAfterCrossing hostId seen)).take 1

/-- Sessions are on record, and all of them were recorded when the host had not passed the
cutoff. -/
def CrossedSincePrevious (s : DigestSystem) : Prop :=
  s.sweeps ≠ [] ∧ ∀ d ∈ s.sweeps, s.network.staleCutoff d.updatedAt ≤ seen

def FirstCoverPrompt (s : DigestSystem) (ls : List DigestStep) : Prop :=
  ∀ p ∈ ((DigestSystem.lts defs s).steps s ls).find?
    (DigestSystem.coversAfterCrossing hostId seen), CrossedSincePrevious seen p.1

def Unseen (s : DigestSystem) (l : DigestStep) : Prop :=
  s.LastSeen hostId seen ∧ l.Misses hostId ∧ l.InOrder s

instance (s : DigestSystem) (l : DigestStep) : Decidable (Unseen hostId seen s l) :=
  inferInstanceAs (Decidable (_ ∧ _ ∧ _))

end Runs

section Status
variable {defs : ServiceDefinitions} {hostId : Uuid} {seen : Timestamp} {s : DigestSystem}
variable {session : DiscoveryUpdatePayload} {scannedIds : List Uuid} {rescanName : Option String}
  {scanned : ScannedEntityIds} {now tEnd tStart : Timestamp} {host : TrackedHost}

theorem max?_any_le_iff {f : Timestamp → Timestamp} (hf : Monotone f) (ts : List Timestamp) :
    (ts.max?.map f).any (· ≤ seen) = true ↔ ts ≠ [] ∧ ∀ t ∈ ts, f t ≤ seen := by
  cases hmax : ts.max? with
  | none =>
    rw [max?_eq_none_iff.mp hmax]
    simp
  | some m =>
    obtain ⟨hm, hle⟩ := max?_eq_some_iff.mp hmax
    simp only [map_some, any_some, decide_eq_true_eq]
    constructor
    · intro h
      exact ⟨ne_nil_of_mem hm, fun t ht => (hf (hle t ht)).trans h⟩
    · intro h
      exact h.2 m hm

theorem NetworkWindow.staleCutoff_mono (n : NetworkWindow) : Monotone n.staleCutoff :=
  fun _ _ h => Int.sub_le_sub_right h _

theorem previousHistoricalFinishedAt_record {t : Timestamp} (hnow : t ≤ now)
    (hbefore : ∀ d ∈ s.sweeps, d.updatedAt < t) :
    previousHistoricalFinishedAt (s.record session now rescanName).history s.network.id t =
      (s.sweeps.map (·.updatedAt)).max? := by
  unfold previousHistoricalFinishedAt record
  have hown : ¬now < t := not_lt.mpr hnow
  have hold : s.history.filter (fun d => d.networkId = s.network.id &&
      d.discoveryType.rescanTargetHostId.isNone && d.updatedAt < t) = s.sweeps := by
    rw [← filter_eq_self.mpr fun d hd => decide_eq_true (hbefore d hd),
      sweeps, List.filter_filter]
    congr 1
    funext d
    exact Bool.and_comm _ _
  rw [filter_append, hold]
  simp [historicalDiscovery, hown]

theorem computeDigestStatus_eq_stale_iff {B : Type} [Sighted B] {entity : Row B}
    {window : DigestWindow} (hmissed : entity.id ∉ scannedIds) :
    computeDigestStatus entity scannedIds window = (.stale, true) ↔
      freshness entity.base window.cutoff = .stale ∧
        window.prevCutoff.any (· ≤ Sighted.lastSeenAt entity.base) = true := by
  unfold computeDigestStatus
  have hcontains : scannedIds.contains entity.id = false := by simpa using hmissed
  rw [hcontains]
  cases hfresh : freshness entity.base window.cutoff with
  | stale => simp
  | new => simp
  | current => simp

theorem hostsStale_any_iff {payload : DiscoveryUpdatePayload} :
    (s.compute defs payload scanned tStart tEnd).hostsStale.any (·.host.id = hostId) = true ↔
      ∃ h ∈ s.inventory.liveHosts s.network.id, h.id = hostId ∧
        (ScanCoverage.forSession payload.discoveryType scanned).coversHost h.id
          (s.inventory.hostSubnets s.network.id h.id) = true ∧
        computeDigestStatus h scanned.hostIds (s.digestWindow tStart tEnd) = (.stale, true) := by
  unfold compute hostBuckets
  simp only [List.any_map, List.any_filter, List.any_eq_true, Function.comp_apply, hostSummary,
    Bool.and_eq_true, decide_eq_true_eq, Prod.ext_iff]
  constructor
  · rintro ⟨h, hh, hcovers, ⟨hstale, hfresh⟩, hid⟩
    exact ⟨h, hh, hid, hcovers, hstale, hfresh⟩
  · rintro ⟨h, hh, hid, hcovers, hstale, hfresh⟩
    exact ⟨h, hh, hcovers, ⟨hstale, hfresh⟩, hid⟩

theorem DigestSystem.LastSeen.eq_of_mem (h : s.LastSeen hostId seen)
    (hhost : host ∈ s.inventory.liveHosts s.network.id) (hid : host.id = hostId) :
    host.base.source.isFromDiscovery = true ∧ host.base.lastSeenAt = seen := by
  obtain ⟨row, hrow, hrowId, -, -, hsource, hseen⟩ := h
  obtain ⟨row', hrow', rfl⟩ := List.mem_map.mp hhost
  have hsame : row' = row := Table.eq_of_key (mem_filter.mp hrow').1 hrow
    (hid.trans hrowId.symm)
  subst hsame
  exact ⟨hsource, hseen⟩

theorem DigestSystem.LastSeen.exists_mem (h : s.LastSeen hostId seen) :
    ∃ host ∈ s.inventory.liveHosts s.network.id, host.id = hostId := by
  obtain ⟨row, hrow, hid, hlive, hnetwork, -⟩ := h
  refine ⟨row.toRow, List.mem_map.mpr ⟨row, mem_filter.mpr ⟨hrow, ?_⟩, rfl⟩, hid⟩
  rw [Bool.and_eq_true, decide_eq_true_eq]
  exact ⟨hlive, hnetwork⟩

theorem computeDigestStatus_of_lastSeen (h : s.LastSeen hostId seen) (hmissed : hostId ∉ scannedIds)
    (hnow : tEnd ≤ now)
    (hbefore : ∀ d ∈ s.sweeps, d.updatedAt < tEnd)
    (hhost : host ∈ s.inventory.liveHosts s.network.id) (hid : host.id = hostId) :
    computeDigestStatus host scannedIds
        ((s.record session now rescanName).digestWindow tStart tEnd) = (.stale, true) ↔
      seen < s.network.staleCutoff tEnd ∧ CrossedSincePrevious seen s := by
  obtain ⟨hsource, hseen⟩ := h.eq_of_mem hhost hid
  have hstale : freshness host.base (s.network.staleCutoff tEnd) = .stale ↔
      seen < s.network.staleCutoff tEnd := by
    rw [freshness_eq_stale_iff, ← hseen]
    exact and_iff_right hsource
  rw [computeDigestStatus_eq_stale_iff (hid ▸ hmissed)]
  refine and_congr hstale ?_
  show ((previousHistoricalFinishedAt (s.record session now rescanName).history s.network.id
    tEnd).map s.network.staleCutoff).any (· ≤ host.base.lastSeenAt) = true ↔ _
  rw [previousHistoricalFinishedAt_record hnow hbefore, hseen,
    max?_any_le_iff s.network.staleCutoff_mono]
  simp only [CrossedSincePrevious, ne_eq, map_eq_nil_iff, List.mem_map,
    forall_exists_index, and_imp, forall_apply_eq_imp_iff₂]

theorem listsStale_iff
    (h : Unseen hostId seen s (.finish session scanned now rescanName)) :
    DigestSystem.listsStale defs hostId (s, .finish session scanned now rescanName) = true ↔
      DigestSystem.coversAfterCrossing hostId seen (s, .finish session scanned now rescanName) =
        true ∧ CrossedSincePrevious seen s := by
  obtain ⟨hhost, hmissed, horder⟩ := h
  unfold listsStale coversAfterCrossing digestOf
    handle computeAndPublish
  simp only [historicalDiscovery]
  by_cases hphase : session.phase = .complete
  swap
  · simp [hphase]
  by_cases hrescan : session.discoveryType.rescanTargetHostId = none
  swap
  · simp [hrescan, isSome_iff_ne_none]
  cases hstart : session.startedAt with
  | none => simp [hphase, hrescan]
  | some tStart =>
  cases hfinish : session.finishedAt with
  | none => simp [hphase, hrescan]
  | some tEnd =>
  obtain ⟨hnow, hbefore⟩ := horder tEnd hfinish
  have hstatus : ∀ host ∈ s.inventory.liveHosts s.network.id, host.id = hostId →
      (computeDigestStatus host scanned.hostIds
          ((s.record session now rescanName).digestWindow tStart tEnd) = (.stale, true) ↔
        seen < s.network.staleCutoff tEnd ∧ CrossedSincePrevious seen s) :=
    fun host hmem hid => computeDigestStatus_of_lastSeen hhost hmissed hnow hbefore hmem hid
  simp only [hphase, hrescan, ne_eq, not_true_eq_false, if_false, isSome_none,
    isNone_none, isSome_some, any_some, Bool.and_true, Bool.true_and,
    decide_true, Bool.false_eq_true, Bool.and_eq_true, decide_eq_true_eq]
  rw [hostsStale_any_iff]
  constructor
  · rintro ⟨host, hmem, hid, hcovers, hnewly⟩
    obtain ⟨hpassed, hprevious⟩ := (hstatus host hmem hid).mp hnewly
    exact ⟨⟨hpassed, hid ▸ hcovers⟩, hprevious⟩
  · rintro ⟨⟨hpassed, hcovers⟩, hprevious⟩
    obtain ⟨host, hmem, hid⟩ := hhost.exists_mem
    exact ⟨host, hmem, hid, hid ▸ hcovers, (hstatus host hmem hid).mpr ⟨hpassed, hprevious⟩⟩

end Status

section Run
variable {defs : ServiceDefinitions} {hostId : Uuid} {seen : Timestamp} {init s s' : DigestSystem}
  {l : DigestStep} {ls : List DigestStep}

theorem DigestSystem.step_cases (h : s.step defs l = some s') :
    (∃ session scanned now rescanName, l = .finish session scanned now rescanName ∧
      session.networkId = s.network.id ∧ s'.network = s.network ∧
      s'.history = (s.record session now rescanName).history) ∨
    (∃ inventory, l = .write inventory ∧ s' = { s with inventory }) := by
  cases l with
  | finish session scanned now rescanName =>
    left
    unfold step at h
    dsimp only at h
    split_ifs at h with hguard
    cases h
    rw [Bool.and_eq_true, decide_eq_true_eq] at hguard
    exact ⟨session, scanned, now, rescanName, rfl, hguard.2, rfl, rfl⟩
  | write inventory =>
    cases h
    exact .inr ⟨inventory, rfl, rfl⟩

def RecordedSince (seen : Timestamp) (s : DigestSystem) : Prop :=
  ∃ d ∈ s.sweeps, seen < s.network.staleCutoff d.updatedAt

theorem RecordedSince.not_crossedSincePrevious (h : RecordedSince seen s) :
    ¬CrossedSincePrevious seen s := by
  obtain ⟨d, hd, hlt⟩ := h
  exact fun hcrossed => not_le.mpr hlt (hcrossed.2 d hd)

theorem RecordedSince.step (h : RecordedSince seen s) (hstep : s.step defs l = some s') :
    RecordedSince seen s' := by
  obtain ⟨d, hd, hlt⟩ := h
  rcases step_cases hstep with
    ⟨session, scanned, now, rescanName, rfl, -, hnetwork, hhistory⟩ | ⟨inventory, rfl, rfl⟩
  · refine ⟨d, ?_, hnetwork.symm ▸ hlt⟩
    rw [sweeps, hhistory, hnetwork, record, filter_append]
    exact mem_append_left _ hd
  · exact ⟨d, hd, hlt⟩

theorem recordedSince_of_covers (h : Unseen hostId seen s l) (hstep : s.step defs l = some s')
    (hcovers : DigestSystem.coversAfterCrossing hostId seen (s, l) = true) :
    RecordedSince seen s' := by
  rcases step_cases hstep with
    ⟨session, scanned, now, rescanName, rfl, hid, hnetwork, hhistory⟩ | ⟨inventory, rfl, -⟩
  · unfold coversAfterCrossing at hcovers
    simp only [Bool.and_eq_true, Option.any_eq_true, decide_eq_true_eq] at hcovers
    obtain ⟨⟨⟨⟨-, hrescan⟩, -⟩, tEnd, hfinish, hpassed⟩, -⟩ := hcovers
    have hnow : tEnd ≤ now := (h.2.2 tEnd hfinish).1
    refine ⟨historicalDiscovery session now rescanName (some s.network.name), ?_, ?_⟩
    · rw [sweeps, hhistory, hnetwork, record]
      refine mem_filter.mpr ⟨mem_append_right _ (mem_singleton_self _), ?_⟩
      simp [historicalDiscovery, hid, hrescan]
    · rw [hnetwork]
      exact hpassed.trans_le (s.network.staleCutoff_mono hnow)
  · exact absurd hcovers Bool.false_ne_true

theorem listsStale_eq_true_iff (h : Unseen hostId seen s l) :
    DigestSystem.listsStale defs hostId (s, l) = true ↔
      DigestSystem.coversAfterCrossing hostId seen (s, l) = true ∧ CrossedSincePrevious seen s := by
  cases l with
  | finish session scanned now rescanName => exact listsStale_iff h
  | write inventory =>
    exact iff_of_false Bool.false_ne_true fun hcovers => absurd hcovers.1 Bool.false_ne_true

theorem listsStale_filter_of_recordedSince
    (hg : (DigestSystem.lts defs init).Guarded (Unseen hostId seen) s ls)
    (h : RecordedSince seen s) :
    ((DigestSystem.lts defs init).steps s ls).filter (DigestSystem.listsStale defs hostId) = [] := by
  induction ls generalizing s with
  | nil => rfl
  | cons l ls ih =>
    cases hstep : (lts defs init).step s l with
    | none => rw [Lts.steps_of_none hstep, filter_nil]
    | some s' =>
      have hnot : listsStale defs hostId (s, l) = false := by
        rw [← Bool.not_eq_true, listsStale_eq_true_iff hg.1]
        exact fun hlists => h.not_crossedSincePrevious hlists.2
      rw [Lts.steps_of_some hstep, filter_cons_of_neg (Bool.eq_false_iff.mp hnot)]
      exact ih (hg.2 s' hstep) (h.step hstep)

/-- Until the first session that covers the host no digest lists it, and after that session none
does, since the session itself is on record then. -/
theorem listed_iff (hg : (DigestSystem.lts defs init).Guarded (Unseen hostId seen) s ls) :
    ((DigestSystem.lts defs init).steps s ls).filter (DigestSystem.listsStale defs hostId) =
        (((DigestSystem.lts defs init).steps s ls).filter
          (DigestSystem.coversAfterCrossing hostId seen)).take 1 ↔
      ∀ p ∈ ((DigestSystem.lts defs init).steps s ls).find?
        (DigestSystem.coversAfterCrossing hostId seen), CrossedSincePrevious seen p.1 := by
  induction ls generalizing s with
  | nil => exact iff_of_true rfl fun p hp => absurd hp (not_mem_none p)
  | cons l ls ih =>
    cases hstep : (lts defs init).step s l with
    | none =>
      rw [Lts.steps_of_none hstep]
      exact iff_of_true rfl fun p hp => absurd hp (not_mem_none p)
    | some s' =>
      rw [Lts.steps_of_some hstep]
      have hlists : listsStale defs hostId (s, l) = true ↔ _ :=
        listsStale_eq_true_iff hg.1
      by_cases hcovers : coversAfterCrossing hostId seen (s, l) = true
      · have hrest := listsStale_filter_of_recordedSince (hg.2 s' hstep)
          (recordedSince_of_covers hg.1 hstep hcovers)
        rw [and_iff_right hcovers] at hlists
        rw [filter_cons_of_pos hcovers, find?_cons_of_pos hcovers, filter_cons,
          hrest, take_succ_cons, take_zero]
        simp only [mem_def, some.injEq, forall_eq']
        rw [← hlists]
        cases listsStale defs hostId (s, l) with
        | true => exact iff_of_true rfl rfl
        | false => exact iff_of_false (cons_ne_nil _ _).symm Bool.false_ne_true
      · have hnot : ¬listsStale defs hostId (s, l) = true :=
          fun hlisted => hcovers (hlists.mp hlisted).1
        rw [filter_cons_of_neg hcovers, find?_cons_of_neg hcovers, filter_cons_of_neg hnot]
        exact ih (hg.2 s' hstep)

/-- A host that is not seen any more is listed in one digest, that of the first session that covers
it after the crossing, exactly if that session is the first one on record after the crossing and
not the first one of the network. -/
theorem listedOnce_iff {s : DigestSystem}
    (hg : (DigestSystem.lts defs s).Guarded (Unseen hostId seen) s ls) :
    ListedOnce defs hostId seen s ls ↔ FirstCoverPrompt defs hostId seen s ls :=
  listed_iff hg

end Run

section Example

/-- A host with an address on subnet 2, last seen at time 0. The network counts what was not seen
for a day as stale; a session was recorded at one o'clock. -/
private def darkHost : DigestSystem where
  network := ⟨1, "home", some 24⟩
  inventory :=
    { hosts := ⟨[⟨⟨10, 0, 0, none, none,
        { name := "printer", nameSource := .ip, networkId := 1, hostname := none
          description := none, source := .discovery, virtualizationMetadata := none
          virtualizationServiceId := none, hidden := false, texts := fun _ => none
          updatedAt := 0, lastSeenAt := 0, lastDiscoveryId := none
          firstDiscoveryId := none }⟩, none⟩], by decide⟩
      ipAddresses := ⟨[⟨⟨20, 0, 0, none, none, ⟨1, 10, 2, .v4 7, none, none, 0, 0⟩⟩, none⟩],
        by decide⟩
      services := ⟨[], List.nodup_nil⟩
      interfaces := ⟨[], List.nodup_nil⟩
      ports := ⟨[], List.nodup_nil⟩
      subnets := ⟨[], List.nodup_nil⟩
      vlans := ⟨[], List.nodup_nil⟩ }
  history := [⟨0, hours 1, 5, 1, "Discovery", .network none,
    .new 30 5 1 (.network none) none⟩]

private def sweepOf (sessionId subnetId : Uuid) (finishedAt : Timestamp) : DigestStep :=
  .finish { sessionId, daemonId := 5, networkId := 1, phase := .complete
            discoveryType := .network (some [subnetId]), startedAt := some (finishedAt - 1)
            finishedAt := some finishedAt }
    ⟨[], [subnetId], [], [], [], [], [], []⟩ finishedAt none

private def emptyRegistry : ServiceDefinitions :=
  ⟨fun _ => false, fun _ => false, fun _ => false⟩

/-- The session of subnet 2 is the first one on record after the crossing. -/
theorem listedOnce_darkHost :
    (DigestSystem.lts emptyRegistry darkHost).Guarded (Unseen 10 0) darkHost
        [sweepOf 31 1 (hours 20), sweepOf 32 2 (hours 30), sweepOf 33 2 (hours 40)] ∧
      ListedOnce emptyRegistry 10 0 darkHost
        [sweepOf 31 1 (hours 20), sweepOf 32 2 (hours 30), sweepOf 33 2 (hours 40)] := by
  have hg : (lts emptyRegistry darkHost).Guarded (Unseen 10 0) darkHost
      [sweepOf 31 1 (hours 20), sweepOf 32 2 (hours 30), sweepOf 33 2 (hours 40)] := by
    decide +kernel
  refine ⟨hg, (listedOnce_iff hg).mpr ?_⟩
  unfold FirstCoverPrompt CrossedSincePrevious
  decide +kernel

/-- The crossing falls into a session of another subnet: the session of subnet 2 after it covers
the host, and no digest lists it. -/
theorem not_listedOnce : ∃ ls : List DigestStep,
    (DigestSystem.lts emptyRegistry darkHost).Guarded (Unseen 10 0) darkHost ls ∧
      ¬ListedOnce emptyRegistry 10 0 darkHost ls := by
  refine ⟨[sweepOf 31 1 (hours 30), sweepOf 32 2 (hours 40)], by decide +kernel, fun h => ?_⟩
  exact absurd (congrArg List.length h) (by decide +kernel)

end Example
end Scanopy
