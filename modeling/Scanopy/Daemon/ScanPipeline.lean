import Scanopy.Lib.Lts
import Scanopy.Shared.Entities

/-! The pipeline of a network scan. Hosts are deep scanned as they arrive, up to a limit; the others
wait, and a scan that completes starts one of them. -/

namespace Scanopy

open List Option

def lateArrivalGracePeriod : Timestamp := 30 * 1000000000

/-- `get_optimal_deep_scan_concurrency` on Linux, from the limit of file descriptors. -/
def getOptimalDeepScanConcurrency (fdLimit portBatchSize arpSubnetCount : ℕ) : ℕ :=
  let baseReserved := 203
  let arpFds := arpSubnetCount * 2
  let available := fdLimit - (baseReserved + arpFds)
  let endpointBatch := min (portBatchSize / 2) 50
  let udpProbes := 10
  max 1 (available / (portBatchSize + endpointBatch + udpProbes))

theorem getOptimalDeepScanConcurrency_pos (fdLimit portBatchSize arpSubnetCount : ℕ) :
    0 < getOptimalDeepScanConcurrency fdLimit portBatchSize arpSubnetCount :=
  lt_max_of_lt_left Nat.one_pos

/-- What the channel of the discovery carries. The address of a host that answered ARP has a MAC. -/
structure DiscoveredAddress where
  ip : IpAddr
  subnet : Subnet
  mac : Option MacAddress
  deriving DecidableEq

/-- A running `deep_scan_host`. It waits for the early report of its host, if there was one. -/
structure DeepScan where
  host : DiscoveredAddress
  early : Bool
  deriving DecidableEq

inductive ScanEnd
  | completed | cancelled | timedOut
  deriving DecidableEq

/-- The variables of the loop of `scan_and_process_hosts`. -/
structure ScanPipeline (R : Type) where
  deepScanConcurrency : ℕ
  lastActivity : Timestamp
  pendingScans : List DeepScan := []
  pendingHosts : List DiscoveredAddress := []
  earlyReportedHosts : List IpAddr := []
  channelClosed : Bool := false
  results : List R := []
  ended : Option ScanEnd := none

inductive ScanEvent (R : Type)
  | receive (host : DiscoveredAddress)
  | close (newConcurrency : Option ℕ)
  | complete (scan : ℕ) (result : Option R)
  | tick

/-- A turn of the loop. The event is at `now`, the checks that end the turn are at `checkedAt`. -/
structure ScanTurn (R : Type) where
  event : ScanEvent R
  now : Timestamp
  checkedAt : Timestamp
  cancelled : Bool := false

structure ScanLimits where
  pipelineStart : Timestamp
  maxDiscoveryDuration : Timestamp

namespace ScanPipeline
variable {R : Type} (limits : ScanLimits) (s : ScanPipeline R)

def spawn (host : DiscoveredAddress) : ScanPipeline R :=
  { s with
    pendingScans := s.pendingScans ++ [⟨host, decide (host.ip ∈ s.earlyReportedHosts)⟩]
    earlyReportedHosts := s.earlyReportedHosts.erase host.ip }

/-- Notes an arrival. A host that has answered ARP is reported early, once. -/
def arrive (host : DiscoveredAddress) (now : Timestamp) : ScanPipeline R :=
  { s with
    lastActivity := now
    earlyReportedHosts := if host.mac.isSome && decide (host.ip ∉ s.earlyReportedHosts) then
      host.ip :: s.earlyReportedHosts else s.earlyReportedHosts }

def place (host : DiscoveredAddress) : ScanPipeline R :=
  if s.pendingScans.length < s.deepScanConcurrency then s.spawn host
  else { s with pendingHosts := s.pendingHosts ++ [host] }

def receive (host : DiscoveredAddress) (now : Timestamp) : ScanPipeline R :=
  (s.arrive host now).place host

def close (newConcurrency : Option ℕ) : ScanPipeline R :=
  { s with
    channelClosed := true
    deepScanConcurrency := match newConcurrency with
      | some new => if new > s.deepScanConcurrency then new else s.deepScanConcurrency
      | none => s.deepScanConcurrency }

/-- Takes the deep scan `scan` out, with what it has found. -/
def collect (scan : ℕ) (result : Option R) (now : Timestamp) : ScanPipeline R :=
  { s with
    pendingScans := s.pendingScans.eraseIdx scan
    lastActivity := now
    results := s.results ++ result.toList }

def startNext : ScanPipeline R :=
  match s.pendingHosts.getLast? with
  | some host => { s with pendingHosts := s.pendingHosts.dropLast }.spawn host
  | none => s

def complete (scan : ℕ) (result : Option R) (now : Timestamp) : ScanPipeline R :=
  (s.collect scan result now).startNext

/-- Nothing more can come. -/
def drained (now : Timestamp) : Bool :=
  s.channelClosed && s.pendingScans.isEmpty && s.pendingHosts.isEmpty &&
    decide (lateArrivalGracePeriod ≤ now - s.lastActivity)

theorem empty_of_drained {s : ScanPipeline R} {now : Timestamp} (h : s.drained now = true) :
    s.pendingScans = [] ∧ s.pendingHosts = [] := by
  simp only [drained, Bool.and_eq_true, List.isEmpty_iff] at h
  exact ⟨h.1.1.2, h.1.2⟩

def endTurn (turn : ScanTurn R) : ScanPipeline R :=
  if turn.cancelled then { s with ended := some .cancelled }
  else if limits.maxDiscoveryDuration ≤ turn.checkedAt - limits.pipelineStart then
    { s with ended := some .timedOut }
  else if s.drained turn.checkedAt then { s with ended := some .completed }
  else s

def step (turn : ScanTurn R) : Option (ScanPipeline R) :=
  if s.ended.isSome then none
  else match turn.event with
    | .receive host =>
      if s.channelClosed then none else some ((s.receive host turn.now).endTurn limits turn)
    | .close newConcurrency =>
      if s.channelClosed then none else some ((s.close newConcurrency).endTurn limits turn)
    | .complete scan result =>
      if scan < s.pendingScans.length then
        some ((s.complete scan result turn.now).endTurn limits turn)
      else none
    | .tick =>
      if s.drained turn.now then some { s with ended := some .completed }
      else some (s.endTurn limits turn)

end ScanPipeline

structure ScanHistory where
  received : List DiscoveredAddress := []
  deepScanned : List DiscoveredAddress := []

def ScanHistory.record {R : Type} (s : ScanPipeline R) (turn : ScanTurn R) (_ : ScanPipeline R)
    (h : ScanHistory) : ScanHistory :=
  match turn.event with
  | .receive host => { h with received := h.received ++ [host] }
  | .complete scan _ =>
    { h with deepScanned := h.deepScanned ++ (s.pendingScans[scan]?.map (·.host)).toList }
  | .close _ | .tick => h

def scanLts {R : Type} (limits : ScanLimits) (deepScanConcurrency : ℕ) :
    Lts (ScanPipeline R × ScanHistory) (ScanTurn R) :=
  Lts.withHistory ⟨⟨deepScanConcurrency, limits.pipelineStart, [], [], [], false, [], none⟩,
    ScanPipeline.step limits⟩ {} ScanHistory.record

structure ScanSound {R : Type} (s : ScanPipeline R) (h : ScanHistory) : Prop where
  concurrency_pos : 0 < s.deepScanConcurrency
  concurrency_le : s.pendingScans.length ≤ s.deepScanConcurrency
  busy : s.pendingHosts ≠ [] → s.pendingScans ≠ []
  accounted : h.received.Perm (h.deepScanned ++ s.pendingScans.map (·.host) ++ s.pendingHosts)
  drained : s.ended = some .completed → s.pendingScans = [] ∧ s.pendingHosts = []

namespace ScanSound
variable {R : Type} {limits : ScanLimits} {s s' : ScanPipeline R} {h : ScanHistory}

theorem place (hs : ScanSound s h) (hrunning : s.ended = none) (host : DiscoveredAddress) :
    ScanSound (s.place host) { h with received := h.received ++ [host] } := by
  have haccounted : ∀ a, (h.received ++ [host]).count a = h.deepScanned.count a +
      (s.pendingScans.map (·.host)).count a + s.pendingHosts.count a + [host].count a := by
    intro a
    rw [count_append, hs.accounted.count_eq a, count_append, count_append]
  have hended : s.ended ≠ some .completed := by
    rw [hrunning]
    exact nofun
  unfold ScanPipeline.place
  split_ifs with hbelow
  · refine ⟨hs.concurrency_pos, ?_, fun _ => ?_, perm_iff_count.mpr fun a => ?_,
      fun hcompleted => absurd hcompleted hended⟩
    · rw [ScanPipeline.spawn, length_append]
      exact hbelow
    · exact append_ne_nil_of_right_ne_nil _ (cons_ne_nil _ _)
    · rw [haccounted]
      simp only [ScanPipeline.spawn, map_append, map_cons, map_nil, count_append]
      omega
  · refine ⟨hs.concurrency_pos, hs.concurrency_le, fun _ => ?_, perm_iff_count.mpr fun a => ?_,
      fun hcompleted => absurd hcompleted hended⟩
    · rw [← length_pos_iff]
      exact hs.concurrency_pos.trans_le (not_lt.mp hbelow)
    · rw [haccounted]
      simp only [count_append]
      omega

theorem close (hs : ScanSound s h) (newConcurrency : Option ℕ) :
    ScanSound (s.close newConcurrency) h := by
  have hle : s.deepScanConcurrency ≤ (s.close newConcurrency).deepScanConcurrency := by
    cases newConcurrency with
    | none => exact le_rfl
    | some new =>
      rw [ScanPipeline.close]
      split_ifs with hnew
      · exact hnew.le
      · exact le_rfl
  exact ⟨hs.concurrency_pos.trans_le hle, hs.concurrency_le.trans hle, hs.busy, hs.accounted,
    hs.drained⟩

theorem complete (hs : ScanSound s h) (hrunning : s.ended = none) {scan : ℕ}
    (hscan : scan < s.pendingScans.length) (result : Option R) (now : Timestamp) :
    ScanSound (s.complete scan result now)
      { h with deepScanned := h.deepScanned ++ [s.pendingScans[scan].host] } := by
  have htaken : ∀ a, (s.pendingScans.map (·.host)).count a = [s.pendingScans[scan].host].count a +
        ((s.pendingScans.eraseIdx scan).map (·.host)).count a := by
    intro a
    have hperm := (getElem_cons_eraseIdx_perm hscan).map DeepScan.host
    rw [← hperm.count_eq a, map_cons, ← count_append]
    rfl
  have haccounted : ∀ a, h.received.count a = h.deepScanned.count a +
      [s.pendingScans[scan].host].count a +
        ((s.pendingScans.eraseIdx scan).map (·.host)).count a + s.pendingHosts.count a := by
    intro a
    have htaken := htaken a
    rw [hs.accounted.count_eq a, count_append, count_append]
    omega
  have hshorter : (s.pendingScans.eraseIdx scan).length < s.pendingScans.length := by
    rw [length_eraseIdx_of_lt hscan]
    omega
  have hended : s.ended ≠ some .completed := by
    rw [hrunning]
    exact nofun
  unfold ScanPipeline.complete ScanPipeline.startNext
  cases hlast : s.pendingHosts.getLast? with
  | none =>
    have hnil : s.pendingHosts = [] := getLast?_eq_none_iff.mp hlast
    rw [show (s.collect scan result now).pendingHosts.getLast? = none from hlast]
    refine ⟨hs.concurrency_pos, hshorter.le.trans hs.concurrency_le,
      fun hhosts => absurd hnil hhosts, perm_iff_count.mpr fun a => ?_,
      fun hcompleted => absurd hcompleted hended⟩
    rw [haccounted]
    simp only [ScanPipeline.collect, count_append]
  | some host =>
    have hhosts : s.pendingHosts = s.pendingHosts.dropLast ++ [host] :=
      (dropLast_append_getLast? host hlast).symm
    rw [show (s.collect scan result now).pendingHosts.getLast? = some host from hlast]
    refine ⟨hs.concurrency_pos, ?_, fun _ => ?_, perm_iff_count.mpr fun a => ?_,
      fun hcompleted => absurd hcompleted hended⟩
    · show ((s.pendingScans.eraseIdx scan) ++ [_]).length ≤ s.deepScanConcurrency
      rw [length_append]
      exact hshorter.trans_le hs.concurrency_le
    · exact append_ne_nil_of_right_ne_nil _ (cons_ne_nil _ _)
    · rw [haccounted, hhosts]
      simp only [ScanPipeline.spawn, ScanPipeline.collect, map_append, map_cons,
        map_nil, count_append]
      omega

theorem endTurn (hs : ScanSound s h) (turn : ScanTurn R) : ScanSound (s.endTurn limits turn) h := by
  unfold ScanPipeline.endTurn
  split_ifs with hcancelled htimedOut hdrained
  · exact ⟨hs.concurrency_pos, hs.concurrency_le, hs.busy, hs.accounted, nofun⟩
  · exact ⟨hs.concurrency_pos, hs.concurrency_le, hs.busy, hs.accounted, nofun⟩
  · exact ⟨hs.concurrency_pos, hs.concurrency_le, hs.busy, hs.accounted, 
      fun _ => ScanPipeline.empty_of_drained hdrained⟩
  · exact hs

theorem arrive (hs : ScanSound s h) (host : DiscoveredAddress) (now : Timestamp) :
    ScanSound (s.arrive host now) h :=
  ⟨hs.concurrency_pos, hs.concurrency_le, hs.busy, hs.accounted, hs.drained⟩

theorem step (hs : ScanSound s h) {turn : ScanTurn R} (hstep : s.step limits turn = some s') :
    ScanSound s' (ScanHistory.record s turn s' h) := by
  obtain ⟨hended, hstep⟩ := ite_none_left_eq_some.mp hstep
  have hrunning : s.ended = none := not_isSome_iff_eq_none.mp hended
  obtain ⟨event, now, checkedAt, cancelled⟩ := turn
  cases event with
  | receive host =>
    obtain ⟨-, hstep⟩ := ite_none_left_eq_some.mp hstep
    cases hstep
    exact ((hs.arrive host now).place hrunning host).endTurn _
  | close newConcurrency =>
    obtain ⟨-, hstep⟩ := ite_none_left_eq_some.mp hstep
    cases hstep
    exact (hs.close newConcurrency).endTurn _
  | complete scan result =>
    obtain ⟨hscan, hstep⟩ := ite_none_right_eq_some.mp hstep
    cases hstep
    rw [ScanHistory.record]
    dsimp only
    rw [getElem?_eq_getElem hscan]
    exact (hs.complete hrunning hscan result now).endTurn _
  | tick =>
    dsimp only at hstep
    split_ifs at hstep with hdrained
    · cases hstep
      exact ⟨hs.concurrency_pos, hs.concurrency_le, hs.busy, hs.accounted,
        fun _ => ScanPipeline.empty_of_drained hdrained⟩
    · cases hstep
      exact hs.endTurn _

end ScanSound

/-- In every state of the pipeline a host waits only while a scan runs, and the scans keep to the
limit. When the pipeline has come to its end, each host from the channel was deep scanned once. -/
theorem noHostUnscanned {R : Type} (limits : ScanLimits) (deepScanConcurrency : ℕ)
    (hpos : 0 < deepScanConcurrency) (t : ScanPipeline R × ScanHistory)
    (ht : (scanLts limits deepScanConcurrency).Reachable t) :
    (t.1.pendingHosts ≠ [] → t.1.pendingScans ≠ []) ∧
      t.1.pendingScans.length ≤ t.1.deepScanConcurrency ∧
      (t.1.ended = some .completed → t.2.deepScanned.Perm t.2.received) := by
  have hsound : ScanSound t.1 t.2 := by
    refine ht.invariant (P := fun t => ScanSound t.1 t.2)
      ⟨hpos, Nat.zero_le _, fun h => absurd rfl h, .refl _, fun _ => ⟨rfl, rfl⟩⟩ ?_
    intro t turn t' _ hsound _ h
    obtain ⟨hstep, hhistory⟩ := Lts.step_withHistory h
    rw [hhistory]
    exact hsound.step hstep
  refine ⟨hsound.busy, hsound.concurrency_le, fun hended => ?_⟩
  obtain ⟨hscans, hhosts⟩ := hsound.drained hended
  have haccounted := hsound.accounted
  rw [hscans, hhosts, map_nil, append_nil, append_nil] at haccounted
  exact haccounted.symm

section Example

private def scannedSubnet : Subnet :=
  ⟨1, 0, 0, none, none, ⟨.v4 ⟨0, 24, by decide, by decide⟩, 1, "lan", none, .lan, none, .discovery, 0⟩⟩

private def answered (ip : BitVec 32) : DiscoveredAddress := ⟨.v4 ip, scannedSubnet, some 1⟩

private def turnAt (seconds : ℤ) (event : ScanEvent Unit) : ScanTurn Unit :=
  ⟨event, seconds * 1000000000, seconds * 1000000000, false⟩

private def threeHosts : List (ScanTurn Unit) :=
  [turnAt 1 (.receive (answered 1)), turnAt 2 (.receive (answered 2)), turnAt 3 .tick,
    turnAt 4 (.receive (answered 3)),
    turnAt 5 (.close (some (getOptimalDeepScanConcurrency 2048 500 0))),
    turnAt 6 (.complete 0 (some ())), turnAt 7 (.complete 0 none), turnAt 8 (.complete 0 (some ())),
    turnAt 20 .tick, turnAt 40 .tick]

private def sixHours : ScanLimits := ⟨0, hours 6⟩

theorem noHostUnscanned_threeHosts : ∃ t, (scanLts sixHours
    (getOptimalDeepScanConcurrency 1024 500 20)).run (scanLts sixHours
      (getOptimalDeepScanConcurrency 1024 500 20)).init threeHosts = some t ∧
    t.1.ended = some .completed ∧ t.2.received.length = 3 ∧ t.2.deepScanned.Perm t.2.received := by
  obtain ⟨t, ht, hended, hlength⟩ : ∃ t, (scanLts sixHours
      (getOptimalDeepScanConcurrency 1024 500 20)).run (scanLts sixHours
        (getOptimalDeepScanConcurrency 1024 500 20)).init threeHosts = some t ∧
      t.1.ended = some .completed ∧ t.2.received.length = 3 :=
    ⟨_, rfl, by decide +kernel, by decide +kernel⟩
  exact ⟨t, ht, hended, hlength, (noHostUnscanned sixHours _
    (getOptimalDeepScanConcurrency_pos 1024 500 20) t (Lts.reachable_of_run ht)).2.2 hended⟩

end Example
end Scanopy
