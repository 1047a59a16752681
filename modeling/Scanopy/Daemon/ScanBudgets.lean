import Scanopy.Daemon.ScanProgress

/-! When the progress of a scan stays within its budget. The cost of a deep scan is parted by the
configured batch size and spent by the batch size of the controller, which may have been reduced. -/

namespace Scanopy
open List Nat
namespace ScanBudget
variable {b : ScanBudget} {s s' : ScanProgress}

def Fits (b : ScanBudget) (responsivenessPorts : List (BitVec 16)) (effectiveBatchSize : ℕ) : Prop :=
  b.chunkCount responsivenessPorts effectiveBatchSize * b.costPerBatch ≤ b.scanCostCs

instance (b : ScanBudget) (ports : List (BitVec 16)) (size : ℕ) : Decidable (b.Fits ports size) :=
  inferInstanceAs (Decidable (_ ≤ _))

def StepFits (b : ScanBudget) (batchSize : ℕ) (run : DeepScanRun) : DeepScanEvent → Prop
  | .begin => run.host.mac.isSome → b.Fits [] (min b.scan.portScanBatchSize batchSize)
  -- a check that finds no port decides on no chunk
  | .check (port :: ports) => match run.phase with
    | .checking effectiveBatchSize => b.Fits (port :: ports) effectiveBatchSize
    | _ => True
  | _ => True

def Affordable (b : ScanBudget) (s : ScanProgress) : ScanProgress.Event → Prop
  | .receive host => host.mac = none → s.streamed < b.nonInterfacedIpCount
  | .scan scan event => ∀ run ∈ s.pendingScans[scan]?,
      b.StepFits s.controller.currentBatchSize run event
  | _ => True

instance (b : ScanBudget) (batchSize : ℕ) (run : DeepScanRun) (event : DeepScanEvent) :
    Decidable (b.StepFits batchSize run event) := by
  unfold StepFits
  split
  · infer_instance
  · split <;> infer_instance
  · infer_instance

instance (b : ScanBudget) (s : ScanProgress) (event : ScanProgress.Event) :
    Decidable (b.Affordable s event) := by
  unfold Affordable
  split <;> infer_instance

def hostDue (b : ScanBudget) (host : DiscoveredAddress) : ℕ :=
  match host.mac with
  | some _ => b.scanCostCs + b.integrationCost host.ip
  | none => responsivenessCostCs

def due (b : ScanBudget) (run : DeepScanRun) : ℕ :=
  match run.phase with
  | .waiting => b.hostDue run.host
  | .checking _ => responsivenessCostCs
  | .scanning chunksLeft => chunksLeft * b.costPerBatch + b.integrationCost run.host.ip
  | .finishing | .returned => 0

theorem deepScanStep_due {batchSize : ℕ} {run : DeepScanRun} {event : DeepScanEvent}
    {phase : DeepScanPhase} {accrual : Accrual}
    (h : b.deepScanStep batchSize run.host run.phase event = some (phase, accrual))
    (hfits : b.StepFits batchSize run event) :
    accrual.completedCost + b.due ⟨run.host, phase⟩ ≤ accrual.totalCost + b.due run := by
  obtain ⟨host, before⟩ := run
  unfold deepScanStep at h
  dsimp only at h hfits
  split at h
  · split at h
    · rename_i mac hmac
      cases h
      have hchunks := hfits (by rw [hmac]; rfl)
      simp only [due, hostDue, hmac]
      unfold Fits at hchunks
      omega
    · rename_i hmac
      cases h
      simp only [due, hostDue, hmac]
      omega
  · cases h
    simp only [due]
    omega
  · cases h
    have hchunks : b.Fits _ _ := hfits
    simp only [due]
    unfold Fits at hchunks
    omega
  · cases h
    simp only [due, succ_mul]
    omega
  · cases h
    simp only [due]
    omega
  · exact nomatch h
  · cases h
    simp only [due]
    omega
  · exact nomatch h

def outstanding (b : ScanBudget) (s : ScanProgress) : ℕ :=
  (s.pendingScans.map b.due).sum + (s.pendingHosts.map b.hostDue).sum +
    (b.nonInterfacedIpCount - s.streamed) * responsivenessCostCs

/-- What holds in every state of a scan whose steps are affordable. -/
structure Inv (b : ScanBudget) (s : ScanProgress) : Prop where
  streamed : s.streamed ≤ b.nonInterfacedIpCount
  cost : s.completedCost + b.outstanding s ≤ s.totalCost
  reports : s.reports.Pairwise (· ≤ ·)
  last : ∀ report ∈ s.reports, s.ended = false → report ≤ min s.lastProgressReport 99

theorem Inv.spawn (hs : b.Inv s) (host : DiscoveredAddress)
    (hcost : s.completedCost + b.outstanding s + b.hostDue host ≤ s.totalCost) :
    b.Inv (s.spawn host) := by
  refine ⟨hs.streamed, ?_, hs.reports, hs.last⟩
  unfold outstanding at hcost ⊢
  unfold ScanProgress.spawn
  dsimp only
  rw [map_append, List.sum_append, map_singleton, sum_singleton]
  have hwaiting : b.due ⟨host, .waiting⟩ = b.hostDue host := rfl
  omega

theorem Inv.putAside (hs : b.Inv s) (host : DiscoveredAddress)
    (hcost : s.completedCost + b.outstanding s + b.hostDue host ≤ s.totalCost) :
    b.Inv { s with pendingHosts := s.pendingHosts ++ [host] } := by
  refine ⟨hs.streamed, ?_, hs.reports, hs.last⟩
  unfold outstanding at hcost ⊢
  dsimp only
  rw [map_append, List.sum_append, map_singleton, sum_singleton]
  omega

theorem Inv.place (hs : b.Inv s) (host : DiscoveredAddress)
    (hcost : s.completedCost + b.outstanding s + b.hostDue host ≤ s.totalCost) :
    b.Inv (if s.pendingScans.length < s.deepScanConcurrency then s.spawn host
      else { s with pendingHosts := s.pendingHosts ++ [host] }) := by
  split_ifs
  · exact hs.spawn host hcost
  · exact hs.putAside host hcost

theorem Inv.receive (hs : b.Inv s) (host : DiscoveredAddress)
    (hcounted : host.mac = none → s.streamed < b.nonInterfacedIpCount) :
    b.Inv (s.receive b host) := by
  have hcost := hs.cost
  unfold outstanding at hcost
  unfold ScanProgress.receive
  cases hmac : host.mac with
  | some mac =>
    have hdue : b.hostDue host = b.scanCostCs + b.integrationCost host.ip := by
      unfold hostDue
      rw [hmac]
    refine Inv.place (s := { s with
      hostsDiscovered := s.hostsDiscovered + 1
      totalCost := s.totalCost + (b.scanCostCs + b.integrationCost host.ip) })
      ⟨hs.streamed, ?_, hs.reports, hs.last⟩ host ?_ <;>
    · unfold outstanding
      dsimp only
      omega
  | none =>
    have hlt := hcounted hmac
    have hdue : b.hostDue host = responsivenessCostCs := by
      unfold hostDue
      rw [hmac]
    have hcount : b.nonInterfacedIpCount - s.streamed =
        b.nonInterfacedIpCount - (s.streamed + 1) + 1 := by omega
    rw [hcount, succ_mul] at hcost
    refine Inv.place (s := { s with streamed := s.streamed + 1 })
      ⟨hlt, ?_, hs.reports, hs.last⟩ host ?_ <;>
    · unfold outstanding
      dsimp only
      omega

theorem sum_map_set {A : Type*} (f : A → ℕ) {l : List A} {i : ℕ} {a : A} (hi : l[i]? = some a)
    (a' : A) : ((l.set i a').map f).sum + f a = (l.map f).sum + f a' := by
  induction l generalizing i with
  | nil => exact nomatch hi
  | cons x l ih =>
    cases i with
    | zero =>
      cases hi
      rw [set_cons_zero, map_cons, map_cons, sum_cons, sum_cons]
      omega
    | succ i =>
      have ih := ih hi
      rw [set_cons_succ, map_cons, map_cons, sum_cons, sum_cons]
      omega

theorem sum_map_eraseIdx {A : Type*} (f : A → ℕ) {l : List A} {i : ℕ} {a : A}
    (hi : l[i]? = some a) : ((l.eraseIdx i).map f).sum + f a = (l.map f).sum := by
  obtain ⟨hlt, rfl⟩ := List.getElem?_eq_some_iff.mp hi
  have hperm := (getElem_cons_eraseIdx_perm hlt).map f
  rw [← hperm.sum_eq, map_cons, sum_cons, Nat.add_comm]

theorem Inv.advance (hs : b.Inv s) {scan : ℕ} {event : DeepScanEvent}
    (hfits : ∀ run ∈ s.pendingScans[scan]?, b.StepFits s.controller.currentBatchSize run event)
    (h : s.advance b scan event = some s') : b.Inv s' := by
  obtain ⟨run, hrun, h⟩ := Option.bind_eq_some_iff.mp h
  obtain ⟨⟨phase, accrual⟩, hstep, h⟩ := Option.bind_eq_some_iff.mp h
  cases h
  have hdue := deepScanStep_due hstep (hfits run hrun)
  have hsum := sum_map_set b.due hrun ⟨run.host, phase⟩
  have hcost := hs.cost
  refine ⟨hs.streamed, ?_, hs.reports, hs.last⟩
  unfold outstanding at hcost ⊢
  dsimp only
  omega

theorem Inv.collect (hs : b.Inv s) {scan : ℕ} (h : s.collect scan = some s') : b.Inv s' := by
  obtain ⟨run, hrun, h⟩ := Option.bind_eq_some_iff.mp h
  obtain ⟨-, h⟩ := Option.ite_none_left_eq_some.mp h
  have hsum := sum_map_eraseIdx b.due hrun
  have hcost := hs.cost
  unfold outstanding at hcost
  dsimp only at h
  split at h
  · rename_i host hlast
    cases h
    have hhosts := congrArg (fun l => (l.map b.hostDue).sum)
      (dropLast_append_getLast? host hlast)
    rw [map_append, List.sum_append, map_singleton, sum_singleton] at hhosts
    refine Inv.spawn (s := { s with
      pendingScans := s.pendingScans.eraseIdx scan, pendingHosts := s.pendingHosts.dropLast })
      ⟨hs.streamed, ?_, hs.reports, hs.last⟩ host ?_ <;>
    · unfold outstanding
      dsimp only
      omega
  · cases h
    refine ⟨hs.streamed, ?_, hs.reports, hs.last⟩
    unfold outstanding
    dsimp only
    omega

theorem pairwise_report {reports : List ℕ} {report last : ℕ} (hreports : reports.Pairwise (· ≤ ·))
    (hlast : ∀ r ∈ reports, r ≤ last) (hle : last ≤ report) :
    (reports ++ [report]).Pairwise (· ≤ ·) := by
  refine pairwise_append.mpr ⟨hreports, pairwise_singleton _ _, fun r hr x hx => ?_⟩
  rw [mem_singleton.mp hx]
  exact (hlast r hr).trans hle

theorem Inv.tick (hs : b.Inv s) (hrunning : s.ended = false) {r : ProgressReading}
    {heartbeat : Bool} (h : s.tick b r heartbeat = some s') : b.Inv s' := by
  obtain ⟨calculated, -, h⟩ := Option.bind_eq_some_iff.mp h
  dsimp only at h
  have hlast := fun report hreport => hs.last report hreport hrunning
  split_ifs at h
  · cases h
    have hgrows : min s.lastProgressReport 99 ≤ min (max calculated s.lastProgressReport) 99 :=
      min_le_min_right _ (le_max_right _ _)
    refine ⟨hs.streamed, hs.cost, pairwise_report hs.reports hlast hgrows, fun report hreport _ => ?_⟩
    rcases mem_append.mp hreport with hreport | hreport
    · exact (hlast report hreport).trans hgrows
    · rw [mem_singleton.mp hreport]
  · cases h
    exact hs

theorem Inv.finish (hs : b.Inv s) (hrunning : s.ended = false) {timedOut : Bool}
    (h : s.finish timedOut = some s') : b.Inv s' := by
  obtain ⟨-, h⟩ := Option.ite_none_right_eq_some.mp h
  cases h
  have hlast := fun report hreport => hs.last report hreport hrunning
  refine ⟨hs.streamed, hs.cost, pairwise_report hs.reports hlast ?_, fun _ _ h => nomatch h⟩
  exact (min_le_right _ _).trans (by decide)

theorem Inv.step (hs : b.Inv s) {event : ScanProgress.Event} (hok : b.Affordable s event)
    (h : s.step b event = some s') : b.Inv s' := by
  obtain ⟨hended, h⟩ := Option.ite_none_left_eq_some.mp h
  have hrunning : s.ended = false := Bool.eq_false_iff.mpr hended
  cases event with
  | receive host =>
    obtain ⟨-, h⟩ := Option.ite_none_left_eq_some.mp h
    cases h
    exact hs.receive host hok
  | close newConcurrency =>
    obtain ⟨-, h⟩ := Option.ite_none_left_eq_some.mp h
    cases h
    exact ⟨hs.streamed, hs.cost, hs.reports, hs.last⟩
  | scan scan event => exact hs.advance hok h
  | collect scan => exact hs.collect h
  | fdExhaustion nowMs =>
    cases h
    exact ⟨hs.streamed, hs.cost, hs.reports, hs.last⟩
  | success =>
    cases h
    exact ⟨hs.streamed, hs.cost, hs.reports, hs.last⟩
  | tick reading heartbeat => exact hs.tick hrunning h
  | finish timedOut => exact hs.finish hrunning h

theorem inv_init (b : ScanBudget) : b.Inv b.lts.init := by
  refine ⟨Nat.zero_le _, ?_, pairwise_singleton _ _, fun report hreport _ => ?_⟩
  · show 0 + (0 + 0 + (b.nonInterfacedIpCount - 0) * responsivenessCostCs) ≤
      b.nonInterfacedIpCount * responsivenessCostCs
    rw [Nat.sub_zero]
    omega
  · rw [mem_singleton.mp hreport]
    exact Nat.zero_le _

theorem asU8_le {q : ℚ} {n : ℕ} (h : q ≤ n) : asU8 q ≤ n := by
  have hfloor : ⌊q⌋ ≤ (n : ℤ) := by
    refine Int.cast_le.mp ((Int.floor_le q).trans ?_)
    rwa [Int.cast_natCast]
  unfold asU8
  omega

theorem ratio_le_one {completed total : ℕ} (h : completed ≤ total) : ratio completed total ≤ 1 := by
  unfold ratio
  exact div_le_one_of_le₀ (cast_le.mpr h) (cast_nonneg _)

theorem exists_add_asU8 {start phase : ℕ} {q : ℚ} (hq : q ≤ 1) (hsum : start + phase ≤ 100) :
    ∃ percent ≤ 100, Checked.add 8 start (asU8 (q * phase)) = some percent := by
  have hshare : asU8 (q * phase) ≤ phase := by
    refine asU8_le ?_
    calc q * phase ≤ 1 * phase := mul_le_mul_of_nonneg_right hq (cast_nonneg _)
      _ = phase := one_mul _
  refine ⟨start + asU8 (q * phase), by omega, Checked.add_eq_some.mpr ⟨by omega, rfl⟩⟩

theorem exists_calculateProgress (hcost : s.completedCost ≤ s.totalCost) (r : ProgressReading) :
    ∃ percent ≤ 100, s.calculateProgress b r = some percent := by
  have hdeep : progressArpPhase + progressDeepScanPhase ≤ 100 := by decide
  have hgrace : progressArpPhase + progressDeepScanPhase + progressGracePhase ≤ 100 := by decide
  unfold ScanProgress.calculateProgress
  by_cases hopen : (!s.channelClosed) = true
  · rw [if_pos hopen]
    exact ⟨_, (min_le_right _ _).trans (by decide), rfl⟩
  rw [if_neg hopen]
  by_cases hscanning : 0 < s.totalCost ∧ (s.completedCost < s.totalCost ∨ s.hasPending)
  · rw [if_pos hscanning]
    exact exists_add_asU8 (ratio_le_one hcost) hdeep
  rw [if_neg hscanning]
  by_cases hhosts : s.hasPending ∧ s.totalCost = 0 ∧ 0 < s.hostsDiscovered
  · rw [if_pos hhosts]
    exact exists_add_asU8 (min_le_right _ _) hdeep
  rw [if_neg hhosts]
  by_cases hpending : s.hasPending = true
  · rw [if_pos hpending]
    exact ⟨progressArpPhase, by decide, rfl⟩
  · rw [if_neg hpending]
    exact exists_add_asU8 (min_le_right _ _) hgrace

theorem length_tcpPorts (b : ScanBudget) : b.scan.tcpPorts.length = b.scanPortCount := by
  unfold Scan.NetworkScan.tcpPorts scanPortCount
  split_ifs
  · rw [length_map, length_range']
  · rfl

theorem chunkCount_eq (b : ScanBudget) (ports : List (BitVec 16)) (size : ℕ) :
    b.chunkCount ports size = ((b.scan.tcpPorts.filter (· ∉ ports)).length + size - 1) / size := by
  rw [chunkCount, List.chunks, length_map, length_range]

/-- A deep scan that is not slowed down has at most as many chunks as were counted. -/
theorem fits_of_le (b : ScanBudget) (ports : List (BitVec 16)) {batchSize : ℕ}
    (hsize : b.scan.portScanBatchSize ≤ batchSize) :
    b.Fits ports (min b.scan.portScanBatchSize batchSize) := by
  have hchunks : b.chunkCount ports b.scan.portScanBatchSize ≤ b.batchesPerHost := by
    have hle := length_filter_le (fun p => decide (p ∉ ports)) b.scan.tcpPorts
    rw [length_tcpPorts] at hle
    rw [chunkCount_eq, batchesPerHost]
    exact Nat.div_le_div_right (by omega)
  rw [min_eq_left hsize, Fits, costPerBatch]
  split_ifs
  · exact (Nat.mul_le_mul_right _ hchunks).trans (mul_div_le _ _)
  · exact Nat.zero_le _

/-- A scan stays in its budget in every run that streams no more addresses than were counted, and
whose deep scans all start with chunks that fit. -/
theorem inBudget_of_affordable (b : ScanBudget) (s : ScanProgress)
    (hs : b.lts.ReachableVia b.Affordable s) : s.InBudget b := by
  have hinv : b.Inv s := by
    refine hs.invariant (inv_init b) ?_
    intro s event s' _ hs hok h
    exact hs.step hok h
  have hcost := (Nat.le_add_right _ _).trans hinv.cost
  exact ⟨hcost, exists_calculateProgress hcost, hinv.reports⟩

section Example

private def scannedLan : Subnet :=
  ⟨1, 0, 0, none, none, ⟨.v4 ⟨0, 24, Cidr.slash24_le, Cidr.zero_host_part⟩, 1, "lan", none, .lan, none, .discovery, 0⟩⟩

/-- A light scan of some ports, `batchSize` at a time, one host after the other. -/
private def lightBudget (streamed ports batchSize : ℕ) (hpos : 0 < batchSize) : ScanBudget where
  nonInterfacedIpCount := streamed
  scan := ⟨false, false, batchSize, hpos, (List.range' 1 ports).map (BitVec.ofNat 16)⟩
  credentialMappings := []
  estimatedArpSecs := 14
  arpPacketsTotal := 762
  deepScanConcurrency := 1

private def twoHosts : List ScanProgress.Event :=
  [.receive ⟨.v4 1, scannedLan, some 1⟩, .receive ⟨.v4 2, scannedLan, none⟩, .scan 0 .begin,
    .scan 0 .chunk, .tick ⟨0, 5, 90⟩ false, .scan 0 .chunk, .close none, .scan 0 .probe,
    .scan 0 .leave, .collect 0, .scan 0 .begin, .scan 0 (.check [1]), .fdExhaustion 9000,
    .scan 0 .chunk, .scan 0 .chunk, .scan 0 .probe, .tick ⟨0, 20, 300⟩ false]

private def evenBudget : ScanBudget := lightBudget 1 40 32 (by decide)

theorem inBudget_twoHosts : ∃ s, evenBudget.lts.run evenBudget.lts.init twoHosts = some s ∧
    s.completedCost = 1800 ∧ s.InBudget evenBudget := by
  have hrun : (evenBudget.lts.run evenBudget.lts.init twoHosts).map (·.completedCost) =
      some 1800 := by decide +kernel
  obtain ⟨s, hs, hcost⟩ := Option.map_eq_some_iff.mp hrun
  refine ⟨s, hs, hcost, inBudget_of_affordable evenBudget s (Lts.reachableVia_of_run .init ?_ hs)⟩
  decide +kernel

/-- Two shortages of file descriptors before the deep scan of a host, which then has four chunks
where one was counted. -/
private def slowedDown : List ScanProgress.Event :=
  [.receive ⟨.v4 1, scannedLan, some 1⟩, .close none, .fdExhaustion 9000, .fdExhaustion 9600,
    .scan 0 .begin, .scan 0 .chunk, .scan 0 .chunk, .scan 0 .chunk, .scan 0 .chunk]

private def sparseBudget : ScanBudget := lightBudget 0 64 64 (by decide)

theorem not_inBudget : ¬∀ (b : ScanBudget) (s : ScanProgress), b.lts.Reachable s → s.InBudget b := by
  intro h
  have hrun : (sparseBudget.lts.run sparseBudget.lts.init slowedDown).map (fun s =>
      (s.completedCost, s.totalCost)) = some (3200, 800) := by decide +kernel
  obtain ⟨s, hs, hcosts⟩ := Option.map_eq_some_iff.mp hrun
  have hcost := (h sparseBudget s (Lts.reachable_of_run hs)).cost
  rw [show s.completedCost = 3200 from congrArg Prod.fst hcosts,
    show s.totalCost = 800 from congrArg Prod.snd hcosts] at hcost
  exact absurd hcost (by decide)

end Example

end ScanBudget
end Scanopy
