import Scanopy.Daemon.ArpScan
import Scanopy.Daemon.Enumeration

/-! A scan whose last request can be sent close to the end of the receiver's lifetime, or after it,
can lose a reply: while nothing is found, the receiver stops and the sender goes on. -/

namespace Scanopy.ArpScan
open List Nat
variable {scan : ArpScan} {s s' : ArpState} {packet : ArpPacket} {time deadline : ℕ}

/-- How many steps the sender still takes, at most. -/
def remaining (scan : ArpScan) : ArpSender → ℕ
  | .starting round => (scan.totalRounds - round) * (scan.targets.length + 1) + 1
  | .sending _ rest round =>
    (scan.totalRounds - (round + 1)) * (scan.targets.length + 1) + rest.length + 2
  | .done => 0

theorem exists_send (scan : ArpScan) (h : s.sender ≠ .done) : ∃ s', scan.send s = some s' := by
  unfold send
  split
  · split
    · exact ⟨_, rfl⟩
    · exact ⟨_, rfl⟩
  · exact ⟨_, rfl⟩
  · exact ⟨_, rfl⟩
  · rename_i hdone
    exact absurd hdone h

theorem remaining_send_lt (h : scan.send s = some s') :
    scan.remaining s'.sender < scan.remaining s.sender := by
  obtain ⟨round, hsender, -, rfl⟩ | ⟨round, target, rest, hsender, htargets, rfl⟩ |
    ⟨target, round, hsender, rfl⟩ | ⟨target, next, rest, round, hsender, rfl⟩ := send_cases h <;>
    rw [hsender] <;> dsimp only [remaining]
  · exact succ_pos _
  · obtain ⟨hround, hrest, -⟩ := length_roundTargets htargets
    have hleft : scan.totalRounds - round = scan.totalRounds - (round + 1) + 1 := by omega
    rw [hleft, succ_mul]
    omega
  · omega
  · rw [length_cons]
    omega

structure Silent (s s' : ArpState) : Prop where
  receiver : s'.receiver = s.receiver
  polledAt : s'.polledAt = s.polledAt
  foundIps : s'.foundIps = s.foundIps
  reported : s'.reported = s.reported
  replies : s'.replies = s.replies

theorem silent_send (h : scan.send s = some s') : Silent s s' ∧ s'.now = s.wakesAt := by
  obtain ⟨round, -, -, rfl⟩ | ⟨round, target, rest, -, -, rfl⟩ | ⟨target, round, -, rfl⟩ |
    ⟨target, next, rest, round, -, rfl⟩ := send_cases h <;>
  exact ⟨⟨rfl, rfl, rfl, rfl, rfl⟩, rfl⟩

theorem exists_mayPass (hs : scan.lts.Reachable s) (hnow : s.now ≤ time) :
    ∃ s', scan.lts.Reachable s' ∧ Silent s s' ∧ mayPass s' time := by
  induction hleft : scan.remaining s.sender using Nat.strong_induction_on generalizing s with
  | h left ih =>
    by_cases hpass : s.sender = .done ∨ time ≤ s.wakesAt
    · exact ⟨s, hs, ⟨rfl, rfl, rfl, rfl, rfl⟩, hnow, hpass⟩
    · obtain ⟨hdone, hwakes⟩ := not_or.mp hpass
      obtain ⟨t, ht⟩ := exists_send scan hdone
      obtain ⟨hsilent, hwoken⟩ := silent_send ht
      have hreach : scan.lts.Reachable t := .step (l := ArpEvent.send) hs trivial ht
      obtain ⟨s', hs', hrest, hpass⟩ := ih _ (hleft ▸ remaining_send_lt ht) hreach
        (hwoken.trans_le (Nat.le_of_not_le hwakes)) rfl
      refine ⟨s', hs', ⟨?_, ?_, ?_, ?_, ?_⟩, hpass⟩
      · exact hrest.receiver.trans hsilent.receiver
      · exact hrest.polledAt.trans hsilent.polledAt
      · exact hrest.foundIps.trans hsilent.foundIps
      · exact hrest.reported.trans hsilent.reported
      · exact hrest.replies.trans hsilent.replies

def SendsLast (scan : ArpScan) (s : ArpState) : Prop :=
  s.foundIps = [] → scan.targets ≠ [] → scan.totalRounds ≠ 0 → match s.sender with
    | .starting round => round = scan.totalRounds → ∃ request ∈ s.requests,
        request.time = scan.lastSend
    | .sending .. => True
    | .done => ∃ request ∈ s.requests, request.time = scan.lastSend

theorem SendsLast.send (hs : scan.SendsLast s) (hschedule : scan.OnSchedule s)
    (h : scan.send s = some s') : scan.SendsLast s' := by
  have hwithin := hschedule.within
  have heq := hschedule.eq
  obtain ⟨round, hsender, htargets, rfl⟩ | ⟨round, target, rest, hsender, htargets, rfl⟩ |
    ⟨target, round, hsender, rfl⟩ | ⟨target, next, rest, round, hsender, rfl⟩ := send_cases h <;>
    simp only [SendsLast, hsender] at hs hwithin heq ⊢ <;> intro hfound hnonempty hrounds
  · refine hs hfound hnonempty hrounds ?_
    have hover : ¬round < scan.totalRounds := by
      intro hround
      rw [roundTargets, if_pos hround, filter_eq_nil_iff, hfound] at htargets
      obtain ⟨ip, hip⟩ := exists_mem_of_ne_nil _ hnonempty
      exact htargets ip hip (decide_eq_true not_mem_nil)
    exact hwithin.antisymm (Nat.le_of_not_lt hover)
  · trivial
  · intro hlast
    refine ⟨_, mem_cons_self, ?_⟩
    have hslot := heq hfound (fun h => nomatch h)
    dsimp only [slot] at hslot
    rw [length_nil, Nat.sub_zero] at hslot
    rw [hslot, lastSend, ← hlast, Nat.add_sub_cancel]
  · trivial

theorem SendsLast.listens (hs : scan.SendsLast s) (h : Listens s s' time) :
    scan.SendsLast s' := by
  intro hfound hnonempty hrounds
  rw [h.sender, h.requests]
  exact hs (subset_nil.mp (hfound ▸ h.foundIps)) hnonempty hrounds

theorem sendsLast_of_reachable (hs : scan.lts.Reachable s) : scan.SendsLast s := by
  refine hs.invariant (fun _ _ hrounds hzero => absurd hzero.symm hrounds) ?_
  intro s event s' hreach hs _ h
  obtain hsend | ⟨packet, time, -, rfl⟩ | ⟨time, -, -, rfl⟩ := step_cases h
  · exact hs.send (inv_of_reachable hreach).onSchedule hsend
  · exact hs.listens (listens_onPacket scan s packet time)
  · exact hs.listens (listens_onTimeout s time)

def SendsFirst (s : ArpState) : Prop :=
  s.requests = [] ∧ s.wakesAt = 0 ∨ ∃ request ∈ s.requests, request.time = 0

theorem SendsFirst.send (hs : SendsFirst s) (h : scan.send s = some s') : SendsFirst s' := by
  have hsent : ∀ target, ∃ request ∈ ⟨target, s.wakesAt⟩ :: s.requests, request.time = 0 := by
    intro target
    rcases hs with ⟨-, hzero⟩ | ⟨request, hrequest, hzero⟩
    · exact ⟨_, mem_cons_self, hzero⟩
    · exact ⟨request, mem_cons_of_mem _ hrequest, hzero⟩
  obtain ⟨round, -, -, rfl⟩ | ⟨round, target, rest, -, -, rfl⟩ | ⟨target, round, -, rfl⟩ |
    ⟨target, next, rest, round, -, rfl⟩ := send_cases h
  · exact hs
  · exact hs
  · exact .inr (hsent target)
  · exact .inr (hsent target)

theorem sendsFirst_of_reachable (hs : scan.lts.Reachable s) : SendsFirst s := by
  refine hs.invariant (.inl ⟨rfl, rfl⟩) ?_
  intro s event s' _ hs _ h
  obtain hsend | ⟨packet, time, -, rfl⟩ | ⟨time, -, -, rfl⟩ := step_cases h
  · exact hs.send hsend
  · have hlistens := listens_onPacket scan s packet time
    rwa [SendsFirst, hlistens.requests, hlistens.wakesAt]
  · have hlistens := listens_onTimeout s time
    rwa [SendsFirst, hlistens.requests, hlistens.wakesAt]

theorem onPacket_other (scan : ArpScan) (hreceiver : s.receiver = .receiving)
    (hstop : maxReceiverLifetime ≤ time) :
    scan.onPacket .other time s = { s with
      now := time, polledAt := time, receiver := .final (time + postScanReceive) } := by
  unfold onPacket
  rw [hreceiver]
  dsimp only [process, arrive, checkStop]
  rw [if_neg (fun h => nomatch h), if_pos (.inr hstop)]

theorem onTimeout_final (hreceiver : s.receiver = .final deadline)
    (hbefore : s.polledAt < deadline) :
    onTimeout time s = { s with now := time, polledAt := time + idleSleep } := by
  unfold onTimeout
  rw [hreceiver]
  exact if_pos hbefore

theorem onPacket_ended {ip : BitVec 32} {mac : MacAddress} (hreceiver : s.receiver = .final deadline)
    (hafter : deadline ≤ s.polledAt) :
    scan.onPacket (.reply ip mac) time s =
      { s with now := time, replies := ⟨ip, time⟩ :: s.replies } := by
  unfold onPacket
  split
  · rename_i h
    exact nomatch hreceiver.symm.trans h
  · rename_i h
    cases hreceiver.symm.trans h
    exact if_neg (Nat.not_lt.mpr hafter)

theorem exists_done (hs : scan.lts.Reachable s) :
    ∃ s', scan.lts.Reachable s' ∧ Silent s s' ∧ s'.sender = .done := by
  let late := s.now + scan.totalRounds * scan.roundTime + scan.lastSend + 1
  have hlate : s.now ≤ late := by
    dsimp only [late]
    omega
  obtain ⟨s', hs', hsilent, hpass⟩ := exists_mayPass hs hlate
  refine ⟨s', hs', hsilent, hpass.2.resolve_right fun hwakes => ?_⟩
  have hschedule := (inv_of_reachable hs').onSchedule
  have hwithin := hschedule.within
  have hwakes := hwakes.trans hschedule.le
  dsimp only [late] at hwakes
  cases hsender : s'.sender with
  | starting round =>
    rw [hsender] at hwithin hwakes
    have hround := Nat.mul_le_mul_right scan.roundTime hwithin
    dsimp only [slot] at hwakes
    omega
  | sending target rest round =>
    rw [hsender] at hwithin hwakes
    have hlast := slot_sending_le hwithin
    omega
  | done =>
    rw [hsender] at hwakes
    dsimp only [slot] at hwakes
    omega

theorem exists_lost (hrounds : scan.totalRounds ≠ 0) (htargets : scan.targets ≠ [])
    (hlong : maxReceiverLifetime ≤ scan.lastSend + idleSleep) :
    ∃ s, scan.lts.Reachable s ∧ ¬scan.AllReported s := by
  obtain ⟨ip, hip⟩ := exists_mem_of_ne_nil _ htargets
  -- no packet comes until the end of the lifetime, and then one that is no reply
  obtain ⟨s₁, hs₁, hsilent₁, hpass₁⟩ :=
    exists_mayPass (Lts.ReachableVia.init : scan.lts.Reachable {})
      (Nat.zero_le maxReceiverLifetime)
  have hstop := onPacket_other scan hsilent₁.receiver (le_refl maxReceiverLifetime)
  have hs₂ : scan.lts.Reachable (scan.onPacket .other maxReceiverLifetime s₁) :=
    .step (l := ArpEvent.packet .other maxReceiverLifetime) hs₁ trivial (if_pos hpass₁)
  rw [hstop] at hs₂
  -- the last wait of the receiver is over just before its deadline, and a reply comes in its sleep
  let time := maxReceiverLifetime + postScanReceive - idleSleep
  have htime : maxReceiverLifetime ≤ time ∧ maxReceiverLifetime + readTimeout ≤ time ∧
      time + idleSleep = maxReceiverLifetime + postScanReceive := by decide
  obtain ⟨s₃, hs₃, hsilent₃, hpass₃⟩ := exists_mayPass hs₂ htime.1
  have hpolled : s₃.polledAt = maxReceiverLifetime := hsilent₃.polledAt
  have hwait : s₃.polledAt + readTimeout ≤ time := hpolled ▸ htime.2.1
  have hbefore : s₃.polledAt < maxReceiverLifetime + postScanReceive := by
    rw [hpolled]
    decide
  have hs₄ : scan.lts.Reachable (onTimeout time s₃) :=
    .step (l := ArpEvent.timeout time) hs₃ trivial (if_pos ⟨hpass₃, hwait⟩)
  rw [onTimeout_final hsilent₃.receiver hbefore] at hs₄
  have hs₅ := Lts.ReachableVia.step (l := ArpEvent.packet (.reply ip 0) time) hs₄ trivial
    (if_pos ⟨le_rfl, hpass₃.2⟩)
  rw [onPacket_ended (s := { s₃ with now := time, polledAt := time + idleSleep })
    hsilent₃.receiver htime.2.2.ge] at hs₅
  obtain ⟨s, hs, hsilent, hdone⟩ := exists_done hs₅
  have hfound : s.foundIps = [] :=
    hsilent.foundIps.trans (hsilent₃.foundIps.trans hsilent₁.foundIps)
  have hreported : s.reported = [] :=
    hsilent.reported.trans (hsilent₃.reported.trans hsilent₁.reported)
  have hreply : ⟨ip, time⟩ ∈ s.replies := by
    rw [hsilent.replies]
    exact mem_cons_self
  have hlast := sendsLast_of_reachable hs hfound htargets hrounds
  rw [hdone] at hlast
  obtain ⟨last, hmem, hlast⟩ := hlast
  obtain ⟨first, hfirst, hzero⟩ :=
    (sendsFirst_of_reachable hs).resolve_left fun h => ne_nil_of_mem hmem h.1
  refine ⟨s, hs, fun hall => ?_⟩
  have hin : ip ∈ s.reported.map (·.ip) := hall.replies _ hreply hip
    ⟨first, hfirst, hzero.trans_le (Nat.zero_le _)⟩ ⟨last, hmem, ?_⟩
  · rw [hreported] at hin
    exact absurd hin not_mem_nil
  · dsimp only
    omega

theorem lt_of_repliesReported (h : scan.RepliesReported) : scan.totalRounds = 0 ∨
    scan.targets = [] ∨ scan.lastSend + idleSleep < maxReceiverLifetime := by
  by_contra hlong
  obtain ⟨hrounds, hlong⟩ := not_or.mp hlong
  obtain ⟨htargets, hlong⟩ := not_or.mp hlong
  obtain ⟨s, hs, hlost⟩ := exists_lost hrounds htargets (Nat.le_of_not_lt hlong)
  exact hlost (h s hs)

/-- The replies of a scan are all reported if and only if the last request it may send comes before
the end of the receiver's lifetime, by more than the receiver's sleep. -/
theorem repliesReported_iff (scan : ArpScan) :
    scan.RepliesReported ↔ scan.totalRounds = 0 ∨ scan.targets = [] ∨
      scan.lastSend + idleSleep < maxReceiverLifetime := by
  constructor
  · exact lt_of_repliesReported
  · intro hshort s hs
    refine (inv_of_reachable hs).allReported fun hrounds htargets => ?_
    exact (hshort.resolve_left hrounds).resolve_left htargets

theorem lastSend_default (targets : List (BitVec 32)) (nodup : targets.Nodup) :
    (ArpSettings.scan {} targets nodup).lastSend =
      2 * (targets.length * 20000 + roundWait) + (targets.length - 1) * 20000 := by
  have hdelay : (ArpSettings.scan {} targets nodup).sendDelay = 20000 := by
    show 1000000 / max (50 : UInt32).toNat 1 = 20000
    decide +kernel
  have hrounds : (ArpSettings.scan {} targets nodup).totalRounds = 3 := rfl
  unfold lastSend roundTime
  rw [hdelay, hrounds]
  rfl

/-- The default settings, on a network of 8192 addresses. -/
theorem not_repliesReported : ¬∀ (settings : ArpSettings) (targets : List (BitVec 32))
    (nodup : targets.Nodup), targets.length ≤ 2 ^ (32 - settings.cutoff.toNat) →
      (settings.scan targets nodup).RepliesReported := by
  intro h
  let network : Cidr 32 := ⟨0x0A000000, 19, by decide, by decide⟩
  have hlength : network.addresses.length = 8192 := network.length_addresses
  have hreported := h {} network.addresses network.nodup_addresses (by
    rw [hlength]
    decide +kernel)
  rcases lt_of_repliesReported hreported with hrounds | htargets | hshort
  · exact absurd hrounds (by decide)
  · rw [ArpSettings.targets_scan] at htargets
    rw [htargets] at hlength
    exact nomatch hlength
  · rw [lastSend_default, hlength] at hshort
    unfold roundWait maxReceiverLifetime at hshort
    omega

end Scanopy.ArpScan
