import Scanopy.Lib.Lts
import Scanopy.Shared.Entities

/-! The ARP scan of one network. A sender asks for the targets in rounds; a receiver listens until
the sender is done or its own lifetime is over. Times are microseconds since the start; the sender
wakes exactly when its sleep is over, and packets come at any time. -/

namespace Scanopy

def roundWait : ℕ := 3000000

def postScanReceive : ℕ := 5000000

def maxReceiverLifetime : ℕ := 300000000

def forwarderTimeout : ℕ := 600000000

/-- How long the receiver waits for a packet. -/
def readTimeout : ℕ := 50000

/-- How long the receiver sleeps after a wait in its last period. -/
def idleSleep : ℕ := 1000

structure ArpSettings where
  arpRetries : Option UInt32 := none
  arpRatePps : Option UInt32 := none
  arpScanCutoff : Option UInt8 := none

namespace ArpSettings
variable (settings : ArpSettings)

def retries : UInt32 := settings.arpRetries.getD 2

def ratePps : UInt32 := settings.arpRatePps.getD 50

def cutoff : UInt8 := settings.arpScanCutoff.getD 15

end ArpSettings

/-- The arguments of a scan. The targets stand in the order in which their set is iterated. -/
structure ArpScan where
  targets : List (BitVec 32)
  nodup : targets.Nodup
  retries : UInt32
  ratePps : UInt32

def ArpSettings.scan (settings : ArpSettings) (targets : List (BitVec 32))
    (nodup : targets.Nodup) : ArpScan :=
  ⟨targets, nodup, settings.retries, settings.ratePps⟩

@[simp] theorem ArpSettings.targets_scan (settings : ArpSettings) (targets : List (BitVec 32))
    (nodup : targets.Nodup) : (settings.scan targets nodup).targets = targets := rfl

inductive ArpSender
  /-- At the start of a round, the rounds before it being over. -/
  | starting (round : ℕ)
  | sending (target : BitVec 32) (rest : List (BitVec 32)) (round : ℕ)
  | done
  deriving DecidableEq

inductive ArpReceiver
  | receiving
  | final (deadline : ℕ)
  deriving DecidableEq

inductive ArpPacket
  | reply (senderIp : BitVec 32) (mac : MacAddress)
  | own
  | other
  deriving DecidableEq

structure ArpScanResult where
  ip : BitVec 32
  mac : MacAddress
  deriving DecidableEq

/-- A request or a reply, by the address it is about. -/
structure ArpMessage where
  ip : BitVec 32
  time : ℕ
  deriving DecidableEq

structure ArpState where
  now : ℕ := 0
  sender : ArpSender := .starting 0
  wakesAt : ℕ := 0
  receiver : ArpReceiver := .receiving
  /-- When the receiver waits, or will wait, for the next packet. -/
  polledAt : ℕ := 0
  foundIps : List (BitVec 32) := []
  reported : List ArpScanResult := []
  requests : List ArpMessage := []
  replies : List ArpMessage := []

/-- What happens next: the sender wakes, a packet comes, or the receiver's wait is over. -/
inductive ArpEvent
  | send
  | packet (packet : ArpPacket) (time : ℕ)
  | timeout (time : ℕ)

namespace ArpScan
variable (scan : ArpScan)

def sendDelay : ℕ := 1000000 / max scan.ratePps.toNat 1

def totalRounds : ℕ := (1 + scan.retries).toNat

def roundTargets (foundIps : List (BitVec 32)) (round : ℕ) : List (BitVec 32) :=
  if round < scan.totalRounds then scan.targets.filter (· ∉ foundIps) else []

def send (s : ArpState) : Option ArpState :=
  match s.sender with
  | .starting round => match scan.roundTargets s.foundIps round with
    | [] => some { s with now := s.wakesAt, sender := .done }
    | target :: rest => some { s with now := s.wakesAt, sender := .sending target rest round }
  | .sending target [] round => some { s with
      now := s.wakesAt
      requests := ⟨target, s.wakesAt⟩ :: s.requests
      sender := .starting (round + 1)
      wakesAt := s.wakesAt + scan.sendDelay + roundWait }
  | .sending target (next :: rest) round => some { s with
      now := s.wakesAt
      requests := ⟨target, s.wakesAt⟩ :: s.requests
      sender := .sending next rest round
      wakesAt := s.wakesAt + scan.sendDelay }
  | .done => none

/-- A packet is looked at. A new address goes to the forwarder, which passes it on until its own
timeout. -/
def process (packet : ArpPacket) (time : ℕ) (s : ArpState) : ArpState :=
  match packet with
  | .reply ip mac =>
    if ip ∈ scan.targets ∧ ip ∉ s.foundIps then
      { s with
        foundIps := ip :: s.foundIps
        reported := if time < forwarderTimeout then s.reported ++ [⟨ip, mac⟩] else s.reported }
    else s
  | _ => s

def checkStop (time : ℕ) (s : ArpState) : ArpState :=
  if s.sender = .done ∨ maxReceiverLifetime ≤ time then
    { s with receiver := .final (time + postScanReceive) }
  else s

def arrive (packet : ArpPacket) (time : ℕ) (s : ArpState) : ArpState :=
  match packet with
  | .reply ip _ => { s with now := time, replies := ⟨ip, time⟩ :: s.replies }
  | _ => { s with now := time }

def onPacket (packet : ArpPacket) (time : ℕ) (s : ArpState) : ArpState :=
  match s.receiver with
  | .receiving =>
    let s := { scan.process packet time (arrive packet time s) with polledAt := time }
    -- after one of its own packets the loop continues before the check
    if packet = .own then s else checkStop time s
  | .final deadline =>
    if s.polledAt < deadline then
      { scan.process packet (max s.polledAt time) (arrive packet time s) with
        polledAt := max s.polledAt time }
    else arrive packet time s

def onTimeout (time : ℕ) (s : ArpState) : ArpState :=
  match s.receiver with
  | .receiving => checkStop time { s with now := time, polledAt := time }
  | .final deadline =>
    if s.polledAt < deadline then { s with now := time, polledAt := time + idleSleep }
    else { s with now := time }

def mayPass (s : ArpState) (time : ℕ) : Prop :=
  s.now ≤ time ∧ (s.sender = .done ∨ time ≤ s.wakesAt)

instance (s : ArpState) (time : ℕ) : Decidable (mayPass s time) := by
  unfold mayPass
  infer_instance

def step (s : ArpState) : ArpEvent → Option ArpState
  | .send => scan.send s
  | .packet packet time => if mayPass s time then some (scan.onPacket packet time s) else none
  | .timeout time =>
    if mayPass s time ∧ s.polledAt + readTimeout ≤ time then some (onTimeout time s) else none

def lts : Lts ArpState ArpEvent where
  init := {}
  step := scan.step

structure AllReported (s : ArpState) : Prop where
  replies : ∀ reply ∈ s.replies, reply.ip ∈ scan.targets →
    (∃ request ∈ s.requests, request.time ≤ reply.time) →
    (∃ request ∈ s.requests, reply.time ≤ request.time + postScanReceive) →
    reply.ip ∈ s.reported.map (·.ip)
  nodup : (s.reported.map (·.ip)).Nodup

def RepliesReported : Prop := ∀ s, scan.lts.Reachable s → scan.AllReported s

def roundTime : ℕ := scan.targets.length * scan.sendDelay + roundWait

def lastSend : ℕ :=
  (scan.totalRounds - 1) * scan.roundTime + (scan.targets.length - 1) * scan.sendDelay

end ArpScan
end Scanopy

namespace Scanopy.ArpScan
variable {scan : ArpScan} {s s' : ArpState} {packet : ArpPacket} {time deadline : ℕ}
variable {event : ArpEvent} {target : BitVec 32} {rest : List (BitVec 32)} {round t : ℕ}

theorem process_eq (scan : ArpScan) (packet : ArpPacket) (time : ℕ) (s : ArpState) :
    scan.process packet time s = { s with
      foundIps := (scan.process packet time s).foundIps
      reported := (scan.process packet time s).reported } := by
  unfold process
  split
  · split_ifs <;> rfl
  · rfl

theorem arrive_eq (packet : ArpPacket) (time : ℕ) (s : ArpState) :
    arrive packet time s = { s with now := time, replies := (arrive packet time s).replies } := by
  cases packet <;> rfl

/-- A step of the receiver. -/
structure Listens (s s' : ArpState) (time : ℕ) : Prop where
  now : s'.now = time
  sender : s'.sender = s.sender
  wakesAt : s'.wakesAt = s.wakesAt
  requests : s'.requests = s.requests
  foundIps : s.foundIps ⊆ s'.foundIps

theorem foundIps_subset_process (scan : ArpScan) (packet : ArpPacket) (time : ℕ) (s : ArpState) :
    s.foundIps ⊆ (scan.process packet time s).foundIps := by
  unfold process
  split
  · split_ifs
    · exact List.subset_cons_self _ _
    · exact List.subset_cons_self _ _
    · exact List.Subset.refl _
  · exact List.Subset.refl _

theorem listens_process (scan : ArpScan) (s : ArpState) (packet : ArpPacket)
    (time t polledAt : ℕ) : Listens s
      { scan.process packet t (arrive packet time s) with polledAt := polledAt } time := by
  have harrive : (arrive packet time s).foundIps = s.foundIps := by rw [arrive_eq]
  have hfound := harrive ▸ foundIps_subset_process scan packet t (arrive packet time s)
  rw [process_eq]
  exact ⟨by rw [arrive_eq], by rw [arrive_eq], by rw [arrive_eq], by rw [arrive_eq], hfound⟩

theorem listens_checkStop (h : Listens s s' time) : Listens s (checkStop time s') time := by
  unfold checkStop
  split_ifs
  · exact ⟨h.now, h.sender, h.wakesAt, h.requests, h.foundIps⟩
  · exact h

theorem listens_pass (s : ArpState) (time polledAt : ℕ) :
    Listens s { s with now := time, polledAt := polledAt } time :=
  ⟨rfl, rfl, rfl, rfl, List.Subset.refl _⟩

theorem listens_onPacket (scan : ArpScan) (s : ArpState) (packet : ArpPacket) (time : ℕ) :
    Listens s (scan.onPacket packet time s) time := by
  unfold onPacket
  split
  · dsimp only
    split_ifs
    · exact listens_process scan s packet time time time
    · exact listens_checkStop (listens_process scan s packet time time time)
  · split_ifs
    · exact listens_process scan s packet time _ _
    · rw [arrive_eq]
      exact ⟨rfl, rfl, rfl, rfl, List.Subset.refl _⟩

theorem listens_onTimeout (s : ArpState) (time : ℕ) : Listens s (onTimeout time s) time := by
  unfold onTimeout
  split
  · exact listens_checkStop (listens_pass s time time)
  · split_ifs
    · exact listens_pass s time (time + idleSleep)
    · exact listens_pass s time s.polledAt

theorem step_cases (h : scan.step s event = some s') :
    scan.send s = some s' ∨ (∃ packet time, mayPass s time ∧ s' = scan.onPacket packet time s) ∨
      ∃ time, mayPass s time ∧ s.polledAt + readTimeout ≤ time ∧ s' = onTimeout time s := by
  cases event with
  | send => exact .inl h
  | packet packet time =>
    obtain ⟨hpass, hs'⟩ := Option.ite_none_right_eq_some.mp h
    exact .inr (.inl ⟨packet, time, hpass, (Option.some.inj hs').symm⟩)
  | timeout time =>
    obtain ⟨⟨hpass, hwait⟩, hs'⟩ := Option.ite_none_right_eq_some.mp h
    exact .inr (.inr ⟨time, hpass, hwait, (Option.some.inj hs').symm⟩)

theorem send_cases (h : scan.send s = some s') :
    (∃ round, s.sender = .starting round ∧ scan.roundTargets s.foundIps round = [] ∧
      s' = { s with now := s.wakesAt, sender := .done }) ∨
    (∃ round target rest, s.sender = .starting round ∧
      scan.roundTargets s.foundIps round = target :: rest ∧
      s' = { s with now := s.wakesAt, sender := .sending target rest round }) ∨
    (∃ target round, s.sender = .sending target [] round ∧ s' = { s with
      now := s.wakesAt
      requests := ⟨target, s.wakesAt⟩ :: s.requests
      sender := .starting (round + 1)
      wakesAt := s.wakesAt + scan.sendDelay + roundWait }) ∨
    ∃ target next rest round, s.sender = .sending target (next :: rest) round ∧ s' = { s with
      now := s.wakesAt
      requests := ⟨target, s.wakesAt⟩ :: s.requests
      sender := .sending next rest round
      wakesAt := s.wakesAt + scan.sendDelay } := by
  unfold send at h
  split at h
  · rename_i round hsender
    split at h
    · rename_i htargets
      exact .inl ⟨round, hsender, htargets, (Option.some.inj h).symm⟩
    · rename_i target rest htargets
      exact .inr (.inl ⟨round, target, rest, hsender, htargets, (Option.some.inj h).symm⟩)
  · rename_i target round hsender
    exact .inr (.inr (.inl ⟨target, round, hsender, (Option.some.inj h).symm⟩))
  · rename_i target next rest round hsender
    exact .inr (.inr (.inr ⟨target, next, rest, round, hsender, (Option.some.inj h).symm⟩))
  · exact nomatch h

def slot (scan : ArpScan) : ArpSender → ℕ
  | .starting round => round * scan.roundTime
  | .sending _ rest round =>
    round * scan.roundTime + (scan.targets.length - 1 - rest.length) * scan.sendDelay
  | .done => scan.totalRounds * scan.roundTime

def Within (scan : ArpScan) : ArpSender → Prop
  | .starting round => round ≤ scan.totalRounds
  | .sending _ rest round => round < scan.totalRounds ∧ rest.length < scan.targets.length
  | .done => True

structure OnSchedule (scan : ArpScan) (s : ArpState) : Prop where
  within : scan.Within s.sender
  le : s.wakesAt ≤ scan.slot s.sender
  eq : s.foundIps = [] → s.sender ≠ .done → s.wakesAt = scan.slot s.sender
  requests : ∀ request ∈ s.requests, (scan.totalRounds ≠ 0 ∧ scan.targets ≠ []) ∧
    request.time ≤ scan.lastSend

theorem slot_sending_le
    (h : scan.Within (.sending target rest round)) :
    scan.slot (.sending target rest round) ≤ scan.lastSend := by
  have hround := Nat.mul_le_mul_right scan.roundTime (Nat.le_sub_one_of_lt h.1)
  have hrest := Nat.mul_le_mul_right scan.sendDelay
    (Nat.sub_le (scan.targets.length - 1) rest.length)
  exact Nat.add_le_add hround hrest

theorem Within.nonempty
    (h : scan.Within (.sending target rest round)) :
    scan.totalRounds ≠ 0 ∧ scan.targets ≠ [] :=
  ⟨Nat.ne_zero_of_lt h.1, List.ne_nil_of_length_pos (Nat.zero_lt_of_lt h.2)⟩

theorem slot_sending_nil
    (h : scan.Within (.sending target [] round)) :
    scan.slot (.sending target [] round) + scan.sendDelay + roundWait =
      scan.slot (.starting (round + 1)) := by
  have hpos : scan.targets.length - 1 + 1 = scan.targets.length := Nat.sub_add_cancel h.2
  have hall : (scan.targets.length - 1) * scan.sendDelay + scan.sendDelay =
      scan.targets.length * scan.sendDelay := by
    rw [← Nat.succ_mul, Nat.succ_eq_add_one, hpos]
  have hround : (round + 1) * scan.roundTime =
      round * scan.roundTime + (scan.targets.length * scan.sendDelay + roundWait) :=
    Nat.succ_mul _ _
  dsimp only [slot]
  rw [hround, List.length_nil, Nat.sub_zero]
  omega

theorem slot_sending_cons {next : BitVec 32}
    (h : scan.Within (.sending target (next :: rest) round)) :
    scan.slot (.sending target (next :: rest) round) + scan.sendDelay =
      scan.slot (.sending next rest round) := by
  have hlength : rest.length + 1 < scan.targets.length := h.2
  have hnext : scan.targets.length - 1 - (rest.length + 1) + 1 =
      scan.targets.length - 1 - rest.length := by omega
  dsimp only [slot]
  rw [List.length_cons, ← hnext, Nat.succ_mul, Nat.add_assoc]

theorem length_roundTargets {foundIps : List (BitVec 32)}
    (h : scan.roundTargets foundIps round = target :: rest) :
    round < scan.totalRounds ∧ rest.length < scan.targets.length ∧
      (foundIps = [] → rest.length = scan.targets.length - 1) := by
  unfold roundTargets at h
  split_ifs at h with hround
  have hle := List.length_filter_le (fun ip => decide (ip ∉ foundIps)) scan.targets
  rw [h, List.length_cons] at hle
  refine ⟨hround, hle, fun hfound => ?_⟩
  have hall : scan.targets.filter (fun ip => decide (ip ∉ foundIps)) = scan.targets := by
    rw [hfound]
    exact List.filter_eq_self.mpr fun ip _ => decide_eq_true List.not_mem_nil
  rw [← hall, h, List.length_cons, Nat.add_sub_cancel]

theorem OnSchedule.send (hs : scan.OnSchedule s) (h : scan.send s = some s') :
    scan.OnSchedule s' := by
  have hwithin := hs.within
  have hle := hs.le
  have heq := hs.eq
  obtain ⟨round, hsender, -, rfl⟩ | ⟨round, target, rest, hsender, htargets, rfl⟩ |
    ⟨target, round, hsender, rfl⟩ | ⟨target, next, rest, round, hsender, rfl⟩ := send_cases h <;>
    rw [hsender] at hwithin hle heq
  · have hend := Nat.mul_le_mul_right scan.roundTime hwithin
    exact ⟨trivial, hle.trans hend, fun _ h => absurd rfl h, hs.requests⟩
  · obtain ⟨hround, hrest, hall⟩ := length_roundTargets htargets
    refine ⟨⟨hround, hrest⟩, hle.trans (Nat.le_add_right _ _), fun hfound _ => ?_, hs.requests⟩
    have hstart : s.wakesAt = round * scan.roundTime := heq hfound (fun h => nomatch h)
    show s.wakesAt = round * scan.roundTime + _
    rw [hall hfound, Nat.sub_self, zero_mul, add_zero, hstart]
  · have hnext := slot_sending_nil hwithin
    refine ⟨hwithin.1, ?_, fun hfound _ => ?_, ?_⟩
    · dsimp only
      omega
    · have hstart := heq hfound (fun h => nomatch h)
      dsimp only
      omega
    · intro request hrequest
      rcases List.mem_cons.mp hrequest with rfl | hrequest
      · exact ⟨hwithin.nonempty, hle.trans (slot_sending_le hwithin)⟩
      · exact hs.requests _ hrequest
  · have hnext := slot_sending_cons hwithin
    refine ⟨⟨hwithin.1, Nat.lt_of_succ_lt hwithin.2⟩, ?_, fun hfound _ => ?_, ?_⟩
    · dsimp only
      omega
    · have hstart := heq hfound (fun h => nomatch h)
      dsimp only
      omega
    · intro request hrequest
      rcases List.mem_cons.mp hrequest with rfl | hrequest
      · exact ⟨hwithin.nonempty, hle.trans (slot_sending_le hwithin)⟩
      · exact hs.requests _ hrequest

structure Forwarded (s : ArpState) (time : ℕ) : Prop where
  nodup : (s.reported.map (·.ip)).Nodup
  found : ∀ ip ∈ s.reported.map (·.ip), ip ∈ s.foundIps
  reported : ∀ ip ∈ s.foundIps, ip ∈ s.reported.map (·.ip) ∨ forwarderTimeout ≤ time

theorem Forwarded.mono (hs : Forwarded s time) (hle : time ≤ t) : Forwarded s t :=
  ⟨hs.nodup, hs.found, fun ip hip => (hs.reported ip hip).imp_right hle.trans'⟩

theorem Forwarded.process (hs : Forwarded s t) (htime : time ≤ t) (scan : ArpScan)
    (packet : ArpPacket) : Forwarded (scan.process packet time s) t := by
  unfold ArpScan.process
  split
  · rename_i ip mac
    split_ifs with hnew hbefore
    · have hfresh : ip ∉ s.reported.map (·.ip) := fun hip => hnew.2 (hs.found ip hip)
      refine ⟨?_, ?_, ?_⟩
      · simpa [List.nodup_append, hs.nodup] using hfresh
      · intro ip' hip'
        rw [List.map_append, List.mem_append] at hip'
        rcases hip' with hip' | hip'
        · exact List.mem_cons_of_mem _ (hs.found ip' hip')
        · rw [List.mem_singleton.mp hip']
          exact List.mem_cons_self
      · intro ip' hip'
        rw [List.map_append, List.mem_append]
        rcases List.mem_cons.mp hip' with rfl | hip'
        · exact .inl (.inr (List.mem_singleton.mpr rfl))
        · exact (hs.reported ip' hip').imp_left .inl
    · refine ⟨hs.nodup, fun ip' hip' => List.mem_cons_of_mem _ (hs.found ip' hip'), ?_⟩
      exact fun _ _ => .inr ((Nat.le_of_not_lt hbefore).trans htime)
    · exact hs
  · exact hs

theorem mem_foundIps_process {ip : BitVec 32} (hip : ip ∈ scan.targets) (mac : MacAddress) :
    ip ∈ (scan.process (.reply ip mac) time s).foundIps := by
  unfold process
  dsimp only
  by_cases hfound : ip ∈ s.foundIps
  · rw [if_neg fun hnew => hnew.2 hfound]
    exact hfound
  · rw [if_pos ⟨hip, hfound⟩]
    exact List.mem_cons_self

theorem reported_subset_process (scan : ArpScan) (packet : ArpPacket) (time : ℕ) (s : ArpState) :
    s.reported ⊆ (scan.process packet time s).reported := by
  unfold process
  split
  · split_ifs
    · exact List.subset_append_left _ _
    · exact List.Subset.refl _
    · exact List.Subset.refl _
  · exact List.Subset.refl _

def Heard (scan : ArpScan) (s : ArpState) : Prop :=
  ∀ reply ∈ s.replies, reply.ip ∈ scan.targets → reply.ip ∈ s.reported.map (·.ip) ∨
    forwarderTimeout ≤ reply.time + idleSleep ∨
    ∃ deadline, s.receiver = .final deadline ∧ deadline ≤ reply.time + idleSleep

def EndsLate (s : ArpState) : Prop :=
  ∀ deadline, s.receiver = .final deadline →
    maxReceiverLifetime + postScanReceive ≤ deadline ∨ s.sender = .done ∧
      ∀ request ∈ s.requests, request.time + roundWait + postScanReceive ≤ deadline

def Settled (s : ArpState) : Prop :=
  ∀ request ∈ s.requests, match s.sender with
    | .starting _ => request.time + roundWait ≤ s.wakesAt
    | .sending .. => request.time ≤ s.wakesAt
    | .done => request.time + roundWait ≤ s.now

structure Listening (scan : ArpScan) (s : ArpState) : Prop where
  polledAt : s.polledAt ≤ s.now + idleSleep
  forwarded : Forwarded s (s.now + idleSleep)
  heard : scan.Heard s
  endsLate : EndsLate s

theorem Settled.send (hs : Settled s) (h : scan.send s = some s') : Settled s' := by
  obtain ⟨round, hsender, -, rfl⟩ | ⟨round, target, rest, hsender, -, rfl⟩ |
    ⟨target, round, hsender, rfl⟩ | ⟨target, next, rest, round, hsender, rfl⟩ := send_cases h <;>
    simp only [Settled, hsender] at hs ⊢
  · exact hs
  · exact fun request hrequest => (Nat.le_add_right _ _).trans (hs request hrequest)
  · intro request hrequest
    have hbefore : request.time ≤ s.wakesAt := by
      rcases List.mem_cons.mp hrequest with rfl | hrequest
      · exact le_rfl
      · exact hs request hrequest
    omega
  · intro request hrequest
    rcases List.mem_cons.mp hrequest with rfl | hrequest
    · exact Nat.le_add_right _ _
    · exact (hs request hrequest).trans (Nat.le_add_right _ _)

theorem Settled.listens (hs : Settled s) (h : Listens s s' time) (hpass : mayPass s time) :
    Settled s' := by
  intro request hrequest
  rw [h.requests] at hrequest
  have hbefore := hs request hrequest
  rw [h.sender, h.wakesAt, h.now]
  split at hbefore
  · exact hbefore
  · exact hbefore
  · exact hbefore.trans hpass.1

theorem Listening.send (hs : scan.Listening s) (hnow : s.sender ≠ .done → s.now ≤ s.wakesAt)
    (h : scan.send s = some s') : scan.Listening s' := by
  have hlate := hs.endsLate
  obtain ⟨round, hsender, -, rfl⟩ | ⟨round, target, rest, hsender, -, rfl⟩ |
    ⟨target, round, hsender, rfl⟩ | ⟨target, next, rest, round, hsender, rfl⟩ := send_cases h <;>
  · have hle := hnow (by rw [hsender]; exact fun h => nomatch h)
    have hidle := Nat.add_le_add_right hle idleSleep
    refine ⟨hs.polledAt.trans hidle, ⟨hs.forwarded.nodup, hs.forwarded.found, ?_⟩, hs.heard, ?_⟩
    · exact (hs.forwarded.mono hidle).reported
    · intro deadline hdeadline
      refine .inl ((hlate deadline hdeadline).resolve_right fun hdone => ?_)
      rw [hsender] at hdone
      exact nomatch hdone.1

theorem listening_checkStop (hs : scan.Listening s) (hnow : s.now = time)
    (hreceiver : s.receiver = .receiving) (hsettled : Settled s) :
    scan.Listening (checkStop time s) := by
  unfold checkStop
  split_ifs with hstop
  · refine ⟨hs.polledAt, ⟨hs.forwarded.nodup, hs.forwarded.found, hs.forwarded.reported⟩, ?_, ?_⟩
    · intro reply hreply hip
      refine (hs.heard reply hreply hip).imp_right fun h => h.imp_right ?_
      rintro ⟨deadline, hfinal, -⟩
      rw [hreceiver] at hfinal
      exact nomatch hfinal
    · intro deadline hdeadline
      rw [← ArpReceiver.final.inj hdeadline]
      rcases hstop with hdone | hlifetime
      · refine .inr ⟨hdone, fun request hrequest => ?_⟩
        have hwaited := hsettled request hrequest
        rw [hdone] at hwaited
        exact Nat.add_le_add_right (hnow ▸ hwaited) _
      · exact .inl (Nat.add_le_add_right hlifetime _)
  · exact hs

theorem mem_replies_arrive {reply : ArpMessage} (h : reply ∈ (arrive packet time s).replies) :
    reply ∈ s.replies ∨ reply.time = time ∧ ∃ mac, packet = .reply reply.ip mac := by
  cases packet with
  | reply ip mac =>
    rcases List.mem_cons.mp h with rfl | h
    · exact .inr ⟨rfl, mac, rfl⟩
    · exact .inl h
  | own => exact .inl h
  | other => exact .inl h

theorem listening_process (hs : scan.Listening s) (packet : ArpPacket)
    (hpass : s.now ≤ time) (ht : t ≤ time + idleSleep) :
    scan.Listening { scan.process packet t (arrive packet time s) with polledAt := t } := by
  have hforwarded : Forwarded (scan.process packet t (arrive packet time s))
      (time + idleSleep) := by
    refine Forwarded.process ?_ ht scan packet
    rw [arrive_eq]
    have hbefore := hs.forwarded.mono (Nat.add_le_add_right hpass idleSleep)
    exact ⟨hbefore.nodup, hbefore.found, hbefore.reported⟩
  have hreported : s.reported.map (·.ip) ⊆
      (scan.process packet t (arrive packet time s)).reported.map (·.ip) := by
    have harrive : (arrive packet time s).reported = s.reported := by rw [arrive_eq]
    exact List.map_subset _ (harrive ▸ reported_subset_process _ _ _ _)
  have hstate : { scan.process packet t (arrive packet time s) with polledAt := t } = { s with
      now := time
      replies := (arrive packet time s).replies
      polledAt := t
      foundIps := (scan.process packet t (arrive packet time s)).foundIps
      reported := (scan.process packet t (arrive packet time s)).reported } := by
    rw [process_eq, arrive_eq]
  refine ⟨?_, ?_, ?_, ?_⟩
  · rw [hstate]
    exact ht
  · rw [hstate]
    exact ⟨hforwarded.nodup, hforwarded.found, hforwarded.reported⟩
  · rw [hstate]
    intro reply hreply hip
    rcases mem_replies_arrive hreply with hold | ⟨htime, mac, rfl⟩
    · exact (hs.heard reply hold hip).imp_left fun h => hreported h
    · have hfound := hforwarded.reported _ (mem_foundIps_process hip mac)
      rw [← htime] at hfound ⊢
      exact hfound.imp_right .inl
  · rw [hstate]
    exact hs.endsLate

theorem listening_pass (hs : scan.Listening s) (hpass : s.now ≤ time)
    (ht : t ≤ time + idleSleep) : scan.Listening { s with now := time, polledAt := t } := by
  have hforwarded := hs.forwarded.mono (Nat.add_le_add_right hpass idleSleep)
  exact ⟨ht, ⟨hforwarded.nodup, hforwarded.found, hforwarded.reported⟩, hs.heard, hs.endsLate⟩

theorem Listening.onPacket (hs : scan.Listening s) (hsettled : Settled s)
    (hpass : mayPass s time) : scan.Listening (scan.onPacket packet time s) := by
  have hpolled := hs.polledAt.trans (Nat.add_le_add_right hpass.1 idleSleep)
  unfold ArpScan.onPacket
  split
  · rename_i hreceiver
    have hlooked := listening_process hs packet hpass.1 (Nat.le_add_right time idleSleep)
    have hkept := listens_process scan s packet time time time
    dsimp only
    split_ifs
    · exact hlooked
    · refine listening_checkStop hlooked hkept.now ?_ (hsettled.listens hkept hpass)
      rw [process_eq, arrive_eq]
      exact hreceiver
  · rename_i deadline hreceiver
    split_ifs with hbefore
    · exact listening_process hs packet hpass.1 (max_le hpolled (Nat.le_add_right _ _))
    · have hforwarded := hs.forwarded.mono (Nat.add_le_add_right hpass.1 idleSleep)
      rw [arrive_eq]
      refine ⟨hpolled, ⟨hforwarded.nodup, hforwarded.found, hforwarded.reported⟩, ?_, hs.endsLate⟩
      intro reply hreply hip
      rcases mem_replies_arrive hreply with hold | ⟨htime, -⟩
      · exact hs.heard reply hold hip
      · rw [htime]
        exact .inr (.inr ⟨deadline, hreceiver, (Nat.le_of_not_lt hbefore).trans hpolled⟩)

theorem Listening.onTimeout (hs : scan.Listening s) (hsettled : Settled s)
    (hpass : mayPass s time) : scan.Listening (onTimeout time s) := by
  unfold ArpScan.onTimeout
  split
  · rename_i hreceiver
    refine listening_checkStop (listening_pass hs hpass.1 (Nat.le_add_right _ _)) rfl hreceiver ?_
    exact hsettled.listens (listens_pass s time time) hpass
  · split_ifs
    · exact listening_pass hs hpass.1 le_rfl
    · exact listening_pass hs hpass.1
        (hs.polledAt.trans (Nat.add_le_add_right hpass.1 idleSleep))

structure Inv (scan : ArpScan) (s : ArpState) : Prop where
  now_le : s.sender ≠ .done → s.now ≤ s.wakesAt
  onSchedule : scan.OnSchedule s
  settled : Settled s
  listening : scan.Listening s

theorem OnSchedule.listens (hs : scan.OnSchedule s) (h : Listens s s' time) :
    scan.OnSchedule s' := by
  refine ⟨?_, ?_, ?_, ?_⟩
  · rw [h.sender]
    exact hs.within
  · rw [h.sender, h.wakesAt]
    exact hs.le
  · intro hfound hdone
    rw [h.sender] at hdone ⊢
    rw [h.wakesAt]
    exact hs.eq (List.subset_nil.mp (hfound ▸ h.foundIps)) hdone
  · rw [h.requests]
    exact hs.requests

theorem Inv.listens (hs : scan.Inv s) (h : Listens s s' time) (hpass : mayPass s time)
    (hlistening : scan.Listening s') : scan.Inv s' := by
  refine ⟨fun hdone => ?_, hs.onSchedule.listens h, hs.settled.listens h hpass, hlistening⟩
  rw [h.sender] at hdone
  rw [h.now, h.wakesAt]
  exact hpass.2.resolve_left hdone

theorem Inv.send (hs : scan.Inv s) (h : scan.send s = some s') : scan.Inv s' := by
  refine ⟨?_, hs.onSchedule.send h, hs.settled.send h, hs.listening.send hs.now_le h⟩
  obtain ⟨round, -, -, rfl⟩ | ⟨round, target, rest, -, -, rfl⟩ | ⟨target, round, -, rfl⟩ |
    ⟨target, next, rest, round, -, rfl⟩ := send_cases h
  · exact fun hdone => absurd rfl hdone
  · exact fun _ => le_rfl
  · exact fun _ => (Nat.le_add_right _ _).trans (Nat.le_add_right _ _)
  · exact fun _ => Nat.le_add_right _ _

theorem inv_init (scan : ArpScan) : scan.Inv scan.lts.init := by
  refine ⟨fun _ => le_rfl, ⟨Nat.zero_le _, Nat.zero_le _, fun _ _ => (zero_mul _).symm, ?_⟩, ?_,
    ⟨Nat.zero_le _, ⟨List.nodup_nil, ?_, ?_⟩, ?_, fun _ h => nomatch h⟩⟩ <;>
  exact fun _ h => absurd h List.not_mem_nil

theorem Inv.step (hs : scan.Inv s) (h : scan.step s event = some s') :
    scan.Inv s' := by
  obtain hsend | ⟨packet, time, hpass, rfl⟩ | ⟨time, hpass, -, rfl⟩ := step_cases h
  · exact hs.send hsend
  · exact hs.listens (listens_onPacket scan s packet time) hpass
      (hs.listening.onPacket hs.settled hpass)
  · exact hs.listens (listens_onTimeout s time) hpass (hs.listening.onTimeout hs.settled hpass)

theorem inv_of_reachable (hs : scan.lts.Reachable s) : scan.Inv s := by
  refine hs.invariant (inv_init scan) ?_
  intro s event s' _ hs _ h
  exact hs.step h

theorem Inv.allReported (hs : scan.Inv s)
    (hshort : scan.totalRounds ≠ 0 → scan.targets ≠ [] →
      scan.lastSend + idleSleep < maxReceiverLifetime) :
    scan.AllReported s := by
  refine ⟨?_, hs.listening.forwarded.nodup⟩
  intro reply hreply hip _ hlast
  obtain ⟨request, hrequest, hlast⟩ := hlast
  obtain ⟨hnonempty, hsent⟩ := hs.onSchedule.requests request hrequest
  have hbound := hshort hnonempty.1 hnonempty.2
  obtain hreported | hlate | ⟨deadline, hfinal, hdeadline⟩ := hs.listening.heard reply hreply hip
  · exact hreported
  · unfold forwarderTimeout at hlate
    unfold postScanReceive at hlast
    unfold maxReceiverLifetime at hbound
    omega
  · exfalso
    rcases hs.listening.endsLate deadline hfinal with hlifetime | ⟨-, hwaited⟩
    · omega
    · have hrequest := hwaited request hrequest
      unfold roundWait at hrequest
      unfold idleSleep at hdeadline
      omega

end Scanopy.ArpScan
