import Scanopy.Discovery.Types
import Scanopy.Lib.HashMap
import Scanopy.Lib.Lts

/-! The end of a session in the poll protocol. The daemon holds its last terminal update for the
next poll, and drops it when the poll is answered, whether or not the answer arrives. -/

namespace Scanopy

open List Option

structure DiscoverySessionInfo where
  sessionId : Uuid
  networkId : Uuid
  daemonId : Uuid
  startedAt : Option Timestamp
  discoveryType : DiscoveryType
  discoveryId : Uuid
  deriving DecidableEq

structure DiscoverySession where
  info : DiscoverySessionInfo
  lastProgress : UInt8 := 0
  hostsDiscovered : UInt32 := 0
  estimatedRemainingSecs : UInt32 := .ofNat (2 ^ 32 - 1)
  deriving DecidableEq

structure DiscoverySessionUpdate where
  phase : DiscoveryPhase
  progress : UInt8
  error : Option String
  warnings : List String
  finishedAt : Option Timestamp
  deriving DecidableEq

def DiscoveryUpdatePayload.fromStateAndUpdate (discoveryType : DiscoveryType)
    (info : DiscoverySessionInfo) (update : DiscoverySessionUpdate) : DiscoveryUpdatePayload where
  sessionId := info.sessionId
  daemonId := info.daemonId
  networkId := info.networkId
  phase := update.phase
  discoveryType := discoveryType
  progress := update.progress
  error := update.error
  warnings := update.warnings
  startedAt := info.startedAt
  finishedAt := update.finishedAt
  discoveryId := some info.discoveryId

inductive DiscoveryResult
  | ok
  | err (error : String) (cancelled : Bool)
  deriving DecidableEq

namespace DiscoverySession

def progressPayload (s : DiscoverySession) : DiscoveryUpdatePayload where
  sessionId := s.info.sessionId
  daemonId := s.info.daemonId
  networkId := s.info.networkId
  phase := .scanning
  discoveryType := s.info.discoveryType
  progress := s.lastProgress
  startedAt := s.info.startedAt
  hostsDiscovered := if 0 < s.hostsDiscovered then some s.hostsDiscovered else none
  estimatedRemainingSecs :=
    if s.estimatedRemainingSecs ≠ .ofNat (2 ^ 32 - 1) then some s.estimatedRemainingSecs else none
  discoveryId := some s.info.discoveryId

def terminalUpdate (s : DiscoverySession) (warnings : List String) (now : Timestamp) :
    DiscoveryResult → DiscoverySessionUpdate
  | .ok => ⟨.complete, 100, none, warnings, some now⟩
  | .err _ true => ⟨.cancelled, s.lastProgress, none, warnings, some now⟩
  | .err error false => ⟨.failed, s.lastProgress, some error, warnings, some now⟩

def terminalPayload (s : DiscoverySession) (discoveryType : DiscoveryType)
    (warnings : List String) (now : Timestamp) (result : DiscoveryResult) :
    DiscoveryUpdatePayload :=
  .fromStateAndUpdate discoveryType s.info (s.terminalUpdate warnings now result)

theorem isTerminal_terminalPayload (s : DiscoverySession) (discoveryType : DiscoveryType)
    (warnings : List String) (now : Timestamp) (result : DiscoveryResult) :
    (s.terminalPayload discoveryType warnings now result).phase.isTerminal = true := by
  match result with
  | .ok | .err _ true | .err _ false => rfl

end DiscoverySession

/-- A poll that the daemon answers: it found no session, it knows what to answer, or its answer is
on the way to the server. -/
inductive Exchange
  | noSession
  | read (progress : Option DiscoveryUpdatePayload)
  | responded (progress : Option DiscoveryUpdatePayload)
  deriving DecidableEq

structure PollState where
  currentSession : Option DiscoverySession
  terminalPayload : Option DiscoveryUpdatePayload
  exchanges : HashMap ℕ Exchange

/-- The sections of the calls, and what becomes of an answer. -/
inductive PollOp
  /-- `initialize_session` drops the payload of the session before. -/
  | startClear
  | startSet (session : DiscoverySession)
  | advance (progress : UInt8) (hosts remaining : UInt32)
  /-- `finish_session` stores the terminal payload. -/
  | endStore (discoveryType : DiscoveryType) (warnings : List String) (now : Timestamp)
      (result : DiscoveryResult)
  | endClear (sessionId : Uuid)
  /-- `get_progress` reads the session. -/
  | pollSession (i : ℕ)
  /-- `get_progress` reads the terminal payload. -/
  | pollTerminal (i : ℕ)
  /-- The poll handler clears the terminal payload if it serves one, and answers. -/
  | pollClear (i : ℕ)
  /-- The answer arrives and the server processes its progress. -/
  | deliver (i : ℕ)
  /-- The answer arrives and the server fails to process its progress. -/
  | reject (i : ℕ)
  /-- The connection is lost. -/
  | lose (i : ℕ)

namespace PollState

def setExchange (s : PollState) (i : ℕ) (e : Exchange) : PollState :=
  { s with exchanges := s.exchanges.insert i e }

def dropExchange (s : PollState) (i : ℕ) : PollState :=
  { s with exchanges := s.exchanges.remove i }

def ending (s : PollState) (discoveryType : DiscoveryType) (warnings : List String)
    (now : Timestamp) (result : DiscoveryResult) : Option DiscoveryUpdatePayload :=
  s.currentSession.map fun session => session.terminalPayload discoveryType warnings now result

def clearsTerminal (progress : Option DiscoveryUpdatePayload) : Bool :=
  progress.any (·.phase.isTerminal)

def step (s : PollState) : PollOp → Option PollState
  | .startClear => some { s with terminalPayload := none }
  | .startSet session => some { s with currentSession := some session }
  | .advance progress hosts remaining => some { s with
      currentSession := s.currentSession.map fun session => { session with
        lastProgress := progress, hostsDiscovered := hosts, estimatedRemainingSecs := remaining } }
  | .endStore discoveryType warnings now result =>
    (s.ending discoveryType warnings now result).map fun p =>
      { s with terminalPayload := some p }
  | .endClear sessionId => some { s with
      currentSession := s.currentSession.filter (·.info.sessionId ≠ sessionId) }
  | .pollSession i =>
    match s.exchanges.get i, s.currentSession with
    | none, some session => some (s.setExchange i (.read (some session.progressPayload)))
    | none, none => some (s.setExchange i .noSession)
    | some _, _ => none
  | .pollTerminal i =>
    match s.exchanges.get i with
    | some .noSession => some (s.setExchange i (.read s.terminalPayload))
    | _ => none
  | .pollClear i =>
    match s.exchanges.get i with
    | some (.read progress) =>
      let s := if clearsTerminal progress then { s with terminalPayload := none } else s
      some (s.setExchange i (.responded progress))
    | _ => none
  | .deliver i | .reject i =>
    match s.exchanges.get i with
    | some (.responded _) => some (s.dropExchange i)
    | _ => none
  | .lose i =>
    match s.exchanges.get i with
    | some _ => some (s.dropExchange i)
    | none => none

end PollState

structure PollHistory where
  ended : List DiscoveryUpdatePayload
  processed : List DiscoveryUpdatePayload

def PollHistory.record (s : PollState) (op : PollOp) (_ : PollState) (h : PollHistory) :
    PollHistory :=
  match op with
  | .endStore discoveryType warnings now result =>
    { h with ended := (s.ending discoveryType warnings now result).toList ++ h.ended }
  | .deliver i =>
    match s.exchanges.get i with
    | some (.responded progress) => { h with processed := progress.toList ++ h.processed }
    | _ => h
  | _ => h

def pollProtocol : Lts (PollState × PollHistory) PollOp :=
  Lts.withHistory ⟨⟨none, none, HashMap.empty⟩, PollState.step⟩ ⟨[], []⟩ PollHistory.record

def PollState.InTransit (s : PollState) (p : DiscoveryUpdatePayload) : Prop :=
  ∃ i, s.exchanges.get i = some (.responded (some p))

def EndKept (t : PollState × PollHistory) : Prop :=
  ∀ p ∈ t.2.ended, ¬t.1.InTransit p → p ∈ t.2.processed ∨ t.1.terminalPayload = some p

def KeepsEnd (t : PollState × PollHistory) : PollOp → Prop
  | .startClear | .endStore .. => t.1.terminalPayload = none
  | .pollClear i => ∀ progress, t.1.exchanges.get i = some (.read progress) →
      PollState.clearsTerminal progress = true →
      t.1.terminalPayload = none ∨ t.1.terminalPayload = progress
  | .reject i | .lose i => ∀ progress, t.1.exchanges.get i = some (.responded progress) →
      PollState.clearsTerminal progress = false
  | _ => True

structure EndTraced (t : PollState × PollHistory) : Prop where
  terminal : ∀ p ∈ t.2.ended, p.phase.isTerminal = true
  traced : ∀ p ∈ t.2.ended,
    p ∈ t.2.processed ∨ t.1.terminalPayload = some p ∨ t.1.InTransit p

namespace EndTraced
variable {s s' : PollState} {h : PollHistory} {p : DiscoveryUpdatePayload} {i : ℕ} {e : Exchange}
variable {progress : Option DiscoveryUpdatePayload}

theorem endKept {t : PollState × PollHistory} (ht : EndTraced t) : EndKept t := by
  intro p hp htransit
  obtain hprocessed | hheld | hcarried := ht.traced p hp
  · exact .inl hprocessed
  · exact .inr hheld
  · exact absurd hcarried htransit

theorem inTransit_setExchange (hp : s.InTransit p)
    (hi : ∀ progress, s.exchanges.get i ≠ some (.responded progress)) :
    (s.setExchange i e).InTransit p := by
  obtain ⟨j, hj⟩ := hp
  have hne : j ≠ i := by
    rintro rfl
    exact hi _ hj
  refine ⟨j, ?_⟩
  rw [PollState.setExchange, HashMap.get_insert, if_neg hne]
  exact hj

theorem inTransit_dropExchange (hp : s.InTransit p)
    (hi : s.exchanges.get i ≠ some (.responded (some p))) : (s.dropExchange i).InTransit p := by
  obtain ⟨j, hj⟩ := hp
  have hne : j ≠ i := by
    rintro rfl
    exact hi hj
  refine ⟨j, ?_⟩
  rw [PollState.dropExchange, HashMap.get_remove, if_neg hne]
  exact hj

theorem of_frame (ht : EndTraced (s, h)) (hheld : s'.terminalPayload = s.terminalPayload)
    (htransit : ∀ p ∈ h.ended, s.InTransit p → s'.InTransit p) : EndTraced (s', h) := by
  refine ⟨ht.terminal, fun p hp => ?_⟩
  obtain hprocessed | hp' | hcarried := ht.traced p hp
  · exact .inl hprocessed
  · exact .inr (.inl (hheld.trans hp'))
  · exact .inr (.inr (htransit p hp hcarried))

theorem setExchange (ht : EndTraced (s, h))
    (hi : ∀ progress, s.exchanges.get i ≠ some (.responded progress)) :
    EndTraced (s.setExchange i e, h) :=
  ht.of_frame rfl fun _ _ hcarried => inTransit_setExchange hcarried hi

theorem of_terminalPayload_eq_none (ht : EndTraced (s, h)) (hnone : s.terminalPayload = none)
    (held : Option DiscoveryUpdatePayload) :
    EndTraced ({ s with terminalPayload := held }, h) := by
  refine ⟨ht.terminal, fun p hp => ?_⟩
  obtain hprocessed | hheld | hcarried := ht.traced p hp
  · exact .inl hprocessed
  · rw [hnone] at hheld
    exact absurd hheld nofun
  · exact .inr (.inr hcarried)

theorem endStore (ht : EndTraced (s, h)) (hnone : s.terminalPayload = none)
    (hp : p.phase.isTerminal = true) :
    EndTraced ({ s with terminalPayload := some p }, { h with ended := p :: h.ended }) := by
  have hframe := ht.of_terminalPayload_eq_none hnone (some p)
  refine ⟨fun q hq => ?_, fun q hq => ?_⟩
  · obtain rfl | hq := mem_cons.mp hq
    · exact hp
    · exact ht.terminal q hq
  · obtain rfl | hq := mem_cons.mp hq
    · exact .inr (.inl rfl)
    · exact hframe.traced q hq

theorem pollClear (ht : EndTraced (s, h))
    (hread : s.exchanges.get i = some (.read progress))
    (hok : PollState.clearsTerminal progress = true →
      s.terminalPayload = none ∨ s.terminalPayload = progress) :
    EndTraced ((if PollState.clearsTerminal progress then { s with terminalPayload := none }
      else s).setExchange i (.responded progress), h) := by
  have hother : ∀ answer, s.exchanges.get i ≠ some (.responded answer) := by
    intro answer hanswer
    rw [hread] at hanswer
    exact absurd hanswer nofun
  split_ifs with hclears
  · refine ⟨ht.terminal, fun p hp => ?_⟩
    obtain hprocessed | hheld | hcarried := ht.traced p hp
    · exact .inl hprocessed
    · -- what the handler clears is what it answers with
      obtain hnone | hserved := hok hclears
      · rw [hnone] at hheld
        exact absurd hheld nofun
      · refine .inr (.inr ⟨i, ?_⟩)
        rw [PollState.setExchange, HashMap.get_insert_self, ← hserved, hheld]
    · exact .inr (.inr (inTransit_setExchange (s := { s with terminalPayload := none })
        hcarried hother))
  · exact ht.setExchange hother

theorem deliver (ht : EndTraced (s, h))
    (hresponded : s.exchanges.get i = some (.responded progress)) :
    EndTraced (s.dropExchange i, { h with processed := progress.toList ++ h.processed }) := by
  refine ⟨ht.terminal, fun p hp => ?_⟩
  obtain hprocessed | hheld | hcarried := ht.traced p hp
  · exact .inl (mem_append_right _ hprocessed)
  · exact .inr (.inl hheld)
  · by_cases hthis : progress = some p
    · exact .inl (mem_append_left _ (by rw [hthis]; exact mem_singleton.mpr rfl))
    · refine .inr (.inr (inTransit_dropExchange hcarried ?_))
      rw [hresponded]
      exact fun heq => hthis (by cases heq; rfl)

theorem dropExchange (ht : EndTraced (s, h))
    (hok : ∀ progress, s.exchanges.get i = some (.responded progress) →
      PollState.clearsTerminal progress = false) : EndTraced (s.dropExchange i, h) := by
  refine ht.of_frame rfl fun p hp hcarried => inTransit_dropExchange hcarried fun hi => ?_
  have hnonterminal : p.phase.isTerminal = false := hok (some p) hi
  rw [ht.terminal p hp] at hnonterminal
  exact Bool.false_ne_true hnonterminal.symm

theorem step {op : PollOp} (ht : EndTraced (s, h)) (hok : KeepsEnd (s, h) op)
    (hstep : s.step op = some s') : EndTraced (s', PollHistory.record s op s' h) := by
  cases op with
  | startClear =>
    cases hstep
    exact ht.of_terminalPayload_eq_none hok none
  | startSet session =>
    cases hstep
    exact ht.of_frame rfl fun _ _ => id
  | advance progress hosts remaining =>
    cases hstep
    exact ht.of_frame rfl fun _ _ => id
  | endStore discoveryType warnings now result =>
    obtain ⟨p, hp, rfl⟩ := map_eq_some_iff.mp hstep
    obtain ⟨session, -, hsession⟩ := map_eq_some_iff.mp hp
    have hterminal : p.phase.isTerminal = true := by
      rw [← hsession]
      exact session.isTerminal_terminalPayload discoveryType warnings now result
    have hrecord : PollHistory.record s (.endStore discoveryType warnings now result)
        { s with terminalPayload := some p } h = { h with ended := p :: h.ended } := by
      rw [PollHistory.record, hp]
      rfl
    rw [hrecord]
    exact ht.endStore hok hterminal
  | endClear sessionId =>
    cases hstep
    exact ht.of_frame rfl fun _ _ => id
  | pollSession i =>
    have hnew : ∃ e, s.exchanges.get i = none ∧ s' = s.setExchange i e := by
      rw [PollState.step] at hstep
      split at hstep
      · rename_i hi _
        exact ⟨_, hi, (some.inj hstep).symm⟩
      · rename_i hi _
        exact ⟨_, hi, (some.inj hstep).symm⟩
      · exact absurd hstep nofun
    obtain ⟨e, hi, rfl⟩ := hnew
    refine ht.setExchange fun progress hne => ?_
    rw [hi] at hne
    exact absurd hne nofun
  | pollTerminal i =>
    rw [PollState.step] at hstep
    split at hstep
    · rename_i hi
      cases hstep
      refine ht.setExchange fun progress hne => ?_
      rw [hi] at hne
      exact absurd hne nofun
    · exact absurd hstep nofun
  | pollClear i =>
    rw [PollState.step] at hstep
    split at hstep
    · rename_i progress hread
      cases hstep
      exact ht.pollClear hread (hok progress hread)
    · exact absurd hstep nofun
  | deliver i =>
    rw [PollState.step] at hstep
    split at hstep
    · rename_i progress hresponded
      cases hstep
      simp only [PollHistory.record, hresponded]
      exact ht.deliver hresponded
    · exact absurd hstep nofun
  | reject i =>
    rw [PollState.step] at hstep
    split at hstep
    · cases hstep
      exact ht.dropExchange hok
    · exact absurd hstep nofun
  | lose i =>
    rw [PollState.step] at hstep
    split at hstep
    · cases hstep
      exact ht.dropExchange hok
    · exact absurd hstep nofun

end EndTraced

/-- In every run of the protocol whose steps all meet the condition, the end of no session is
lost. -/
theorem endKept_of_keepsEnd {t : PollState × PollHistory}
    (ht : pollProtocol.ReachableVia KeepsEnd t) : EndKept t := by
  refine EndTraced.endKept (Lts.ReachableVia.invariant ?_ ?_ ht)
  · exact ⟨fun p hp => absurd hp not_mem_nil, fun p hp => absurd hp not_mem_nil⟩
  · rintro ⟨s, h⟩ op ⟨s', h'⟩ - hinv hok hstep
    obtain ⟨hstep, hhistory⟩ := Lts.step_withHistory hstep
    simp only at hstep hhistory
    rw [hhistory]
    exact hinv.step hok hstep

section Runs

private def nightlySession : DiscoverySession where
  info := ⟨10, 3, 2, some 0, .unified 4 none {}, 1⟩

private def polledOps : List PollOp :=
  [.startClear, .startSet nightlySession, .endStore (.unified 4 none {}) [] 50 .ok, .endClear 10,
    .pollSession 0, .pollTerminal 0, .pollClear 0]

theorem endKept_of_keepsEnd_nightly :
    ∃ t, pollProtocol.run pollProtocol.init (polledOps ++ [.deliver 0]) = some t ∧
      t.2.ended.length = 1 ∧ EndKept t := by
  obtain ⟨t, hrun⟩ : ∃ t, pollProtocol.run pollProtocol.init (polledOps ++ [.deliver 0]) = some t :=
    isSome_iff_exists.mp (by decide +kernel)
  have hguarded : pollProtocol.Guarded KeepsEnd pollProtocol.init (polledOps ++ [.deliver 0]) := by
    refine ⟨rfl, fun t₁ h₁ => ⟨trivial, fun t₂ h₂ => ?_⟩⟩
    cases h₁
    cases h₂
    refine ⟨rfl, fun t₃ h₃ => ⟨trivial, fun t₄ h₄ => ⟨trivial, fun t₅ h₅ => ⟨trivial,
      fun t₆ h₆ => ?_⟩⟩⟩⟩
    cases h₃
    cases h₄
    cases h₅
    cases h₆
    refine ⟨fun progress hread _ => ?_, fun _ _ => ⟨trivial, fun _ _ => trivial⟩⟩
    cases hread
    exact .inr rfl
  have hended : t.2.ended.length = 1 := by
    cases hrun
    rfl
  exact ⟨t, hrun, hended, endKept_of_keepsEnd (Lts.reachableVia_of_run .init hguarded hrun)⟩

theorem not_endKept_of_gone {t : PollState × PollHistory} {p : DiscoveryUpdatePayload}
    (hended : t.2.ended = [p]) (hprocessed : t.2.processed = [])
    (hheld : t.1.terminalPayload = none) (hkeys : t.1.exchanges.keys = ∅) : ¬EndKept t := by
  intro h
  have htransit : ¬t.1.InTransit p := by
    rintro ⟨i, hi⟩
    have hmem := HashMap.mem_keys.mpr ⟨_, hi⟩
    rw [hkeys] at hmem
    exact Finset.notMem_empty i hmem
  have hkept := h p (by rw [hended]; exact mem_singleton.mpr rfl) htransit
  rw [hprocessed, hheld] at hkept
  obtain hp | hp := hkept
  · exact absurd hp not_mem_nil
  · exact absurd hp nofun

/-- The answer with the terminal update is lost; or the next session starts before a poll. -/
theorem not_endKept :
    (∃ t, pollProtocol.run pollProtocol.init (polledOps ++ [.lose 0]) = some t ∧ ¬EndKept t) ∧
    ∃ t, pollProtocol.run pollProtocol.init
      [.startClear, .startSet nightlySession, .endStore (.unified 4 none {}) [] 50 .ok,
        .endClear 10, .startClear] = some t ∧ ¬EndKept t := by
  constructor
  · exact ⟨_, rfl, not_endKept_of_gone rfl rfl rfl (by decide +kernel)⟩
  · exact ⟨_, rfl, not_endKept_of_gone rfl rfl rfl (by decide +kernel)⟩

end Runs

end Scanopy
