import Scanopy.Discovery.Types
import Scanopy.Lib.HashMap
import Scanopy.Lib.Lts

/-! The session manager of a daemon. An initiation checks the current task under one lock and
replaces it under others; the path of the requested work does not check at all. -/

namespace Scanopy

open Option

structure DaemonDiscoveryRequest where
  sessionId : Uuid
  discoveryId : Uuid
  discoveryType : DiscoveryType
  deriving DecidableEq

/-- How far a spawned task is. A legacy type is only started and finished, the others scan in
between; every error returns early. -/
inductive TaskPhase
  | spawned
  /-- `initialize_session` has set the current session. -/
  | initialized
  /-- `finish_session` has cleared it. -/
  | cleared
  /-- The discovery has returned. -/
  | returned
  /-- The task has been through `clear_completed_task`, unless it was cancelled. -/
  | tidied
  | finished
  deriving DecidableEq

structure DiscoveryTask where
  request : DaemonDiscoveryRequest
  token : ℕ
  phase : TaskPhase
  deriving DecidableEq

inductive ManagerCall
  | tryInitiate (request : DaemonDiscoveryRequest)
  | initiate (request : DaemonDiscoveryRequest)
  | tokenReset (request : DaemonDiscoveryRequest)
  | taskCleared (request : DaemonDiscoveryRequest)
  | spawned (task : ℕ)
  | cancel
  | cancelling
  deriving DecidableEq

namespace ManagerCall

/-- The call is inside `initiate_session` and has not spawned its task. -/
def beforeSpawn : ManagerCall → Bool
  | initiate _ | tokenReset _ | taskCleared _ => true
  | _ => false

/-- The call is inside `initiate_session`. -/
def isInitiating : ManagerCall → Bool
  | initiate _ | tokenReset _ | taskCleared _ | spawned _ => true
  | _ => false

end ManagerCall

structure ManagerState where
  currentTask : Option ℕ
  cancellationToken : ℕ
  nextToken : ℕ
  cancelled : Finset ℕ
  currentSession : Option Uuid
  tasks : HashMap ℕ DiscoveryTask
  calls : HashMap ℕ ManagerCall

inductive ManagerOp
  /-- A request over HTTP. -/
  | callTryInitiate (c : ℕ) (request : DaemonDiscoveryRequest)
  /-- The answer to a work request. -/
  | callInitiate (c : ℕ) (request : DaemonDiscoveryRequest)
  | callCancel (c : ℕ)
  /-- `is_discovery_running`, in `try_initiate_session` and `cancel_current_session`. -/
  | check (c : ℕ)
  /-- The next section of the call; a task that it spawns gets the number `task`. -/
  | proceed (c task : ℕ)
  | taskInitialize (t : ℕ)
  | taskFinishSession (t : ℕ)
  | taskReturn (t : ℕ)
  | taskTidy (t : ℕ)
  | taskFinish (t : ℕ)

namespace ManagerState

/-- `JoinHandle::is_finished` of a task, negated. -/
def taskRuns (s : ManagerState) (t : ℕ) : Bool :=
  (s.tasks.get t).any (·.phase ≠ .finished)

def isDiscoveryRunning (s : ManagerState) : Bool :=
  s.currentTask.any s.taskRuns

def setCall (s : ManagerState) (c : ℕ) (call : ManagerCall) : ManagerState :=
  { s with calls := s.calls.insert c call }

def dropCall (s : ManagerState) (c : ℕ) : ManagerState :=
  { s with calls := s.calls.remove c }

def setPhase (s : ManagerState) (t : ℕ) (task : DiscoveryTask) (phase : TaskPhase) :
    ManagerState :=
  { s with tasks := s.tasks.insert t { task with phase := phase } }

/-- `CancellationToken::new` in the cell of the token. -/
def resetToken (s : ManagerState) : ManagerState :=
  { s with cancellationToken := s.nextToken, nextToken := s.nextToken + 1 }

def clearCompletedTask (s : ManagerState) : ManagerState :=
  match s.currentTask with
  | some t => if s.taskRuns t then s else { s.resetToken with currentTask := none }
  | none => s

def proceed (s : ManagerState) (c task : ℕ) : Option ManagerState :=
  match s.calls.get c with
  | some (.initiate request) => some (s.resetToken.setCall c (.tokenReset request))
  | some (.tokenReset request) =>
    some ({ s with currentTask := none }.setCall c (.taskCleared request))
  | some (.taskCleared request) =>
    if s.tasks.contains task then none
    else some ({ s with tasks := s.tasks.insert task ⟨request, s.cancellationToken, .spawned⟩
      }.setCall c (.spawned task))
  | some (.spawned t) => some ({ s with currentTask := some t }.dropCall c)
  | some .cancelling =>
    some ({ s with cancelled := insert s.cancellationToken s.cancelled }.dropCall c)
  | _ => none

/-- A task in the phase `phase` takes a step. -/
def taskStep (s : ManagerState) (t : ℕ) (may : TaskPhase → Bool)
    (next : DiscoveryTask → ManagerState) : Option ManagerState :=
  (s.tasks.get t).bind fun task => if may task.phase then some (next task) else none

def step (s : ManagerState) : ManagerOp → Option ManagerState
  | .callTryInitiate c request =>
    if s.calls.contains c then none else some (s.setCall c (.tryInitiate request))
  | .callInitiate c request =>
    if s.calls.contains c then none else some (s.setCall c (.initiate request))
  | .callCancel c => if s.calls.contains c then none else some (s.setCall c .cancel)
  | .check c =>
    match s.calls.get c with
    | some (.tryInitiate request) =>
      some (if s.isDiscoveryRunning then s.dropCall c else s.setCall c (.initiate request))
    | some .cancel =>
      some (if s.isDiscoveryRunning then s.setCall c .cancelling else s.dropCall c)
    | _ => none
  | .proceed c task => s.proceed c task
  | .taskInitialize t => s.taskStep t (· = .spawned) fun task =>
      { s.setPhase t task .initialized with currentSession := some task.request.sessionId }
  | .taskFinishSession t => s.taskStep t (· = .initialized) fun task =>
      { s.setPhase t task .cleared with
        currentSession := s.currentSession.filter (· ≠ task.request.sessionId) }
  | .taskReturn t =>
    s.taskStep t (fun phase => phase = .spawned ∨ phase = .initialized ∨ phase = .cleared)
      fun task => s.setPhase t task .returned
  | .taskTidy t => s.taskStep t (· = .returned) fun task =>
      (if task.token ∈ s.cancelled then s else s.clearCompletedTask).setPhase t task .tidied
  | .taskFinish t => s.taskStep t (· = .tidied) fun task => s.setPhase t task .finished

end ManagerState

def manager : Lts ManagerState ManagerOp where
  init := ⟨none, 0, 1, ∅, none, HashMap.empty, HashMap.empty⟩
  step := ManagerState.step

structure OneDiscovery (s : ManagerState) : Prop where
  unique : ∀ t t', s.taskRuns t = true → s.taskRuns t' = true → t = t'
  session : ∀ id, s.currentSession = some id →
    ∃ t task, s.tasks.get t = some task ∧ task.phase ≠ .finished ∧ task.request.sessionId = id

def InitiatesIdle (s : ManagerState) : ManagerOp → Prop
  | .callInitiate _ _ => (∀ t, s.taskRuns t = false) ∧
      ∀ c call, s.calls.get c = some call → call.isInitiating = false
  | .check c => ∀ request, s.calls.get c = some (.tryInitiate request) →
      s.isDiscoveryRunning = false →
      ∀ c' call, s.calls.get c' = some call → call.isInitiating = false
  | .taskReturn t => ∀ task, s.tasks.get t = some task → task.phase ≠ .initialized
  | _ => True

structure OneInitiator (s : ManagerState) : Prop where
  apart : ∀ c c' call call', s.calls.get c = some call → s.calls.get c' = some call' →
    call.isInitiating = true → call'.isInitiating = true → c = c'
  before : ∀ c call, s.calls.get c = some call → call.beforeSpawn = true →
    ∀ t, s.taskRuns t = false
  after : ∀ c t, s.calls.get c = some (.spawned t) → ∀ t', s.taskRuns t' = true → t' = t
  idle : (∀ c call, s.calls.get c = some call → call.isInitiating = false) →
    ∀ t, s.taskRuns t = true → s.currentTask = some t
  session : ∀ id, s.currentSession = some id →
    ∃ t task, s.tasks.get t = some task ∧ task.phase = .initialized ∧ task.request.sessionId = id

namespace ManagerCall

theorem isInitiating_of_beforeSpawn {call : ManagerCall} (h : call.beforeSpawn = true) :
    call.isInitiating = true := by
  cases call with
  | initiate | tokenReset | taskCleared => rfl
  | tryInitiate | spawned | cancel | cancelling => exact absurd h Bool.false_ne_true

end ManagerCall

namespace ManagerState
variable {s : ManagerState} {t t' : ℕ} {task : DiscoveryTask} {phase : TaskPhase}

theorem taskRuns_of_get (h : s.tasks.get t = some task) :
    s.taskRuns t = decide (task.phase ≠ .finished) := by
  rw [taskRuns, h]
  rfl

theorem get_setPhase (s : ManagerState) (t t' : ℕ) (task : DiscoveryTask) (phase : TaskPhase) :
    (s.setPhase t task phase).tasks.get t' =
      if t' = t then some { task with phase := phase } else s.tasks.get t' :=
  HashMap.get_insert s.tasks t t' _

theorem taskRuns_of_setPhase (h : s.tasks.get t = some task) (hphase : task.phase ≠ .finished)
    (hruns : (s.setPhase t task phase).taskRuns t' = true) : s.taskRuns t' = true := by
  rw [taskRuns, get_setPhase] at hruns
  split_ifs at hruns with ht
  · rw [ht, taskRuns_of_get h]
    exact decide_eq_true hphase
  · exact hruns

@[simp] theorem tasks_clearCompletedTask (s : ManagerState) :
    s.clearCompletedTask.tasks = s.tasks := by
  rw [clearCompletedTask]
  match s.currentTask with
  | none => rfl
  | some t =>
    simp only
    split_ifs <;> rfl

theorem taskStep_eq_some {may : TaskPhase → Bool} {next : DiscoveryTask → ManagerState}
    {s' : ManagerState} (h : s.taskStep t may next = some s') :
    ∃ task, s.tasks.get t = some task ∧ may task.phase = true ∧ s' = next task := by
  obtain ⟨task, htask, hnext⟩ := bind_eq_some_iff.mp h
  obtain ⟨hmay, hs'⟩ := ite_none_right_eq_some.mp hnext
  exact ⟨task, htask, hmay, (some.inj hs').symm⟩

end ManagerState

namespace OneInitiator
variable {s s' : ManagerState} {c t : ℕ} {call : ManagerCall} {task : DiscoveryTask}

theorem unique (h : OneInitiator s) {t t' : ℕ} (ht : s.taskRuns t = true)
    (ht' : s.taskRuns t' = true) : t = t' := by
  by_cases hidle : ∀ c call, s.calls.get c = some call → call.isInitiating = false
  · have hcurrent := h.idle hidle t ht
    rw [h.idle hidle t' ht'] at hcurrent
    exact (some.inj hcurrent).symm
  · push Not at hidle
    obtain ⟨c, call, hcall, hinitiating⟩ := hidle
    cases call with
    | initiate request | tokenReset request | taskCleared request =>
      exact absurd ((h.before c _ hcall rfl t).symm.trans ht) Bool.false_ne_true
    | spawned u => rw [h.after c u hcall t ht, h.after c u hcall t' ht']
    | tryInitiate | cancel | cancelling => exact absurd rfl hinitiating

theorem oneDiscovery (h : OneInitiator s) : OneDiscovery s := by
  refine ⟨fun t t' => h.unique, fun id hid => ?_⟩
  obtain ⟨t, task, htask, hphase, hsession⟩ := h.session id hid
  refine ⟨t, task, htask, ?_, hsession⟩
  rw [hphase]
  exact TaskPhase.noConfusion

theorem of_task (h : OneInitiator s) (hcalls : s'.calls = s.calls)
    (hruns : ∀ t, s'.taskRuns t = true → s.taskRuns t = true)
    (hcurrent : ∀ t, s'.taskRuns t = true → s.currentTask = some t → s'.currentTask = some t)
    (hsession : ∀ id, s'.currentSession = some id → ∃ t task, s'.tasks.get t = some task ∧
      task.phase = .initialized ∧ task.request.sessionId = id) : OneInitiator s' := by
  have hstops : ∀ t, s.taskRuns t = false → s'.taskRuns t = false := by
    intro t ht
    cases hr : s'.taskRuns t with
    | false => rfl
    | true => exact (hruns t hr).symm.trans ht
  refine ⟨?_, ?_, ?_, ?_, hsession⟩
  · rw [hcalls]
    exact h.apart
  · intro c call hcall hbefore t
    rw [hcalls] at hcall
    exact hstops t (h.before c call hcall hbefore t)
  · intro c t hcall t' ht'
    rw [hcalls] at hcall
    exact h.after c t hcall t' (hruns t' ht')
  · intro hidle t ht
    rw [hcalls] at hidle
    exact hcurrent t ht (h.idle hidle t (hruns t ht))

theorem of_bystander (h : OneInitiator s) (htasks : s'.tasks = s.tasks)
    (hcurrent : s'.currentTask = s.currentTask) (hsession : s'.currentSession = s.currentSession)
    (hcalls : ∀ c call, call.isInitiating = true →
      (s'.calls.get c = some call ↔ s.calls.get c = some call)) : OneInitiator s' := by
  have hruns : s'.taskRuns = s.taskRuns := by
    funext t
    rw [ManagerState.taskRuns, htasks, ManagerState.taskRuns]
  refine ⟨?_, ?_, ?_, ?_, ?_⟩
  · intro c c' call call' hcall hcall' hinit hinit'
    exact h.apart c c' call call' ((hcalls c call hinit).mp hcall)
      ((hcalls c' call' hinit').mp hcall') hinit hinit'
  · intro c call hcall hbefore
    rw [hruns]
    have hinit := ManagerCall.isInitiating_of_beforeSpawn hbefore
    exact h.before c call ((hcalls c call hinit).mp hcall) hbefore
  · intro c t hcall
    rw [hruns]
    exact h.after c t ((hcalls c _ rfl).mp hcall)
  · intro hidle
    rw [hruns, hcurrent]
    refine h.idle fun c call hcall => ?_
    cases hinit : call.isInitiating with
    | false => rfl
    | true => exact hinit.symm.trans (hidle c call ((hcalls c call hinit).mpr hcall))
  · rw [htasks, hsession]
    exact h.session

theorem of_initiating (hget : ∀ c', s'.calls.get c' = if c' = c then some call else s.calls.get c')
    (hother : ∀ c' call', c' ≠ c → s.calls.get c' = some call' → call'.isInitiating = false)
    (hinit : call.isInitiating = true)
    (hbefore : call.beforeSpawn = true → ∀ t, s'.taskRuns t = false)
    (hafter : ∀ t, call = .spawned t → ∀ t', s'.taskRuns t' = true → t' = t)
    (hsession : ∀ id, s'.currentSession = some id → ∃ t task, s'.tasks.get t = some task ∧
      task.phase = .initialized ∧ task.request.sessionId = id) : OneInitiator s' := by
  have honly : ∀ c' call', s'.calls.get c' = some call' → call'.isInitiating = true →
      c' = c ∧ call' = call := by
    intro c' call' hcall' hinit'
    rw [hget] at hcall'
    split_ifs at hcall' with hc
    · exact ⟨hc, (some.inj hcall').symm⟩
    · exact absurd ((hother c' call' hc hcall').symm.trans hinit') Bool.false_ne_true
  refine ⟨?_, ?_, ?_, ?_, hsession⟩
  · intro c₁ c₂ call₁ call₂ h₁ h₂ hinit₁ hinit₂
    rw [(honly c₁ call₁ h₁ hinit₁).1, (honly c₂ call₂ h₂ hinit₂).1]
  · intro c' call' hcall' hbefore'
    have hinit' := ManagerCall.isInitiating_of_beforeSpawn hbefore'
    obtain ⟨-, rfl⟩ := honly c' call' hcall' hinit'
    exact hbefore hbefore'
  · intro c' t hcall'
    obtain ⟨-, hcall⟩ := honly c' (.spawned t) hcall' rfl
    exact hafter t hcall.symm
  · intro hidle
    have hfalse := hidle c call (by rw [hget, if_pos rfl])
    exact absurd (hfalse.symm.trans hinit) Bool.false_ne_true

theorem of_idle (hidle : ∀ c call, s'.calls.get c = some call → call.isInitiating = false)
    (hcurrent : ∀ t, s'.taskRuns t = true → s'.currentTask = some t)
    (hsession : ∀ id, s'.currentSession = some id → ∃ t task, s'.tasks.get t = some task ∧
      task.phase = .initialized ∧ task.request.sessionId = id) : OneInitiator s' := by
  have hnone : ∀ c call, s'.calls.get c = some call → ¬call.isInitiating = true := by
    intro c call hcall
    rw [hidle c call hcall]
    exact Bool.false_ne_true
  refine ⟨?_, ?_, ?_, fun _ => hcurrent, hsession⟩
  · exact fun c _ call _ hcall _ hinit _ => absurd hinit (hnone c call hcall)
  · intro c call hcall hbefore
    exact absurd (ManagerCall.isInitiating_of_beforeSpawn hbefore) (hnone c call hcall)
  · exact fun c t hcall => absurd rfl (hnone c (.spawned t) hcall)

theorem other (h : OneInitiator s) (hcall : s.calls.get c = some call)
    (hinit : call.isInitiating = true) (c' : ℕ) (call' : ManagerCall) (hne : c' ≠ c)
    (hcall' : s.calls.get c' = some call') : call'.isInitiating = false := by
  cases hinit' : call'.isInitiating with
  | false => rfl
  | true => exact absurd (h.apart c' c call' call hcall' hcall hinit' hinit) hne

theorem nothing_runs (h : OneInitiator s) (hcheck : s.isDiscoveryRunning = false)
    (hidle : ∀ c call, s.calls.get c = some call → call.isInitiating = false) (t : ℕ) :
    s.taskRuns t = false := by
  cases hruns : s.taskRuns t with
  | false => rfl
  | true =>
    rw [ManagerState.isDiscoveryRunning, h.idle hidle t hruns] at hcheck
    exact hruns.symm.trans hcheck

theorem setCall (h : OneInitiator s)
    (hold : ∀ call, s.calls.get c = some call → call.isInitiating = false)
    (hnew : call.isInitiating = false) : OneInitiator (s.setCall c call) := by
  refine h.of_bystander rfl rfl rfl fun c' call' hinit => ?_
  rw [ManagerState.setCall, HashMap.get_insert]
  split_ifs with hc
  · subst hc
    constructor
    · intro heq
      cases heq
      exact absurd (hnew.symm.trans hinit) Bool.false_ne_true
    · intro heq
      exact absurd ((hold call' heq).symm.trans hinit) Bool.false_ne_true
  · exact Iff.rfl

theorem dropCall (h : OneInitiator s)
    (hold : ∀ call, s.calls.get c = some call → call.isInitiating = false) :
    OneInitiator (s.dropCall c) := by
  refine h.of_bystander rfl rfl rfl fun c' call' hinit => ?_
  rw [ManagerState.dropCall, HashMap.get_remove]
  split_ifs with hc
  · subst hc
    exact ⟨nofun, fun heq => absurd ((hold call' heq).symm.trans hinit) Bool.false_ne_true⟩
  · exact Iff.rfl

theorem initiate (h : OneInitiator s) (hruns : ∀ t, s.taskRuns t = false)
    (hidle : ∀ c call, s.calls.get c = some call → call.isInitiating = false)
    (request : DaemonDiscoveryRequest) : OneInitiator (s.setCall c (.initiate request)) :=
  of_initiating (HashMap.get_insert s.calls c · _) (fun c' call' _ => hidle c' call') rfl
    (fun _ => hruns) (fun _ ht => absurd ht ManagerCall.noConfusion) h.session

theorem proceed {n : ℕ} (h : OneInitiator s) (hstep : s.proceed c n = some s') :
    OneInitiator s' := by
  rw [ManagerState.proceed] at hstep
  match hcall : s.calls.get c with
  | some (.initiate request) =>
    rw [hcall] at hstep
    cases hstep
    exact of_initiating (HashMap.get_insert s.calls c · _) (h.other hcall rfl) rfl
      (fun _ => h.before c _ hcall rfl) (fun _ ht => absurd ht ManagerCall.noConfusion) h.session
  | some (.tokenReset request) =>
    rw [hcall] at hstep
    cases hstep
    exact of_initiating (HashMap.get_insert s.calls c · _) (h.other hcall rfl) rfl
      (fun _ => h.before c _ hcall rfl) (fun _ ht => absurd ht ManagerCall.noConfusion) h.session
  | some (.taskCleared request) =>
    rw [hcall] at hstep
    obtain ⟨hfresh, hs'⟩ := ite_none_left_eq_some.mp hstep
    cases hs'
    have hget : ∀ t, (s.tasks.insert n ⟨request, s.cancellationToken, .spawned⟩).get t =
        if t = n then some ⟨request, s.cancellationToken, .spawned⟩ else s.tasks.get t :=
      fun t => HashMap.get_insert s.tasks n t _
    refine of_initiating (HashMap.get_insert s.calls c · _) (h.other hcall rfl) rfl
      (fun hbefore => absurd hbefore Bool.false_ne_true) ?_ ?_
    · intro t ht t' ht'
      cases ht
      -- what ran before is nothing
      by_contra hne
      have hold : s.taskRuns t' = true := by
        rw [ManagerState.taskRuns]
        rw [ManagerState.taskRuns, ManagerState.setCall, hget, if_neg hne] at ht'
        exact ht'
      exact absurd ((h.before c _ hcall rfl t').symm.trans hold) Bool.false_ne_true
    · intro id hid
      obtain ⟨t, task, htask, hphase, hsession⟩ := h.session id hid
      refine ⟨t, task, ?_, hphase, hsession⟩
      have hne : t ≠ n := by
        rintro rfl
        exact hfresh (HashMap.contains_eq_true.mpr ⟨task, htask⟩)
      rw [ManagerState.setCall, hget, if_neg hne]
      exact htask
  | some (.spawned t) =>
    rw [hcall] at hstep
    cases hstep
    have hidle : ∀ c' call', (s.calls.remove c).get c' = some call' →
        call'.isInitiating = false := by
      intro c' call' hcall'
      rw [HashMap.get_remove] at hcall'
      split_ifs at hcall' with hc
      exact h.other hcall rfl c' call' hc hcall'
    refine of_idle hidle (fun t' ht' => ?_) h.session
    rw [h.after c t hcall t' ht']
    rfl
  | some .cancelling =>
    rw [hcall] at hstep
    cases hstep
    have hsame : OneInitiator { s with cancelled := insert s.cancellationToken s.cancelled } :=
      h.of_bystander rfl rfl rfl fun _ _ _ => Iff.rfl
    refine hsame.dropCall fun call hget => ?_
    cases hcall.symm.trans hget
    rfl
  | some (.tryInitiate request) | some .cancel | none =>
    rw [hcall] at hstep
    exact absurd hstep nofun

theorem check (h : OneInitiator s) (hstep : s.step (.check c) = some s')
    (hok : InitiatesIdle s (.check c)) : OneInitiator s' := by
  rw [ManagerState.step] at hstep
  match hcall : s.calls.get c with
  | some (.tryInitiate request) =>
    have hold : ∀ call, s.calls.get c = some call → call.isInitiating = false := by
      intro call hget
      cases hcall.symm.trans hget
      rfl
    rw [hcall] at hstep
    cases hstep
    split_ifs with hrunning
    · exact h.dropCall hold
    · have hcheck := Bool.eq_false_iff.mpr hrunning
      have hidle := hok request hcall hcheck
      exact h.initiate (h.nothing_runs hcheck hidle) hidle request
  | some .cancel =>
    have hold : ∀ call, s.calls.get c = some call → call.isInitiating = false := by
      intro call hget
      cases hcall.symm.trans hget
      rfl
    rw [hcall] at hstep
    cases hstep
    split_ifs
    · exact h.setCall hold rfl
    · exact h.dropCall hold
  | some (.initiate _) | some (.tokenReset _) | some (.taskCleared _) | some (.spawned _)
  | some .cancelling | none =>
    rw [hcall] at hstep
    exact absurd hstep nofun

theorem setPhase (h : OneInitiator s) (htask : s.tasks.get t = some task) {phase : TaskPhase}
    (hphase : task.phase ≠ .finished) (hinit : task.phase ≠ .initialized) :
    OneInitiator (s.setPhase t task phase) := by
  refine h.of_task rfl (fun _ => ManagerState.taskRuns_of_setPhase htask hphase)
    (fun _ _ => id) fun id hid => ?_
  obtain ⟨t', task', htask', hphase', hsession⟩ := h.session id hid
  refine ⟨t', task', ?_, hphase', hsession⟩
  have hne : t' ≠ t := by
    rintro rfl
    cases htask.symm.trans htask'
    exact hinit hphase'
  rw [ManagerState.get_setPhase, if_neg hne]
  exact htask'

theorem taskInitialize (h : OneInitiator s) (htask : s.tasks.get t = some task)
    (hphase : task.phase = .spawned) :
    OneInitiator { s.setPhase t task .initialized with
      currentSession := some task.request.sessionId } := by
  have hrunning : task.phase ≠ .finished := by
    rw [hphase]
    exact TaskPhase.noConfusion
  refine h.of_task rfl (fun _ => ManagerState.taskRuns_of_setPhase htask hrunning)
    (fun _ _ => id) fun id hid => ?_
  refine ⟨t, { task with phase := .initialized }, ?_, rfl, some.inj hid⟩
  exact (ManagerState.get_setPhase s t t task .initialized).trans (if_pos rfl)

theorem taskFinishSession (h : OneInitiator s) (htask : s.tasks.get t = some task)
    (hphase : task.phase = .initialized) :
    OneInitiator { s.setPhase t task .cleared with
      currentSession := s.currentSession.filter (· ≠ task.request.sessionId) } := by
  have hrunning : task.phase ≠ .finished := by
    rw [hphase]
    exact TaskPhase.noConfusion
  refine h.of_task rfl (fun _ => ManagerState.taskRuns_of_setPhase htask hrunning)
    (fun _ _ => id) fun id hid => ?_
  obtain ⟨hid, hne⟩ := filter_eq_some_iff.mp hid
  obtain ⟨t', task', htask', hphase', hsession⟩ := h.session id hid
  -- the session is that of a running task, so of this one
  have hsame : t' = t := by
    refine h.unique ?_ ?_
    · rw [ManagerState.taskRuns_of_get htask', hphase']
      rfl
    · rw [ManagerState.taskRuns_of_get htask, hphase]
      rfl
  subst hsame
  cases htask.symm.trans htask'
  exact absurd hsession.symm (of_decide_eq_true hne)

theorem clearCompletedTask (h : OneInitiator s) : OneInitiator s.clearCompletedTask := by
  rw [ManagerState.clearCompletedTask]
  match hcurrent : s.currentTask with
  | none => exact h
  | some t =>
    simp only
    split_ifs with hruns
    · exact h
    · refine h.of_task rfl (fun _ => id) (fun t' ht' hcurrent' => ?_) h.session
      cases hcurrent.symm.trans hcurrent'
      exact absurd ht' hruns

theorem step {op : ManagerOp} (h : OneInitiator s) (hok : InitiatesIdle s op)
    (hstep : s.step op = some s') : OneInitiator s' := by
  have hnew : ∀ c, ¬s.calls.contains c = true →
      ∀ call, s.calls.get c = some call → call.isInitiating = false :=
    fun c hfresh call hcall => absurd (HashMap.contains_eq_true.mpr ⟨call, hcall⟩) hfresh
  cases op with
  | callTryInitiate c request =>
    obtain ⟨hfresh, hs'⟩ := ite_none_left_eq_some.mp hstep
    cases hs'
    exact h.setCall (hnew c hfresh) rfl
  | callInitiate c request =>
    obtain ⟨-, hs'⟩ := ite_none_left_eq_some.mp hstep
    cases hs'
    exact h.initiate hok.1 hok.2 request
  | callCancel c =>
    obtain ⟨hfresh, hs'⟩ := ite_none_left_eq_some.mp hstep
    cases hs'
    exact h.setCall (hnew c hfresh) rfl
  | check c => exact h.check hstep hok
  | proceed c task => exact h.proceed hstep
  | taskInitialize t =>
    rw [ManagerState.step] at hstep
    obtain ⟨task, htask, hphase, rfl⟩ := ManagerState.taskStep_eq_some hstep
    exact h.taskInitialize htask (of_decide_eq_true hphase)
  | taskFinishSession t =>
    rw [ManagerState.step] at hstep
    obtain ⟨task, htask, hphase, rfl⟩ := ManagerState.taskStep_eq_some hstep
    exact h.taskFinishSession htask (of_decide_eq_true hphase)
  | taskReturn t =>
    rw [ManagerState.step] at hstep
    obtain ⟨task, htask, hphase, rfl⟩ := ManagerState.taskStep_eq_some hstep
    refine h.setPhase htask (fun hfinished => ?_) (hok task htask)
    rw [hfinished] at hphase
    exact absurd hphase (by decide)
  | taskTidy t =>
    rw [ManagerState.step] at hstep
    obtain ⟨task, htask, hphase, rfl⟩ := ManagerState.taskStep_eq_some hstep
    have hreturned : task.phase = .returned := of_decide_eq_true hphase
    have htidied : OneInitiator (if task.token ∈ s.cancelled then s else s.clearCompletedTask) := by
      split_ifs
      · exact h
      · exact h.clearCompletedTask
    have hget : (if task.token ∈ s.cancelled then s else s.clearCompletedTask).tasks.get t =
        some task := by
      split_ifs
      · exact htask
      · rw [ManagerState.tasks_clearCompletedTask]
        exact htask
    exact htidied.setPhase hget (by rw [hreturned]; exact TaskPhase.noConfusion)
      (by rw [hreturned]; exact TaskPhase.noConfusion)
  | taskFinish t =>
    rw [ManagerState.step] at hstep
    obtain ⟨task, htask, hphase, rfl⟩ := ManagerState.taskStep_eq_some hstep
    have htidied : task.phase = .tidied := of_decide_eq_true hphase
    exact h.setPhase htask (by rw [htidied]; exact TaskPhase.noConfusion)
      (by rw [htidied]; exact TaskPhase.noConfusion)

end OneInitiator

/-- In every run whose steps all meet the condition, one discovery runs at a time and the current
session is its own. -/
theorem oneDiscovery_of_initiatesIdle {s : ManagerState}
    (hs : manager.ReachableVia InitiatesIdle s) : OneDiscovery s := by
  refine OneInitiator.oneDiscovery (Lts.ReachableVia.invariant ?_ ?_ hs)
  · refine OneInitiator.of_idle ?_ ?_ ?_
    · exact fun c call hcall => absurd (show none = some call from hcall) nofun
    · exact fun t ht => absurd (show false = true from ht) Bool.false_ne_true
    · exact fun id hid => absurd hid nofun
  · exact fun s op s' _ hinv hok hstep => hinv.step hok hstep

section Runs

private def unifiedRequest (sessionId : Uuid) : DaemonDiscoveryRequest :=
  ⟨sessionId, 1, .unified 4 none {}⟩

private def oneRequestOps : List ManagerOp :=
  [.callTryInitiate 0 (unifiedRequest 10), .check 0, .proceed 0 0, .proceed 0 0, .proceed 0 7,
    .taskInitialize 7, .proceed 0 0]

theorem oneDiscovery_of_initiatesIdle_oneRequest :
    ∃ s, manager.run manager.init oneRequestOps = some s ∧ s.taskRuns 7 = true ∧
      s.currentSession = some 10 ∧ OneDiscovery s := by
  obtain ⟨s, hrun⟩ : ∃ s, manager.run manager.init oneRequestOps = some s := ⟨_, rfl⟩
  have hguarded : manager.Guarded InitiatesIdle manager.init oneRequestOps := by
    refine ⟨trivial, fun s₁ h₁ => ⟨?_, fun s₂ h₂ => ⟨trivial, fun s₃ h₃ => ⟨trivial,
      fun s₄ h₄ => ⟨trivial, fun s₅ h₅ => ⟨trivial, fun s₆ h₆ => ⟨trivial, fun _ _ => trivial⟩⟩⟩⟩⟩⟩⟩
    intro request hcall _ c' call hcall'
    cases h₁
    -- the only call is the one that checks
    change (HashMap.insert HashMap.empty 0 _).get c' = some call at hcall'
    rw [HashMap.get_insert] at hcall'
    split_ifs at hcall'
    · cases hcall'
      rfl
    · exact absurd hcall' nofun
  have hs := oneDiscovery_of_initiatesIdle (Lts.reachableVia_of_run .init hguarded hrun)
  cases hrun
  exact ⟨_, rfl, rfl, rfl, hs⟩

/-- Work that is handed over while a discovery runs starts a second one, and so do two requests
over HTTP that check before either has spawned its task. -/
theorem not_oneDiscovery :
    (∃ s, manager.run manager.init (oneRequestOps ++
        [.callInitiate 1 (unifiedRequest 11), .proceed 1 0, .proceed 1 0, .proceed 1 8]) = some s ∧
      ¬OneDiscovery s) ∧
    ∃ s, manager.run manager.init
        [.callTryInitiate 0 (unifiedRequest 10), .callTryInitiate 1 (unifiedRequest 11), .check 0,
          .check 1, .proceed 0 0, .proceed 0 0, .proceed 0 7, .proceed 1 0, .proceed 1 0,
          .proceed 1 8] = some s ∧
      ¬OneDiscovery s := by
  constructor
  · refine ⟨_, rfl, fun h => ?_⟩
    exact absurd (h.unique 7 8 rfl rfl) (by decide)
  · refine ⟨_, rfl, fun h => ?_⟩
    exact absurd (h.unique 7 8 rfl rfl) (by decide)

end Runs

end Scanopy
