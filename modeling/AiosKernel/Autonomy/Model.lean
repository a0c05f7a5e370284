/-
# `AiosKernel.Autonomy.Model` — the action queue of `kernel/runtime/autonomy.c`

Agents propose actions; a proposal that passes the checks is queued, and a later
call commits the oldest one, which changes the priority of a task.  A commit
compares a score before and after, and takes the change back if it got worse.

The readings of the clock, the fragmentation the tensor manager reports, and the
health of the kernel are arguments.
-/
import AiosKernel.Health
import AiosKernel.Lib.RingQueue
import AiosKernel.Sched.Model

namespace AiosKernel.Autonomy

open Word Sched SchedState

def AUTONOMY_ACTION_CAP : Nat := 128
def AUTONOMY_EVENT_CAP : Nat := 256

def AUTONOMY_TARGET_SCHED : Nat := 1
def AUTONOMY_TARGET_INFER : Nat := 3
def AUTONOMY_TARGET_UNKNOWN : Nat := 255

/-! ## Records -/

/-- `autonomy_target_support_t`. -/
inductive Support where
  | none
  | observeOnly
  | apply
  deriving DecidableEq, Repr

/-- `policy_action_state_t`. -/
inductive ActionState where
  | proposed
  | approved
  | committed
  | rolledBack
  | rejected
  deriving DecidableEq, Repr

inductive Reason where
  | ok
  | badTarget
  | badRisk
  | badDelta
  | modeBlocked
  | unsupportedTarget
  | queueFull
  deriving DecidableEq, Repr

/-- `policy_action_t`.  The target is the caller's number, in the enumeration or not. -/
structure PolicyAction where
  actionId : Nat
  riskLevel : Nat
  targetSubsys : Nat
  deltaValue : Int
  tsNs : Nat
  state : ActionState
  reason : Reason
  deriving DecidableEq, Repr

structure PolicyEval where
  beforeScore : Nat
  afterScore : Nat
  rollbackTriggered : Bool
  deriving DecidableEq, Repr

structure AutonomyEvent where
  tsNs : Nat
  actionId : Nat
  targetSubsys : Nat
  state : ActionState
  reason : Reason
  deriving DecidableEq, Repr

/-- `telemetry_frame_t`, as far as the score reads it. -/
structure TelemetryFrame where
  fragmentation : Nat
  sched : SchedStats
  deriving DecidableEq, Repr

structure RollbackCtx where
  valid : Bool
  targetSubsys : Nat
  actionId : Nat
  prevPriority : Int
  deriving DecidableEq, Repr

/-- `autonomy_stats_t`, without the telemetry and the depth of the log, which
`autonomy_stats` computes. -/
structure AutonomyStats where
  actionsProposed : Nat
  actionsApproved : Nat
  actionsCommitted : Nat
  actionsRejected : Nat
  rollbacks : Nat
  observationOnly : Bool
  safeMode : Bool
  actionQueueDepth : Nat
  deriving DecidableEq, Repr

structure State where
  actionQueue : RingQueue PolicyAction AUTONOMY_ACTION_CAP
  eventLog : Nat → AutonomyEvent
  eventHead : Nat
  eventCount : Nat
  lastCommitted : PolicyAction
  hasLastCommitted : Bool
  rollbackCtx : RollbackCtx
  stats : AutonomyStats

def PolicyAction.zero : PolicyAction := ⟨0, 0, 0, 0, 0, .proposed, .ok⟩

/-- `autonomy_init`, on the zeroed image. -/
def init : State where
  actionQueue := RingQueue.empty (fun _ => PolicyAction.zero) (by decide)
  eventLog _ := ⟨0, 0, 0, .proposed, .ok⟩
  eventHead := 0
  eventCount := 0
  lastCommitted := PolicyAction.zero
  hasLastCommitted := false
  rollbackCtx := ⟨false, AUTONOMY_TARGET_UNKNOWN, 0, 0⟩
  stats := ⟨0, 0, 0, 0, 0, true, false, 0⟩

def State.setStats (s : State) (f : AutonomyStats → AutonomyStats) : State :=
  { s with stats := f s.stats }

/-! ## Internal helpers -/

def targetValid (targetSubsys : Nat) : Bool := decide (targetSubsys ≤ AUTONOMY_TARGET_INFER)

/-- `autonomy_target_support`, with the entries of `k_target_support_map`. -/
def targetSupport (targetSubsys : Nat) : Support :=
  if !targetValid targetSubsys then .none
  else if targetSubsys = AUTONOMY_TARGET_SCHED then .apply
  else .observeOnly

def targetSupported (targetSubsys : Nat) : Bool := targetSupport targetSubsys == .apply

def riskLevelValid (riskLevel : Nat) : Bool := decide (riskLevel ≤ 3)

def riskAllowed (health : Health.Summary) (stats : AutonomyStats) (riskLevel : Nat) : Bool :=
  if health.level = .unsafeLevel then false
  else if health.level = .degraded ∧ 0 < riskLevel then false
  else if stats.safeMode ∧ 0 < riskLevel then false
  else if stats.observationOnly then false
  else true

def deltaWithinBounds (action : PolicyAction) : Bool :=
  if action.targetSubsys = AUTONOMY_TARGET_SCHED then
    decide (-32 ≤ action.deltaValue ∧ action.deltaValue ≤ 32)
  else false

def clampPriority (value : Int) : Int := if value < 0 then 0 else if 255 < value then 255 else value

/-- `collect_live_telemetry`, as far as the score reads it. -/
def collectLiveTelemetry (fragmentation : Nat) (sched : SchedState) : TelemetryFrame :=
  ⟨fragmentation, sched.schedStats⟩

def computeEvalScore (frame : TelemetryFrame) : Nat :=
  let score := 1000000
  let score := sub64 score (min (u64 (frame.fragmentation * 500)) 250000)
  let score := sub64 score (min (u64 (frame.sched.failedTasks * 10000)) 250000)
  let score := sub64 score (min (frame.sched.avgWaitNs / 1000) 250000)
  sub64 score (min (u64 (frame.sched.activeTasks * 1000)) 100000)

def logEvent (action : PolicyAction) (s : State) : State :=
  let ev : AutonomyEvent :=
    ⟨action.tsNs, action.actionId, action.targetSubsys, action.state, action.reason⟩
  { s with
    eventLog := Function.update s.eventLog s.eventHead ev
    eventHead := (s.eventHead + 1) % AUTONOMY_EVENT_CAP
    eventCount := if s.eventCount < AUTONOMY_EVENT_CAP then s.eventCount + 1 else s.eventCount }

/-- An action is turned down: counted, and logged with the reason. -/
def reject (action : PolicyAction) (reason : Reason) (s : State) : State :=
  let s := s.setStats fun st => { st with actionsRejected := u64 (st.actionsRejected + 1) }
  logEvent { action with state := .rejected, reason := reason } s

/-! ## Calls -/

/-- `autonomy_action_propose`; a null action is `none`. -/
def actionPropose (health : Health.Summary) (nowNs : Nat) (action : Option PolicyAction)
    (s : State) : AiosStatus × State :=
  match action with
  | none => (.errInval, s)
  | some action =>
    let s := s.setStats fun st => { st with actionsProposed := u64 (st.actionsProposed + 1) }
    let copy := { action with tsNs := nowNs, state := .proposed, reason := .ok }
    if hfull : AUTONOMY_ACTION_CAP ≤ s.actionQueue.count then
      (.errBusy, reject copy .queueFull s)
    else if !riskLevelValid copy.riskLevel then (.errInval, reject copy .badRisk s)
    else if !targetValid copy.targetSubsys then (.errInval, reject copy .badTarget s)
    else if !targetSupported copy.targetSubsys then
      (.errNosys, reject copy .unsupportedTarget s)
    else if !deltaWithinBounds copy then (.errInval, reject copy .badDelta s)
    else if !riskAllowed health s.stats copy.riskLevel then (.errPerm, reject copy .modeBlocked s)
    else
      let copy := { copy with state := .approved, reason := .ok }
      let s := { s with actionQueue := s.actionQueue.push copy (Nat.lt_of_not_le hfull) }
      let s := s.setStats fun st => { st with
        actionsApproved := u64 (st.actionsApproved + 1)
        actionQueueDepth := s.actionQueue.count }
      (.ok, logEvent copy s)

def applySchedAction (fuel : Nat) (clk : Nat → Nat) (action : PolicyAction) (s : State)
    (sched : SchedState) : Outcome (AiosStatus × State × SchedState) :=
  match aiTaskGetPriority action.actionId sched with
  | (st, none) => .done (st, s, sched)
  | (_, some current) => do
    let newPriority := clampPriority (current + action.deltaValue)
    let s := { s with rollbackCtx := ⟨true, action.targetSubsys, action.actionId, current⟩ }
    let (st, sched) ← aiTaskSetPriority fuel clk action.actionId newPriority sched
    .done (st, s, sched)

def applyAction (fuel : Nat) (clk : Nat → Nat) (action : PolicyAction) (s : State)
    (sched : SchedState) : Outcome (AiosStatus × State × SchedState) :=
  if action.targetSubsys = AUTONOMY_TARGET_SCHED then applySchedAction fuel clk action s sched
  else .done (.errNosys, s, sched)

def actionRollbackLast (fuel : Nat) (clk : Nat → Nat) (nowNs : Nat) (s : State)
    (sched : SchedState) : Outcome (AiosStatus × State × SchedState) :=
  if !s.hasLastCommitted || !s.rollbackCtx.valid then .done (.errInval, s, sched)
  else if s.rollbackCtx.targetSubsys ≠ AUTONOMY_TARGET_SCHED then .done (.errNosys, s, sched)
  else do
    let (st, sched) ←
      aiTaskSetPriority fuel clk s.rollbackCtx.actionId s.rollbackCtx.prevPriority sched
    if st ≠ .ok then .done (st, s, sched)
    else
      let last := { s.lastCommitted with state := .rolledBack, reason := .ok, tsNs := nowNs }
      let s := { s with lastCommitted := last }
      let s := s.setStats fun st => { st with rollbacks := u64 (st.rollbacks + 1) }
      let s := logEvent last s
      let ctx := { s.rollbackCtx with valid := false }
      .done (.ok, { s with rollbackCtx := ctx, hasLastCommitted := false }, sched)

/-- What a commit finds: the clock when it has applied the action and when it takes it back, and
the fragmentation before and after. -/
structure CommitEnv where
  nowNs : Nat
  rollbackNs : Nat
  fragBefore : Nat
  fragAfter : Nat
  deriving DecidableEq, Repr

/-- Why a commit turns an action down whose application failed. -/
def failReason (action : PolicyAction) : Reason :=
  if !targetValid action.targetSubsys then .badTarget
  else if targetSupport action.targetSubsys ≠ .apply then .unsupportedTarget
  else .modeBlocked

/-- `autonomy_action_commit_next` after the action is applied, given the frame of before. -/
def recordCommit (fuel : Nat) (clk : Nat → Nat) (env : CommitEnv) (hasEval : Bool)
    (action : PolicyAction) (beforeFrame : TelemetryFrame) (s : State) (sched : SchedState) :
    Outcome ((AiosStatus × Option PolicyEval) × State × SchedState) :=
  let action := { action with state := .committed, reason := .ok, tsNs := env.nowNs }
  let s := { s with lastCommitted := action, hasLastCommitted := true }
  let s := s.setStats fun st => { st with actionsCommitted := u64 (st.actionsCommitted + 1) }
  let beforeScore := computeEvalScore beforeFrame
  let afterScore := computeEvalScore (collectLiveTelemetry env.fragAfter sched)
  let s := logEvent action s
  if !hasEval then .done ((.ok, none), s, sched)
  else if u64 (afterScore + 5000) < beforeScore then do
    let (st, s, sched) ← actionRollbackLast fuel clk env.rollbackNs s sched
    .done ((.ok, some ⟨beforeScore, afterScore, st == .ok⟩), s, sched)
  else .done ((.ok, some ⟨beforeScore, afterScore, false⟩), s, sched)

/-- `autonomy_action_commit_next`: the status, and what is left in `*eval` if it is written. -/
def actionCommitNext (fuel : Nat) (clk : Nat → Nat) (env : CommitEnv) (hasEval : Bool) (s : State)
    (sched : SchedState) : Outcome ((AiosStatus × Option PolicyEval) × State × SchedState) :=
  if hempty : s.actionQueue.count = 0 then .done ((.errInval, none), s, sched)
  else do
    let action := s.actionQueue.front
    let s := { s with actionQueue := s.actionQueue.pop (Nat.pos_of_ne_zero hempty) }
    let s := s.setStats fun st => { st with actionQueueDepth := s.actionQueue.count }
    let beforeFrame := collectLiveTelemetry env.fragBefore sched
    let (st, s, sched) ← applyAction fuel clk action s sched
    if st ≠ .ok then .done ((st, none), reject action (failReason action) s, sched)
    else recordCommit fuel clk env hasEval action beforeFrame s sched

def setObservationOnly (enabled : Bool) (s : State) : State :=
  s.setStats fun st => { st with observationOnly := enabled }

def setSafeMode (enabled : Bool) (s : State) : State :=
  s.setStats fun st => { st with safeMode := enabled }

end AiosKernel.Autonomy
